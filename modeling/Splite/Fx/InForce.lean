import Splite.Fx.Service

/-!
# Rates that are not in force yet (`services/fx.js`)

The BCV publishes tomorrow's rate in the afternoon. A page just read and the stored history are
checked against today; an entry of the memory cache is returned without that check.

`answers_in_force_iff`: all the answers of a run are in force exactly when no call of it meets a
cached entry whose day has not come.
-/

namespace Splite.Fx

variable {Rate : Type}

/-- A returned rate has no value date, or one that is not after the Caracas day of its return. -/
def Answer.InForce (a : Answer Rate) : Prop :=
  ∀ q ∈ a.quote, ∀ day ∈ q.valueDate, day ≤ caracasToday a.now

instance (a : Answer Rate) : Decidable a.InForce := by
  unfold Answer.InForce
  infer_instance

/-- No call is about to be answered with a cached entry whose value date is after today. -/
def CacheInForce (cfg : FxConfig Rate) (s : FxState Rate) : FxEvent Rate → Prop
  | .call _ currency now => ReadsCache cfg currency →
      ∀ q ∈ cacheHit cfg s currency now, isInForce q.valueDate now = true
  | _ => True

instance (cfg : FxConfig Rate) (s : FxState Rate) : ∀ e, Decidable (CacheInForce cfg s e)
  | .call _ currency now => inferInstanceAs (Decidable (ReadsCache cfg currency →
      ∀ q ∈ cacheHit cfg s currency now, isInForce q.valueDate now = true))
  | .landed .. | .queried .. | .answered .. | .stored .. => inferInstanceAs (Decidable True)

variable [One Rate] {cfg : FxConfig Rate} {s : FxState Rate}

omit [One Rate] in
theorem inForce_some {id : Nat} {currency : String} {now : Int} {q : Quote Rate} :
    (Answer.mk id currency now (some q)).InForce ↔ isInForce q.valueDate now = true := by
  rw [isInForce_iff]
  simp [Answer.InForce]

/-- One step: only the cache can answer with a rate that is not in force. -/
theorem step_in_force_iff (s : FxState Rate) (e : FxEvent Rate) (h : FxInv s) (hc : Clocked s e) :
    (∀ a ∈ ((service cfg).step s e).2, a.InForce) ↔ CacheInForce cfg s e := by
  cases e with
  | call id currency now =>
    constructor
    · intro hall hreads q hq
      have hdone := getRateFor_done.mpr (.inr (.inr ⟨hreads, q, hq, rfl⟩))
      exact inForce_some.mp (hall _ (mem_call.mpr ⟨_, hdone, rfl⟩))
    · intro hcache a ha
      obtain ⟨quote, hdone, rfl⟩ := mem_call.mp ha
      rcases getRateFor_done.mp hdone with ⟨-, rfl⟩ | ⟨-, -, rfl⟩ | ⟨hreads, q, hq, rfl⟩
      · exact inForce_some.mpr rfl
      · simp [Answer.InForce]
      · exact inForce_some.mpr (hcache hreads q hq)
  | landed flight now =>
    refine iff_of_true (fun a ha => ?_) trivial
    obtain ⟨-, c, -, -, q, -, hforce, rfl⟩ := mem_landed.mp ha
    exact inForce_some.mpr hforce
  | answered id now =>
    refine iff_of_true (fun a ha => ?_) trivial
    obtain ⟨c, hcm, -, reason, row, hp, rfl⟩ := mem_answered.mp ha
    intro q hq day hday
    obtain ⟨r, rfl, hvd, -⟩ := afterHistory_some hq
    rw [hvd] at hday
    cases hday
    exact (h.row_in_force c hcm reason r hp).trans (caracasToday_mono hc.1)
  | queried id ok now => exact iff_of_true (fun a ha => absurd ha not_mem_queried) trivial
  | stored rows now => exact iff_of_true (fun a ha => absurd ha not_mem_stored) trivial

/-- Over every run of a process, all the rates that `getRateFor` returns are in force exactly when
no call meets a cached entry that is not. -/
theorem answers_in_force_iff (rows : List (FxRow Rate)) (clock : Int) (run : List (FxEvent Rate))
    (hrun : (service cfg).Every Clocked (FxState.start rows clock) run) :
    (∀ a ∈ (service cfg).outputs (FxState.start rows clock) run, a.InForce) ↔
      (service cfg).Every (CacheInForce cfg) (FxState.start rows clock) run :=
  Machine.outputs_iff_every fxInv_step step_in_force_iff (fxInv_start rows clock) hrun

/-! ## An afternoon -/

/-- The defaults of `config.fx`, with rates in hundredths and a band of five percent. -/
def defaultConfig : FxConfig Nat where
  enabled := true
  url := "https://www.bcv.org.ve/"
  source := "BCV"
  ttlMs := 900000
  maxFallbackAgeDays := 5
  withinAbsoluteBounds := fun rate => 100 ≤ rate
  withinBand := fun baseline rate => (max rate baseline - min rate baseline) * 100 ≤ 5 * baseline

/-- A page that is read and stored at `now`. -/
def pageAt (now : Int) (rates : List (String × Nat)) (valueDate : Option Day) : Flight Nat where
  baselines := true
  page := some (rates, valueDate)
  stamp := fun _ => now
  persisted := fun _ => true

/-- 17:00 in Caracas on day `day`. -/
def afternoon (day : Day) : Int := day * 86400000 + 75600000

/-- At 17:00 the page shows tomorrow's rate: the first call asks the history, finds nothing and
returns null. -/
def earlyPage (now : Int) : List (FxEvent Nat) :=
  [.call 1 "USD" now,
   .landed (pageAt now [("USD", 75754)] (some 101)) now,
   .queried 1 true now,
   .answered 1 now]

/-- A minute later a second call is answered from the cache, with the rate of tomorrow. -/
theorem tomorrow_from_cache :
    let run := earlyPage (afternoon 100) ++ [.call 2 "USD" (afternoon 100 + 60000)]
    (service defaultConfig).Every Clocked (FxState.start [] (afternoon 100)) run ∧
      ¬∀ a ∈ (service defaultConfig).outputs (FxState.start [] (afternoon 100)) run, a.InForce := by
  decide

/-- A page that shows today's rate is returned by the call that fetched it and from the cache. -/
def todayTwice : List (FxEvent Nat) :=
  [.call 1 "USD" (afternoon 100),
   .landed (pageAt (afternoon 100) [("USD", 75754)] (some 100)) (afternoon 100),
   .call 2 "USD" (afternoon 100 + 60000)]

theorem today_from_cache :
    ((service defaultConfig).outputs (FxState.start [] (afternoon 100)) todayTwice).length = 2 ∧
    ∀ a ∈ (service defaultConfig).outputs (FxState.start [] (afternoon 100)) todayTwice,
      a.InForce :=
  ⟨by decide, (answers_in_force_iff _ _ _ (by decide)).mpr (by decide)⟩

end Splite.Fx
