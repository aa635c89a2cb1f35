import Splite.Fx.InForce

/-!
# The age of a rate (`services/fx.js`)

The age of a stored rate is checked on one of the two ways to the history, and a figure that a
refresh did not replace stays in memory and is returned after it.

`answers_recent_iff`: all the answers of a run are recent exactly when no refresh leaves a waiting
call with an old figure, and no call whose publication is not in force yet reads an old row.
-/

namespace Splite.Fx

variable {Rate : Type}

/-- The value date is at most `maxFallbackAgeDays` before the Caracas day of `now`. -/
def WithinWindow (cfg : FxConfig Rate) (valueDate : Option Day) (now : Int) : Prop :=
  ∃ day ∈ valueDate, caracasToday now - day ≤ cfg.maxFallbackAgeDays

instance (cfg : FxConfig Rate) (now : Int) :
    ∀ valueDate, Decidable (WithinWindow cfg valueDate now)
  | none => isFalse fun ⟨_, h, _⟩ => nomatch h
  | some day => decidable_of_iff (caracasToday now - day ≤ cfg.maxFallbackAgeDays)
      ⟨fun h => ⟨day, rfl, h⟩, fun ⟨_, hd, h⟩ => by cases hd; exact h⟩

/-- A figure from the page, stamped at most `ttlMs` before `now`. -/
def FreshAt (cfg : FxConfig Rate) (q : Quote Rate) (now : Int) : Prop :=
  q.origin = .page ∧ q.fetchedAt ≤ now ∧ now - q.fetchedAt ≤ cfg.ttlMs

instance (cfg : FxConfig Rate) (q : Quote Rate) (now : Int) : Decidable (FreshAt cfg q now) :=
  inferInstanceAs (Decidable (_ ∧ _))

/-- A returned foreign rate is fresh from the page, or its value date is within the window. -/
def Answer.Recent (cfg : FxConfig Rate) (a : Answer Rate) : Prop :=
  ∀ q ∈ a.quote, a.currency ∈ SUPPORTED → FreshAt cfg q a.now ∨ WithinWindow cfg q.valueDate a.now

instance (cfg : FxConfig Rate) (a : Answer Rate) : Decidable (a.Recent cfg) := by
  unfold Answer.Recent
  infer_instance

/-- The row that a call has read, because the publication is not in force yet, is within the
window. -/
def Phase.ReadsWithin (cfg : FxConfig Rate) (now : Int) : Phase Rate → Prop
  | .read .notYetInForce (some row) => WithinWindow cfg (some row.valueDate) now
  | _ => True

instance (cfg : FxConfig Rate) (now : Int) : ∀ p : Phase Rate, Decidable (p.ReadsWithin cfg now)
  | .read .notYetInForce (some row) =>
    inferInstanceAs (Decidable (WithinWindow cfg (some row.valueDate) now))
  | .read .notYetInForce none | .read .fetchFailed _ | .read .rejectedByGuard _ => isTrue trivial
  | .flight | .history _ => isTrue trivial

/-- When a flight lands, no waiting call finds a figure in force that is neither fresh nor within
the window (one that the refresh did not replace, or took too long to store). When a call whose
publication is not in force yet is answered, the row it has read is within the window. -/
def KeepsUp (cfg : FxConfig Rate) (s : FxState Rate) : FxEvent Rate → Prop
  | .landed flight now => s.inFlight = true → ∀ c ∈ s.calls, c.phase = .flight →
      ∀ q ∈ inMemory cfg flight s c.currency, isInForce q.valueDate now = true →
        now - q.fetchedAt ≤ cfg.ttlMs ∨ WithinWindow cfg q.valueDate now
  | .answered id now => ∀ c ∈ s.calls, c.id = id → c.phase.ReadsWithin cfg now
  | _ => True

instance [DecidableEq Rate] (cfg : FxConfig Rate) (s : FxState Rate) :
    ∀ e, Decidable (KeepsUp cfg s e)
  | .landed flight now => inferInstanceAs (Decidable (s.inFlight = true → ∀ c ∈ s.calls,
      c.phase = .flight → ∀ q ∈ inMemory cfg flight s c.currency,
        isInForce q.valueDate now = true →
          now - q.fetchedAt ≤ cfg.ttlMs ∨ WithinWindow cfg q.valueDate now))
  | .answered id now =>
    inferInstanceAs (Decidable (∀ c ∈ s.calls, c.id = id → c.phase.ReadsWithin cfg now))
  | .call .. | .queried .. | .stored .. => isTrue trivial

variable [One Rate] {cfg : FxConfig Rate} {s : FxState Rate}

omit [One Rate] in
/-- What is in memory after a refresh came from the page, and its stamp has passed. -/
theorem inMemory_page (h : FxInv s) {flight : Flight Rate} {now : Int} (hle : s.clock ≤ now)
    (hstamp : ∀ c ∈ SUPPORTED, flight.stamp c ≤ now) {currency : String} {q : Quote Rate}
    (hq : inMemory cfg flight s currency = some q) : q.origin = .page ∧ q.fetchedAt ≤ now := by
  unfold inMemory at hq
  split at hq
  · cases hq
  rename_i r hr
  rcases Option.or_eq_some_iff.mp hq with hq | ⟨-, hq⟩
  · obtain ⟨hs, ho, hf⟩ := refreshed_accepted hr hq
    exact ⟨ho, hf ▸ hstamp _ hs⟩
  · exact ⟨(h.cached _ _ hq).1, (h.cached _ _ hq).2.trans hle⟩

/-- One step: an old rate gets out only where `KeepsUp` fails. -/
theorem step_recent_iff (s : FxState Rate) (e : FxEvent Rate) (h : FxInv s) (hc : Clocked s e) :
    (∀ a ∈ ((service cfg).step s e).2, a.Recent cfg) ↔ KeepsUp cfg s e := by
  cases e with
  | call id currency now =>
    refine iff_of_true (fun a ha => ?_) trivial
    obtain ⟨quote, hdone, rfl⟩ := mem_call.mp ha
    rcases getRateFor_done.mp hdone with ⟨hves, -⟩ | ⟨-, -, rfl⟩ | ⟨-, q, hq, rfl⟩
    · intro q _ hsup
      simp [hves, SUPPORTED] at hsup
    · simp [Answer.Recent]
    · intro q' hq' _
      cases hq'
      obtain ⟨hmem, httl⟩ := Option.filter_eq_some_iff.mp hq
      obtain ⟨ho, hf⟩ := h.cached _ _ hmem
      exact .inl ⟨ho, hf.trans hc.1, by simpa using (of_decide_eq_true httl).le⟩
  | landed flight now =>
    constructor
    · intro hall hin c hcm hp q hq hforce
      have ha := hall _ (mem_landed.mpr ⟨hin, c, hcm, hp, q, hq, hforce, rfl⟩)
      exact (ha q rfl (h.supported c hcm)).imp_left fun hfresh => hfresh.2.2
    · intro hk a ha
      obtain ⟨hin, c, hcm, hp, q, hq, hforce, rfl⟩ := mem_landed.mp ha
      intro q' hq' _
      cases hq'
      obtain ⟨ho, hf⟩ := inMemory_page h hc.1 hc.2 hq
      exact (hk hin c hcm hp q hq hforce).imp_left fun httl => ⟨ho, hf, httl⟩
  | answered id now =>
    constructor
    · intro hall c hcm hid
      unfold Phase.ReadsWithin
      split
      · rename_i row hp
        have ha := hall _ (mem_answered.mpr ⟨c, hcm, hid, _, _, hp, rfl⟩)
        rcases ha _ rfl (h.supported c hcm) with hfresh | hwin
        · cases hfresh.1
        · exact hwin
      · trivial
    · intro hk a ha
      obtain ⟨c, hcm, hid, reason, row, hp, rfl⟩ := mem_answered.mp ha
      intro q hq _
      obtain ⟨r, rfl, hvd, -, hage⟩ := afterHistory_some hq
      right
      rw [hvd]
      by_cases hr : reason = .notYetInForce
      · have := hk c hcm hid
        rw [hp, hr] at this
        exact this
      · exact ⟨r.valueDate, rfl, hage hr⟩
  | queried id ok now => exact iff_of_true (fun a ha => absurd ha not_mem_queried) trivial
  | stored rows now => exact iff_of_true (fun a ha => absurd ha not_mem_stored) trivial

/-- Over every run of a process, all the foreign rates that `getRateFor` returns are recent exactly
when every step of it keeps up. -/
theorem answers_recent_iff (rows : List (FxRow Rate)) (clock : Int) (run : List (FxEvent Rate))
    (hrun : (service cfg).Every Clocked (FxState.start rows clock) run) :
    (∀ a ∈ (service cfg).outputs (FxState.start rows clock) run, a.Recent cfg) ↔
      (service cfg).Every (KeepsUp cfg) (FxState.start rows clock) run :=
  Machine.outputs_iff_every fxInv_step step_recent_iff (fxInv_start rows clock) hrun

/-! ## Two ways to an old rate -/

/-- Both currencies are read on day 100. On day 110 the page's USD jumps out of the band while its
EUR passes: the refresh succeeds, and the ten days old USD is returned. -/
def droppedCurrency : List (FxEvent Nat) :=
  [.call 1 "USD" (afternoon 100),
   .landed (pageAt (afternoon 100) [("USD", 70000), ("EUR", 80000)] (some 100)) (afternoon 100),
   .call 2 "USD" (afternoon 110),
   .landed (pageAt (afternoon 110) [("USD", 90000), ("EUR", 81000)] (some 110)) (afternoon 110)]

/-- The page shows tomorrow's rate, and the only stored row is a hundred days old. -/
def oldRow : List (FxEvent Nat) := earlyPage (afternoon 100)

theorem old_rates_returned :
    ((service defaultConfig).Every Clocked (FxState.start [] (afternoon 100)) droppedCurrency ∧
      ¬∀ a ∈ (service defaultConfig).outputs (FxState.start [] (afternoon 100)) droppedCurrency,
        a.Recent defaultConfig) ∧
    ((service defaultConfig).Every Clocked
        (FxState.start [⟨"BCV", "USD", 75000, 0⟩] (afternoon 100)) oldRow ∧
      ¬∀ a ∈ (service defaultConfig).outputs
        (FxState.start [⟨"BCV", "USD", 75000, 0⟩] (afternoon 100)) oldRow,
        a.Recent defaultConfig) := by
  decide

/-- With a row of day 96 in the history, the call that waits for tomorrow's rate is answered with a
recent one. -/
theorem recent_row_returned :
    ((service defaultConfig).outputs
      (FxState.start [⟨"BCV", "USD", 75000, 96⟩] (afternoon 100)) oldRow).length = 1 ∧
    ∀ a ∈ (service defaultConfig).outputs
      (FxState.start [⟨"BCV", "USD", 75000, 96⟩] (afternoon 100)) oldRow, a.Recent defaultConfig :=
  ⟨by decide, (answers_recent_iff _ _ _ (by decide)).mpr (by decide)⟩

end Splite.Fx
