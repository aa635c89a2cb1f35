import Splite.Lib.Machine

/-!
# Exchange rates (`services/fx.js`)

`getRateFor` as a machine. A call is answered at once, or waits for the one page fetch in flight,
or waits for its history query; between these points anything else can happen. The clock of every
event is an input, and so are the answers of the BCV and whatever else writes `fx_rates`.

A value date is the number of its calendar day; the code compares ISO dates as strings, which is
the same order. The guards on a figure are parameters, so nothing depends on floating point.
-/

namespace Splite.Fx

/-- A calendar day, counted from 1970-01-01. -/
abbrev Day := Int

/-- `caracasToday(now)`: Venezuela is UTC-04:00 year round. -/
def caracasToday (now : Int) : Day := (now - 14400000) / 86400000

theorem caracasToday_mono {t t' : Int} (h : t ≤ t') : caracasToday t ≤ caracasToday t' :=
  Int.ediv_le_ediv (by decide) (by omega)

/-- `config.fx`; `withinBand baseline rate` is the comparison of `withinDeviationBand`. -/
structure FxConfig (Rate : Type) where
  enabled : Bool
  url : String
  source : String
  ttlMs : Int
  maxFallbackAgeDays : Int
  withinAbsoluteBounds : Rate → Bool
  withinBand : (baseline rate : Rate) → Bool

/-- Where a returned number was taken from. -/
inductive Origin where
  | identity
  | page
  | history
  deriving DecidableEq, Repr

/-- `{ rate, source, valueDate, fetchedAt }`. -/
structure Quote (Rate : Type) where
  rate : Rate
  source : String
  valueDate : Option Day
  fetchedAt : Int
  origin : Origin
  deriving DecidableEq, Repr

/-- A row of `fx_rates` with quote `VES`. -/
structure FxRow (Rate : Type) where
  source : String
  base : String
  rate : Rate
  valueDate : Day
  deriving DecidableEq, Repr

/-- Why the stored history is asked. -/
inductive Reason where
  | fetchFailed
  | rejectedByGuard
  | notYetInForce
  deriving DecidableEq, Repr

/-- What a call of `getRateFor` is waiting for. -/
inductive Phase (Rate : Type) where
  /-- `await inFlight`. -/
  | flight
  /-- The history query, which has not run yet. -/
  | history (reason : Reason)
  /-- The answer of the history query: its row if it found one, or its failure. -/
  | read (reason : Reason) (row : Option (FxRow Rate))
  deriving DecidableEq, Repr

structure Call (Rate : Type) where
  id : Nat
  currency : String
  phase : Phase Rate
  deriving DecidableEq, Repr

/-- The module's variables, the table, the calls under way, and the time of the last event. -/
structure FxState (Rate : Type) where
  caches : String → Option (Quote Rate)
  lastGood : String → Option Rate
  inFlight : Bool
  baselineLoaded : Bool
  fxRates : List (FxRow Rate)
  calls : List (Call Rate)
  clock : Int

/-- What one page fetch meets: whether the baseline query works, the page (`none` when the fetch
throws), the clock and the success of the write at each currency. -/
structure Flight (Rate : Type) where
  baselines : Bool
  page : Option (List (String × Rate) × Option Day)
  stamp : String → Int
  persisted : String → Bool

inductive FxEvent (Rate : Type) where
  | call (id : Nat) (currency : String) (now : Int)
  | landed (flight : Flight Rate) (now : Int)
  | queried (id : Nat) (ok : Bool) (now : Int)
  | answered (id : Nat) (now : Int)
  | stored (rows : List (FxRow Rate)) (now : Int)

def FxEvent.now {Rate : Type} : FxEvent Rate → Int
  | .call _ _ now | .landed _ now | .queried _ _ now | .answered _ now | .stored _ now => now

/-- What a call of `getRateFor` returned, and when. -/
structure Answer (Rate : Type) where
  id : Nat
  currency : String
  now : Int
  quote : Option (Quote Rate)
  deriving DecidableEq, Repr

def SUPPORTED : List String := ["USD", "EUR"]

section Service

variable {Rate : Type} (cfg : FxConfig Rate)

/-- `isInForce(valueDate, now)`. -/
def isInForce (valueDate : Option Day) (now : Int) : Bool :=
  match valueDate with
  | none => true
  | some day => day ≤ caracasToday now

/-- `withinDeviationBand(currency, rate)`. -/
def withinDeviationBand (lastGood : String → Option Rate) (currency : String) (rate : Rate) : Bool :=
  match lastGood currency with
  | none => true
  | some baseline => cfg.withinBand baseline rate

/-- `ORDER BY value_date DESC LIMIT 1`. -/
def newest : List (FxRow Rate) → Option (FxRow Rate)
  | [] => none
  | row :: rows =>
    match newest rows with
    | none => some row
    | some row' => if row'.valueDate > row.valueDate then some row' else some row

/-- `loadBaselines()`: the newest stored rate of every currency, once per process. -/
def loadBaselines (ok loaded : Bool) (rows : List (FxRow Rate)) (lastGood : String → Option Rate) :
    String → Option Rate :=
  if loaded then lastGood
  else if ok then fun currency =>
    match newest (rows.filter fun row => row.base = currency) with
    | some row => some row.rate
    | none => lastGood currency
  else lastGood

/-- `persist`: an upsert on `(source, base, value_date)`; the column `value_date` refuses a null. -/
def persist (rows : List (FxRow Rate)) (currency : String) (rate : Rate) (source : String)
    (valueDate : Option Day) : List (FxRow Rate) :=
  match valueDate with
  | none => rows
  | some day =>
    rows.filter (fun row => !(row.source = source && row.base = currency && row.valueDate = day)) ++
      [{ source, base := currency, rate, valueDate := day }]

/-- The variables of the loop in `refreshAll`. -/
structure Refresh (Rate : Type) where
  lastGood : String → Option Rate
  fxRates : List (FxRow Rate)
  accepted : String → Option (Quote Rate)

/-- The body of the loop in `refreshAll`. -/
def acceptRate (flight : Flight Rate) (valueDate : Option Day) (r : Refresh Rate)
    (entry : String × Rate) : Refresh Rate :=
  let (currency, rate) := entry
  if currency ∉ SUPPORTED then r
  else if !cfg.withinAbsoluteBounds rate then r
  else if !withinDeviationBand cfg r.lastGood currency rate then r
  else
    { lastGood := fun c => if c = currency then some rate else r.lastGood c
      fxRates :=
        if flight.persisted currency then persist r.fxRates currency rate cfg.source valueDate
        else r.fxRates
      accepted := fun c =>
        if c = currency then
          some { rate, source := cfg.source, valueDate, fetchedAt := flight.stamp currency,
                 origin := .page }
        else r.accepted c }

/-- `refreshAll()`; `none` when it throws. -/
def refreshAll (flight : Flight Rate) (lastGood : String → Option Rate)
    (fxRates : List (FxRow Rate)) : Option (Refresh Rate) :=
  match flight.page with
  | none => none
  | some (rates, valueDate) =>
    let r := rates.foldl (acceptRate cfg flight valueDate)
      { lastGood, fxRates, accepted := fun _ => none }
    if SUPPORTED.all fun c => (r.accepted c).isNone then none else some r

/-- The entry of the memory cache that answers a call, if there is one. -/
def cacheHit (s : FxState Rate) (currency : String) (now : Int) : Option (Quote Rate) :=
  (s.caches currency).filter fun cached => now - cached.fetchedAt < cfg.ttlMs

/-- What `getRateFor` does next: return, or wait. -/
inductive Outcome (Rate : Type) where
  | done (quote : Option (Quote Rate))
  | wait (phase : Phase Rate)

/-- `getRateFor` up to its first `await`. -/
def getRateFor [One Rate] (s : FxState Rate) (currency : String) (now : Int) : Outcome Rate :=
  if currency = "VES" then
    .done (some { rate := 1, source := "IDENTITY", valueDate := none, fetchedAt := now,
                  origin := .identity })
  else if !cfg.enabled || cfg.url = "" then .done none
  else if currency ∉ SUPPORTED then .done none
  else match cacheHit cfg s currency now with
    | some cached => .done (some cached)
    | none => .wait .flight

/-- `getRateFor` after `await inFlight`. -/
def afterFlight (landed : Bool) (caches : String → Option (Quote Rate)) (currency : String)
    (now : Int) : Outcome Rate :=
  if !landed then .wait (.history .fetchFailed)
  else match caches currency with
    | none => .wait (.history .rejectedByGuard)
    | some fresh =>
      if isInForce fresh.valueDate now then .done (some fresh)
      else .wait (.history .notYetInForce)

/-- The query of `inForceFromHistory(currency)`. -/
def inForceRow (rows : List (FxRow Rate)) (currency : String) (now : Int) : Option (FxRow Rate) :=
  newest (rows.filter fun row => row.base = currency && row.valueDate ≤ caracasToday now)

/-- The result of `inForceFromHistory`. -/
def fromHistory (row : FxRow Rate) (now : Int) : Quote Rate where
  rate := row.rate
  source := row.source
  valueDate := some row.valueDate
  fetchedAt := now
  origin := .history

/-- `getRateFor` after the history query: `lastInForce`, or the last lines of `getRateFor`. -/
def afterHistory (reason : Reason) (row : Option (FxRow Rate)) (now : Int) : Option (Quote Rate) :=
  match row with
  | none => none
  | some row =>
    match reason with
    | .notYetInForce => some (fromHistory row now)
    | .fetchFailed | .rejectedByGuard =>
      let ageDays := caracasToday now - row.valueDate
      if ageDays > cfg.maxFallbackAgeDays then none
      else
        some { fromHistory row now with
          source := String.ofList ((row.source ++ "_LAST_IN_FORCE").toList.take 40) }

/-- A call that waited for the flight, when the flight has ended. -/
def resume (landed : Bool) (caches : String → Option (Quote Rate)) (now : Int) (c : Call Rate) :
    Call Rate ⊕ Answer Rate :=
  match c.phase with
  | .flight =>
    match afterFlight landed caches c.currency now with
    | .done quote => .inr { id := c.id, currency := c.currency, now, quote }
    | .wait phase => .inl { c with phase }
  | _ => .inl c

/-- The calls that wait on, and the answers. -/
def resumeAll (landed : Bool) (caches : String → Option (Quote Rate)) (now : Int)
    (calls : List (Call Rate)) : List (Call Rate) × List (Answer Rate) :=
  (calls.filterMap fun c => (resume landed caches now c).getLeft?,
    calls.filterMap fun c => (resume landed caches now c).getRight?)

/-- What the flight in flight gets from the page. -/
def refreshed (flight : Flight Rate) (s : FxState Rate) : Option (Refresh Rate) :=
  refreshAll cfg flight (loadBaselines flight.baselines s.baselineLoaded s.fxRates s.lastGood)
    s.fxRates

/-- The flight ends: every waiting call goes on in the same turn of the event loop. -/
def land (flight : Flight Rate) (now : Int) (s : FxState Rate) :
    FxState Rate × List (Answer Rate) :=
  match refreshed cfg flight s with
  | none =>
    let lastGood := loadBaselines flight.baselines s.baselineLoaded s.fxRates s.lastGood
    let (calls, answers) := resumeAll false s.caches now s.calls
    ({ s with inFlight := false, baselineLoaded := true, lastGood, calls }, answers)
  | some r =>
    let caches := fun c => (r.accepted c).or (s.caches c)
    let (calls, answers) := resumeAll true caches now s.calls
    ({ s with inFlight := false, baselineLoaded := true, caches, lastGood := r.lastGood,
              fxRates := r.fxRates, calls }, answers)

/-- The history query of call `id` runs. -/
def query (id : Nat) (ok : Bool) (now : Int) (rows : List (FxRow Rate)) (c : Call Rate) :
    Call Rate :=
  match c.phase with
  | .history reason =>
    if c.id = id then
      { c with phase := .read reason (if ok then inForceRow rows c.currency now else none) }
    else c
  | _ => c

/-- The answer of call `id`, once its history query has run. -/
def finish (id : Nat) (now : Int) (c : Call Rate) : Option (Answer Rate) :=
  match c.phase with
  | .read reason row =>
    if c.id = id then
      some { id, currency := c.currency, now, quote := afterHistory cfg reason row now }
    else none
  | _ => none

def fxStep [One Rate] (s : FxState Rate) (e : FxEvent Rate) : FxState Rate × List (Answer Rate) :=
  let s := { s with clock := e.now }
  match e with
  | .call id currency now =>
    match getRateFor cfg s currency now with
    | .done quote => (s, [{ id, currency, now, quote }])
    | .wait phase => ({ s with inFlight := true, calls := s.calls ++ [{ id, currency, phase }] }, [])
  | .landed flight now => if s.inFlight then land cfg flight now s else (s, [])
  | .queried id ok now => ({ s with calls := s.calls.map (query id ok now s.fxRates) }, [])
  | .answered id now =>
    ({ s with calls := s.calls.filter fun c => (finish cfg id now c).isNone },
      s.calls.filterMap (finish cfg id now))
  | .stored rows _ => ({ s with fxRates := rows }, [])

/-- The service as a machine. -/
def service [One Rate] : Machine (FxState Rate) (FxEvent Rate) (Answer Rate) := ⟨fxStep cfg⟩

/-- A process that has just started, over any stored rates. -/
def FxState.start (rows : List (FxRow Rate)) (clock : Int) : FxState Rate where
  caches := fun _ => none
  lastGood := fun _ => none
  inFlight := false
  baselineLoaded := false
  fxRates := rows
  calls := []
  clock := clock

/-- The clock does not go back, and what is stamped has been stamped. -/
def Clocked (s : FxState Rate) (e : FxEvent Rate) : Prop :=
  s.clock ≤ e.now ∧
    match e with
    | .landed flight now => ∀ c ∈ SUPPORTED, flight.stamp c ≤ now
    | _ => True

instance (s : FxState Rate) (e : FxEvent Rate) : Decidable (Clocked s e) := by
  unfold Clocked
  cases e <;> exact inferInstanceAs (Decidable (_ ∧ _))

end Service

/-! ## What holds of every state -/

/-- The calls that wait are for supported currencies; a row read from the history had come into
force; a cached entry came from the page, at a time that has passed. -/
structure FxInv {Rate : Type} (s : FxState Rate) : Prop where
  supported : ∀ c ∈ s.calls, c.currency ∈ SUPPORTED
  row_in_force : ∀ c ∈ s.calls, ∀ reason row, c.phase = .read reason (some row) →
    row.valueDate ≤ caracasToday s.clock
  cached : ∀ c q, s.caches c = some q → q.origin = .page ∧ q.fetchedAt ≤ s.clock

section Invariant

variable {Rate : Type} {cfg : FxConfig Rate} {s : FxState Rate}

theorem newest_mem : ∀ {rows : List (FxRow Rate)} {row : FxRow Rate},
    newest rows = some row → row ∈ rows
  | [], _, h => by simp [newest] at h
  | r :: rows, row, h => by
    simp only [newest] at h
    split at h
    · simp_all
    · rename_i row' hrow
      have := newest_mem hrow
      split at h <;> cases h
      · exact List.mem_cons_of_mem _ this
      · exact List.mem_cons_self

theorem inForceRow_le {rows : List (FxRow Rate)} {currency : String} {now : Int} {row : FxRow Rate}
    (h : inForceRow rows currency now = some row) : row.valueDate ≤ caracasToday now := by
  have := newest_mem h
  simp only [List.mem_filter, Bool.and_eq_true, decide_eq_true_eq] at this
  exact this.2.2

/-- What the loop of `refreshAll` accepts carries the stamp of its currency. -/
theorem refreshed_accepted {flight : Flight Rate} {r : Refresh Rate}
    (h : refreshed cfg flight s = some r) {c : String} {q : Quote Rate}
    (hq : r.accepted c = some q) :
    c ∈ SUPPORTED ∧ q.origin = .page ∧ q.fetchedAt = flight.stamp c := by
  unfold refreshed refreshAll at h
  split at h
  · cases h
  rename_i rates valueDate hpage
  simp only at h
  split at h <;> cases h
  -- The accepted entries of the loop, from none.
  have key : ∀ (rates : List (String × Rate)) (r₀ : Refresh Rate),
      (∀ q, r₀.accepted c = some q → c ∈ SUPPORTED ∧ q.origin = .page ∧ q.fetchedAt = flight.stamp c) →
      ∀ q, (rates.foldl (acceptRate cfg flight valueDate) r₀).accepted c = some q →
        c ∈ SUPPORTED ∧ q.origin = .page ∧ q.fetchedAt = flight.stamp c := by
    intro rates
    induction rates with
    | nil => exact fun r₀ h => h
    | cons entry rates ih =>
      intro r₀ h₀
      refine ih _ fun q hq => ?_
      obtain ⟨currency, rate⟩ := entry
      unfold acceptRate at hq
      simp only at hq
      split at hq
      · exact h₀ q hq
      rename_i hsup
      split at hq
      · exact h₀ q hq
      split at hq
      · exact h₀ q hq
      simp only at hq
      split at hq
      · rename_i hc
        cases hq
        subst hc
        exact ⟨not_not.mp hsup, rfl, rfl⟩
      · exact h₀ q hq
  exact key rates _ (fun q hq => by simp at hq) q hq

/-- A call that waits on keeps its currency and has read nothing in this step. -/
theorem resume_left {landed : Bool} {caches : String → Option (Quote Rate)} {now : Int}
    {c c' : Call Rate} (h : resume landed caches now c = .inl c') :
    c'.currency = c.currency ∧ (c' = c ∨ ∃ reason, c'.phase = .history reason) := by
  unfold resume at h
  split at h
  · unfold afterFlight at h
    split at h
    · rename_i hd
      split at hd
      · cases hd
      · split at hd
        · cases hd
        · split at hd <;> cases hd
          cases h
    · rename_i phase hw
      cases h
      refine ⟨rfl, .inr ?_⟩
      split at hw
      · cases hw; exact ⟨_, rfl⟩
      · split at hw
        · cases hw; exact ⟨_, rfl⟩
        · split at hw <;> cases hw
          exact ⟨_, rfl⟩
  · cases h
    exact ⟨rfl, .inl rfl⟩

theorem getRateFor_wait [One Rate] {currency : String} {now : Int} {phase : Phase Rate}
    (h : getRateFor cfg s currency now = .wait phase) : currency ∈ SUPPORTED ∧ phase = .flight := by
  unfold getRateFor at h
  split at h
  · cases h
  split at h
  · cases h
  split at h
  · cases h
  rename_i hsup
  split at h <;> cases h
  exact ⟨not_not.mp hsup, rfl⟩

theorem FxInv.later (h : FxInv s) {now : Int} (hle : s.clock ≤ now) :
    FxInv { s with clock := now } where
  supported := h.supported
  row_in_force := fun c hc reason row hp =>
    (h.row_in_force c hc reason row hp).trans (caracasToday_mono hle)
  cached := fun c q hq => ⟨(h.cached c q hq).1, (h.cached c q hq).2.trans hle⟩

/-- After a flight: the calls that wait on, over caches of pages whose stamps have passed. -/
theorem FxInv.resumed (h : FxInv s) (landed : Bool) (t : FxState Rate)
    (hclock : t.clock = s.clock)
    (hcalls : t.calls = (resumeAll landed t.caches s.clock s.calls).1)
    (hcaches : ∀ c q, t.caches c = some q → q.origin = .page ∧ q.fetchedAt ≤ s.clock) :
    FxInv t := by
  have hleft : ∀ c' ∈ t.calls, ∃ c ∈ s.calls, resume landed t.caches s.clock c = .inl c' := by
    intro c' hc'
    rw [hcalls] at hc'
    obtain ⟨c, hc, hl⟩ := List.mem_filterMap.mp hc'
    exact ⟨c, hc, by simpa [Sum.getLeft?_eq_some_iff] using hl⟩
  refine ⟨fun c' hc' => ?_, fun c' hc' reason row hp => ?_, by rwa [hclock]⟩
  · obtain ⟨c, hc, hl⟩ := hleft c' hc'
    rw [(resume_left hl).1]
    exact h.supported c hc
  · obtain ⟨c, hc, hl⟩ := hleft c' hc'
    rw [hclock]
    rcases (resume_left hl).2 with rfl | ⟨reason', hr⟩
    · exact h.row_in_force _ hc reason row hp
    · rw [hr] at hp; cases hp

theorem FxInv.land (h : FxInv s) (flight : Flight Rate)
    (hstamp : ∀ c ∈ SUPPORTED, flight.stamp c ≤ s.clock) :
    FxInv (land cfg flight s.clock s).1 := by
  unfold Fx.land
  split
  · exact h.resumed false _ rfl rfl h.cached
  · rename_i r hr
    refine h.resumed true _ rfl rfl fun c q hq => ?_
    rcases Option.or_eq_some_iff.mp hq with hq | ⟨-, hq⟩
    · obtain ⟨hs, ho, hf⟩ := refreshed_accepted hr hq
      exact ⟨ho, hf ▸ hstamp c hs⟩
    · exact h.cached c q hq

theorem query_phase {id : Nat} {ok : Bool} {now : Int} {rows : List (FxRow Rate)} {c : Call Rate} :
    (query id ok now rows c).currency = c.currency ∧
      ∀ reason row, (query id ok now rows c).phase = .read reason (some row) →
        c.phase = .read reason (some row) ∨ row.valueDate ≤ caracasToday now := by
  unfold query
  split
  · split
    · refine ⟨rfl, fun reason row hp => .inr ?_⟩
      simp only [Phase.read.injEq] at hp
      obtain ⟨-, hrow⟩ := hp
      split at hrow
      · exact inForceRow_le hrow
      · cases hrow
    · exact ⟨rfl, fun reason row hp => .inl hp⟩
  · exact ⟨rfl, fun reason row hp => .inl hp⟩

/-- Every event keeps the invariant. -/
theorem fxInv_step [One Rate] (s : FxState Rate) (e : FxEvent Rate) (h : FxInv s)
    (hc : Clocked s e) : FxInv ((service cfg).step s e).1 := by
  have h' := h.later hc.1
  cases e with
  | call id currency now =>
    simp only [service, fxStep]
    split
    · exact h'
    · rename_i phase hw
      obtain ⟨hsup, rfl⟩ := getRateFor_wait hw
      refine ⟨fun c hm => ?_, fun c hm reason row hp => ?_, h'.cached⟩
      · rcases List.mem_append.mp hm with hm | hm
        · exact h'.supported c hm
        · rw [List.mem_singleton.mp hm]; exact hsup
      · rcases List.mem_append.mp hm with hm | hm
        · exact h'.row_in_force c hm reason row hp
        · rw [List.mem_singleton.mp hm] at hp; cases hp
  | landed flight now =>
    simp only [service, fxStep]
    split
    · exact h'.land flight hc.2
    · exact h'
  | queried id ok now =>
    refine ⟨fun c hm => ?_, fun c hm reason row hp => ?_, h'.cached⟩
    · obtain ⟨c₀, hc₀, rfl⟩ := List.mem_map.mp hm
      rw [query_phase.1]
      exact h'.supported c₀ hc₀
    · obtain ⟨c₀, hc₀, rfl⟩ := List.mem_map.mp hm
      rcases query_phase.2 reason row hp with hp | hle
      · exact h'.row_in_force c₀ hc₀ reason row hp
      · exact hle
  | answered id now =>
    exact ⟨fun c hm => h'.supported c (List.mem_filter.mp hm).1,
      fun c hm => h'.row_in_force c (List.mem_filter.mp hm).1, h'.cached⟩
  | stored rows now => exact ⟨h'.supported, h'.row_in_force, h'.cached⟩

theorem fxInv_start (rows : List (FxRow Rate)) (clock : Int) : FxInv (FxState.start rows clock) :=
  ⟨by simp [FxState.start], by simp [FxState.start], by simp [FxState.start]⟩

end Invariant

/-! ## What is answered -/

section Answers

variable {Rate : Type} [One Rate] {cfg : FxConfig Rate} {s : FxState Rate} {a : Answer Rate}

/-- A call for `currency` gets as far as the memory cache. -/
def ReadsCache (cfg : FxConfig Rate) (currency : String) : Prop :=
  currency ≠ "VES" ∧ cfg.enabled = true ∧ cfg.url ≠ "" ∧ currency ∈ SUPPORTED

instance (cfg : FxConfig Rate) (currency : String) : Decidable (ReadsCache cfg currency) :=
  inferInstanceAs (Decidable (_ ∧ _))

/-- The figure in memory once `flight` has landed, unless it threw: what the refresh accepted, or
else what was there. -/
def inMemory (cfg : FxConfig Rate) (flight : Flight Rate) (s : FxState Rate) (currency : String) :
    Option (Quote Rate) :=
  match refreshed cfg flight s with
  | none => none
  | some r => (r.accepted currency).or (s.caches currency)

omit [One Rate] in
theorem isInForce_iff {valueDate : Option Day} {now : Int} :
    isInForce valueDate now = true ↔ ∀ day, valueDate = some day → day ≤ caracasToday now := by
  cases valueDate <;> simp [isInForce]

/-- A call that returns at once returns the identity, nothing, or the cached entry. -/
theorem getRateFor_done {currency : String} {now : Int} {quote : Option (Quote Rate)} :
    getRateFor cfg s currency now = .done quote ↔
      (currency = "VES" ∧ quote = some ⟨1, "IDENTITY", none, now, .identity⟩) ∨
      (currency ≠ "VES" ∧ ¬ReadsCache cfg currency ∧ quote = none) ∨
      (ReadsCache cfg currency ∧ ∃ q, cacheHit cfg s currency now = some q ∧ quote = some q) := by
  unfold getRateFor ReadsCache
  by_cases hves : currency = "VES"
  · simp [hves, @eq_comm _ _ quote]
  by_cases hoff : cfg.enabled = true ∧ cfg.url ≠ ""
  · by_cases hsup : currency ∈ SUPPORTED
    · cases hhit : cacheHit cfg s currency now <;> simp [hves, hoff, hsup, @eq_comm _ _ quote]
    · simp [hves, hoff, hsup, @eq_comm _ _ quote]
  · have : (!cfg.enabled || decide (cfg.url = "")) = true := by
      by_contra hn
      simp only [Bool.or_eq_true, Bool.not_eq_true', decide_eq_true_eq, not_or] at hn
      exact hoff ⟨by simpa using hn.1, hn.2⟩
    simp only [hves, this, if_false, if_true, Outcome.done.injEq]
    constructor
    · rintro rfl
      exact .inr (.inl ⟨hves, fun h => hoff ⟨h.2.1, h.2.2.1⟩, rfl⟩)
    · rintro (⟨h, -⟩ | ⟨-, -, rfl⟩ | ⟨h, -⟩)
      · exact h.elim
      · rfl
      · exact absurd ⟨h.2.1, h.2.2.1⟩ hoff

theorem mem_call {id : Nat} {currency : String} {now : Int} :
    a ∈ ((service cfg).step s (.call id currency now)).2 ↔
      ∃ quote, getRateFor cfg s currency now = .done quote ∧ a = ⟨id, currency, now, quote⟩ := by
  have hclock : getRateFor cfg { s with clock := now } currency now =
      getRateFor cfg s currency now := rfl
  simp only [service, fxStep, FxEvent.now, hclock]
  cases getRateFor cfg s currency now <;> simp

omit [One Rate] in
theorem resume_right {landed : Bool} {caches : String → Option (Quote Rate)} {now : Int}
    {c : Call Rate} : resume landed caches now c = .inr a ↔
      c.phase = .flight ∧ landed = true ∧
        ∃ q, caches c.currency = some q ∧ isInForce q.valueDate now = true ∧
          a = ⟨c.id, c.currency, now, some q⟩ := by
  unfold resume
  cases hp : c.phase with
  | flight =>
    unfold afterFlight
    cases landed with
    | false => simp
    | true =>
      cases hq : caches c.currency with
      | none => simp
      | some q => by_cases hf : isInForce q.valueDate now = true <;> simp [hf, @eq_comm _ _ a]
  | history reason => simp
  | read reason row => simp

omit [One Rate] in
theorem mem_resumeAll {landed : Bool} {caches : String → Option (Quote Rate)} {now : Int}
    {calls : List (Call Rate)} : a ∈ (resumeAll landed caches now calls).2 ↔
      landed = true ∧ ∃ c ∈ calls, c.phase = .flight ∧
        ∃ q, caches c.currency = some q ∧ isInForce q.valueDate now = true ∧
          a = ⟨c.id, c.currency, now, some q⟩ := by
  simp only [resumeAll, List.mem_filterMap, Sum.getRight?_eq_some_iff, resume_right]
  constructor
  · rintro ⟨c, hc, hp, hl, hq⟩
    exact ⟨hl, c, hc, hp, hq⟩
  · rintro ⟨hl, c, hc, hp, hq⟩
    exact ⟨c, hc, hp, hl, hq⟩

/-- When a flight lands, the calls that waited for it and find a figure in force return it. -/
theorem mem_landed {flight : Flight Rate} {now : Int} :
    a ∈ ((service cfg).step s (.landed flight now)).2 ↔ s.inFlight = true ∧
      ∃ c ∈ s.calls, c.phase = .flight ∧
        ∃ q, inMemory cfg flight s c.currency = some q ∧ isInForce q.valueDate now = true ∧
          a = ⟨c.id, c.currency, now, some q⟩ := by
  have hload : refreshed cfg flight { s with clock := now } = refreshed cfg flight s := rfl
  simp only [service, fxStep, FxEvent.now]
  cases hin : s.inFlight with
  | false => simp
  | true =>
    unfold Fx.land inMemory
    rw [← hin, hload]
    cases refreshed cfg flight s with
    | none => simp [mem_resumeAll, hin]
    | some r => simp only [hin, if_true, mem_resumeAll]

theorem mem_answered {id : Nat} {now : Int} :
    a ∈ ((service cfg).step s (.answered id now)).2 ↔
      ∃ c ∈ s.calls, c.id = id ∧ ∃ reason row, c.phase = .read reason row ∧
        a = ⟨id, c.currency, now, afterHistory cfg reason row now⟩ := by
  simp only [service, fxStep, List.mem_filterMap]
  refine exists_congr fun c => and_congr_right fun _ => ?_
  unfold finish
  cases c.phase with
  | read reason row => by_cases hid : c.id = id <;> simp [hid, @eq_comm _ _ a]
  | flight => simp
  | history reason => simp

theorem not_mem_queried {id : Nat} {ok : Bool} {now : Int} :
    a ∉ ((service cfg).step s (.queried id ok now)).2 := by
  simp [service, fxStep]

theorem not_mem_stored {rows : List (FxRow Rate)} {now : Int} :
    a ∉ ((service cfg).step s (.stored rows now)).2 := by
  simp [service, fxStep]

omit [One Rate] in
/-- The history answers with the row's own date, unless it refuses its age. -/
theorem afterHistory_some {reason : Reason} {row : Option (FxRow Rate)} {now : Int}
    {q : Quote Rate} (h : afterHistory cfg reason row now = some q) :
    ∃ r, row = some r ∧ q.valueDate = some r.valueDate ∧ q.origin = .history ∧
      (reason ≠ .notYetInForce → caracasToday now - r.valueDate ≤ cfg.maxFallbackAgeDays) := by
  unfold afterHistory at h
  cases row with
  | none => cases h
  | some r =>
    refine ⟨r, rfl, ?_⟩
    cases reason with
    | notYetInForce => cases h; exact ⟨rfl, rfl, fun hne => absurd rfl hne⟩
    | fetchFailed =>
      simp only at h
      split at h <;> cases h
      rename_i hage
      exact ⟨rfl, rfl, fun _ => not_lt.mp hage⟩
    | rejectedByGuard =>
      simp only at h
      split at h <;> cases h
      rename_i hage
      exact ⟨rfl, rfl, fun _ => not_lt.mp hage⟩

end Answers

end Splite.Fx
