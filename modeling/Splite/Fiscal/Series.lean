import Splite.Fiscal.Documents
import Splite.Lib.Interleave

/-!
# The series of a restaurant (`services/fiscalNumbering.js`)

Transactions that number documents of one restaurant, and `writeSeries`, statement by statement. A
counter is inserted or locked and stays so until its transaction ends; the series is read without a
lock.

* `numberingRule`: whatever happens to the series, what is committed is numbered without gaps.
* `numbers?_of_numbered`: a transaction commits the numbers that `allocate` takes from what is committed.
* `numbered_gaplessly`: the numbers of a series that nobody edits.
* `frozen_undisturbed`: when a series that is in use stays what its documents were numbered with.
-/

namespace Splite

namespace Numbering

/-- A document with its numbers, and the series that they are printed by. -/
structure Numbered where
  documentType : DocumentType
  series : FiscalSeries
  control : Correlative
  document : Correlative
  deriving DecidableEq, Repr

def Numbered.controlNumber (d : Numbered) : String :=
  format d.series.controlPrefix d.control d.series.padTo

def Numbered.documentNumber (d : Numbered) : String :=
  format d.series.documentPrefix d.document d.series.padTo

/-- What is committed of one restaurant: its series, its counters and its documents. -/
structure Book where
  series : Option FiscalSeries
  counters : String → Option Correlative
  documents : List Numbered

/-- A restaurant that has numbered nothing. -/
def Book.start (series : Option FiscalSeries) : Book := ⟨series, fun _ => none, []⟩

/-- Where a counter is; one that is not there yet begins at `startAt`. -/
def Book.nextValue (b : Book) (scope : String) (startAt : Correlative) : Correlative :=
  (b.counters scope).getD startAt

/-! ## The transaction of a document -/

/-- The next statement of the transaction of a document. -/
inductive NumberingPhase where
  /-- `SELECT … FROM fiscal_series`. -/
  | selectSeries
  /-- `INSERT INTO fiscal_counters …`, of the control numbers. -/
  | insertControl (series : FiscalSeries)
  /-- `SELECT next_value … FOR UPDATE`. -/
  | lockControl (series : FiscalSeries)
  | insertDocument (series : FiscalSeries) (control : Correlative)
  | lockDocument (series : FiscalSeries) (control : Correlative)
  /-- `UPDATE fiscal_counters …`. -/
  | bumpControl (series : FiscalSeries) (control document : Correlative)
  | bumpDocument (series : FiscalSeries) (control document : Correlative)
  /-- The rows of the document, and `COMMIT`. -/
  | numbered (series : FiscalSeries) (control document : Correlative)
  deriving DecidableEq, Repr

/-- A transaction that numbers a document, with the counters that it has written, which nobody else
sees, and the ones whose rows it has locked. -/
structure NumberingTx where
  documentType : DocumentType
  phase : NumberingPhase
  writes : String → Option Correlative
  locks : String → Bool

def NumberingTx.start (documentType : DocumentType) : NumberingTx :=
  ⟨documentType, .selectSeries, fun _ => none, fun _ => false⟩

namespace NumberingTx

def reaching (t : NumberingTx) (phase : NumberingPhase) : NumberingTx := { t with phase }

/-- The row of a counter is locked, as an insert and an update do too. -/
def lock (t : NumberingTx) (scope : String) : NumberingTx :=
  { t with locks := Function.update t.locks scope true }

def write (t : NumberingTx) (scope : String) (value : Correlative) : NumberingTx :=
  { t with writes := Function.update t.writes scope (some value) }

/-- What the transaction sees of a counter. -/
def sees (t : NumberingTx) (b : Book) (scope : String) : Option Correlative :=
  (t.writes scope).or (b.counters scope)

/-- What is committed when the transaction is. -/
def commit (t : NumberingTx) (b : Book) (d : Numbered) : Book :=
  { b with counters := t.sees b, documents := b.documents ++ [d] }

/-- `INSERT INTO fiscal_counters … ON CONFLICT DO NOTHING`, which waits for another transaction that
has inserted the row and not committed it. -/
def insertCounter (t : NumberingTx) (b : Book) (locked : String → Bool) (scope : String)
    (startAt : Correlative) (phase : NumberingPhase) : Advance Book NumberingTx Err :=
  if (b.counters scope).isSome then .goes b (t.reaching phase) []
  else if locked scope then .waits
  else .goes b (((t.write scope startAt).lock scope).reaching phase) []

/-- `SELECT next_value … FOR UPDATE`, and what depends on the value. -/
def lockCounter (t : NumberingTx) (b : Book) (locked : String → Bool) (scope : String)
    (rest : Correlative → Except Err NumberingPhase) : Advance Book NumberingTx Err :=
  if locked scope then .waits
  else
    match t.sees b scope with
    | none => .ends b [.error "Cannot read properties of undefined (reading 'next_value')"]
    | some value =>
      match rest value with
      | .ok phase => .goes b ((t.lock scope).reaching phase) []
      | .error err => .ends b [err]

theorem first_number : (1 : Int) ≤ 1 := le_rfl

/-- `allocate(client, { restaurantId, documentType })` and `COMMIT`, one statement. `locked` says of a
counter whether another transaction has locked it. -/
def next (b : Book) (locked : String → Bool) (t : NumberingTx) : Advance Book NumberingTx Err :=
  match t.phase with
  | .selectSeries =>
    match b.series with
    | some series => .goes b (t.reaching (.insertControl series)) []
    | none =>
      .ends b [.api .fiscalSeriesMissing
        "This restaurant has no authorised invoice series configured" []]
  | .insertControl series =>
    t.insertCounter b locked CONTROL series.controlFirst (.lockControl series)
  | .lockControl series =>
    t.lockCounter b locked CONTROL fun control =>
      if ∀ last ∈ series.controlLast, control.1 ≤ last then .ok (.insertDocument series control)
      else .error (.api .fiscalRangeExhausted "The authorised control-number range is exhausted"
        [("lastAuthorised", toString (series.controlLast.getD 0))])
  | .insertDocument series control =>
    t.insertCounter b locked t.documentType.text ⟨1, first_number⟩ (.lockDocument series control)
  | .lockDocument series control =>
    t.lockCounter b locked t.documentType.text fun document =>
      .ok (.bumpControl series control document)
  | .bumpControl series control document =>
    .goes b ((t.write CONTROL control.next).reaching (.bumpDocument series control document)) []
  | .bumpDocument series control document =>
    .goes b ((t.write t.documentType.text document.next).reaching (.numbered series control document)) []
  | .numbered series control document =>
    .ends (t.commit b ⟨t.documentType, series, control, document⟩) []

end NumberingTx

/-! ## `writeSeries` -/

/-- The names of the fields that a series in use does not let change, and that differ. -/
def frozenFields (current next : FiscalSeries) : List String :=
  [("controlPrefix", decide (next.controlPrefix ≠ current.controlPrefix)),
    ("documentPrefix", decide (next.documentPrefix ≠ current.documentPrefix)),
    ("padTo", decide (next.padTo ≠ current.padTo)),
    ("controlFirst", decide (next.controlFirst ≠ current.controlFirst))].filterMap
      fun (field, differs) => if differs then some field else none

/-- What `writeSeries` refuses the next series with, by what it has read. -/
def seriesLocked (current : Option FiscalSeries) (controlNext : Option Correlative)
    (next : FiscalSeries) : Option Err :=
  match current, controlNext with
  | some current, some controlNext =>
    if frozenFields current next ≠ [] then
      some (.api .fiscalSeriesLocked
        "These fields cannot change once the series has numbered a document"
        [("fields", ",".intercalate (frozenFields current next))])
    else if ∃ last ∈ next.controlLast, last < controlNext.1 - 1 then
      some (.api .fiscalSeriesLocked "controlLast is below a number already issued"
        [("lastIssued", toString (controlNext.1 - 1))])
    else none
  | _, _ => none

inductive SavingPhase where
  /-- `readSeries`, and what it decides. -/
  | read
  /-- `INSERT INTO fiscal_series … ON CONFLICT DO UPDATE`. -/
  | write
  /-- The row is written and locked; `COMMIT`. -/
  | written
  deriving DecidableEq, Repr

/-- A transaction of the restaurant: of a document, or of a form that its owner has sent. -/
inductive SeriesTx where
  | issuing (t : NumberingTx)
  | saving (next : FiscalSeries) (phase : SavingPhase)

def SeriesTx.locks : SeriesTx → String → Bool
  | .issuing t => t.locks
  | .saving _ _ => fun _ => false

/-- It has written the series and not committed it. -/
def SeriesTx.holdsSeries : SeriesTx → Bool
  | .saving _ .written => true
  | _ => false

/-- One statement, beside the other transactions. -/
def SeriesTx.next (b : Book) (others : List SeriesTx) : SeriesTx → Advance Book SeriesTx Err
  | .issuing t => (t.next b fun scope => others.any fun u => u.locks scope).map .issuing
  | .saving next .read =>
    match seriesLocked b.series (b.counters CONTROL) next with
    | some err => .ends b [err]
    | none => .goes b (.saving next .write) []
  | .saving next .write =>
    if others.any SeriesTx.holdsSeries then .waits else .goes b (.saving next .written) []
  | .saving next .written => .ends { b with series := some next } []

inductive SeriesCall where
  | issue (documentType : DocumentType)
  | save (next : FiscalSeries)

/-- The transactions of a restaurant about its series, which answer with what they throw. -/
def numbering : Protocol Book SeriesTx SeriesCall Err where
  start
    | .issue documentType => .issuing (.start documentType)
    | .save next => .saving next .read
  next := SeriesTx.next

/-! ## What a transaction of a document knows -/

/-- It sees the counter, where it is or where it begins. -/
def NumberingTx.Inserted (t : NumberingTx) (b : Book) (scope : String) (startAt : Correlative) : Prop :=
  t.sees b scope = some (b.nextValue scope startAt)

/-- It has locked the counter and read it. -/
def NumberingTx.Taken (t : NumberingTx) (b : Book) (scope : String) (startAt value : Correlative) :
    Prop :=
  t.locks scope = true ∧ b.nextValue scope startAt = value

/-- It has taken a control number of the series, one that is authorised. -/
def NumberingTx.Controls (t : NumberingTx) (b : Book) (series : FiscalSeries) (control : Correlative) :
    Prop :=
  t.Taken b CONTROL series.controlFirst control ∧ ∀ last ∈ series.controlLast, control.1 ≤ last

/-- What the transaction knows of the committed counters by its phase, when every series that it may
have read satisfies `P`. -/
structure NumberingTx.Sound (P : FiscalSeries → Prop) (b : Book) (t : NumberingTx) : Prop where
  locked : ∀ scope, (t.writes scope).isSome → t.locks scope = true
  other : ∀ scope, scope ≠ CONTROL → scope ≠ t.documentType.text → t.writes scope = none
  phase : match t.phase with
    | .selectSeries => ∀ scope, t.writes scope = none
    | .insertControl s => P s ∧ ∀ scope, t.writes scope = none
    | .lockControl s =>
      P s ∧ t.writes t.documentType.text = none ∧ t.Inserted b CONTROL s.controlFirst
    | .insertDocument s c => P s ∧ t.writes t.documentType.text = none ∧ t.Controls b s c
    | .lockDocument s c =>
      P s ∧ t.Controls b s c ∧ t.Inserted b t.documentType.text ⟨1, le_rfl⟩
    | .bumpControl s c d =>
      P s ∧ t.Controls b s c ∧ t.Taken b t.documentType.text ⟨1, le_rfl⟩ d
    | .bumpDocument s c d =>
      P s ∧ t.Controls b s c ∧ t.Taken b t.documentType.text ⟨1, le_rfl⟩ d ∧
        t.writes CONTROL = some c.next
    | .numbered s c d =>
      P s ∧ t.Controls b s c ∧ t.Taken b t.documentType.text ⟨1, le_rfl⟩ d ∧
        t.writes CONTROL = some c.next ∧ t.writes t.documentType.text = some d.next

section Statements

variable {P : FiscalSeries → Prop} {b b' : Book} {t t' : NumberingTx} {locked : String → Bool}
  {scope : String} {startAt : Correlative} {phase : NumberingPhase} {answer : List Err}

@[simp] theorem reaching_phase : (t.reaching phase).phase = phase := rfl
@[simp] theorem reaching_writes : (t.reaching phase).writes = t.writes := rfl
@[simp] theorem reaching_locks : (t.reaching phase).locks = t.locks := rfl
@[simp] theorem reaching_documentType : (t.reaching phase).documentType = t.documentType := rfl
@[simp] theorem lock_writes : (t.lock scope).writes = t.writes := rfl
@[simp] theorem lock_documentType : (t.lock scope).documentType = t.documentType := rfl
@[simp] theorem write_locks {v : Correlative} : (t.write scope v).locks = t.locks := rfl
@[simp] theorem write_documentType {v : Correlative} :
    (t.write scope v).documentType = t.documentType := rfl

theorem lock_locks {scope' : String} :
    (t.lock scope).locks scope' = true ↔ scope' = scope ∨ t.locks scope' = true := by
  unfold NumberingTx.lock
  by_cases h : scope' = scope
  · subst h
    simp
  · simp [h]

theorem lock_self (t : NumberingTx) (scope : String) : (t.lock scope).locks scope = true :=
  lock_locks.mpr (.inl rfl)

theorem write_writes {scope' : String} {v : Correlative} :
    (t.write scope v).writes scope' = if scope' = scope then some v else t.writes scope' := by
  unfold NumberingTx.write
  by_cases h : scope' = scope
  · subst h
    simp
  · simp [h]

/-- The insert of a counter leaves the transaction with the counter, its own one or a committed one. -/
theorem insertCounter_goes (h : t.insertCounter b locked scope startAt phase = .goes b' t' answer) :
    b' = b ∧ t'.phase = phase ∧ t'.documentType = t.documentType ∧
      ((t'.writes = t.writes ∧ t'.locks = t.locks ∧ (b.counters scope).isSome) ∨
        (locked scope = false ∧ b.counters scope = none ∧
          t' = ((t.write scope startAt).lock scope).reaching phase)) := by
  unfold NumberingTx.insertCounter at h
  split at h
  · rename_i hsome
    cases h
    exact ⟨rfl, rfl, rfl, .inl ⟨rfl, rfl, hsome⟩⟩
  · rename_i hnone
    split at h
    · cases h
    · rename_i hlocked
      cases h
      exact ⟨rfl, rfl, rfl, .inr ⟨by simpa using hlocked, by simpa using hnone, rfl⟩⟩

theorem insertCounter_ends (h : t.insertCounter b locked scope startAt phase = .ends b' answer) :
    False := by
  unfold NumberingTx.insertCounter at h
  split at h
  · cases h
  · split at h <;> cases h

theorem lockCounter_goes {rest : Correlative → Except Err NumberingPhase}
    (h : t.lockCounter b locked scope rest = .goes b' t' answer) :
    ∃ value phase, locked scope = false ∧ t.sees b scope = some value ∧ rest value = .ok phase ∧
      b' = b ∧ t' = (t.lock scope).reaching phase := by
  unfold NumberingTx.lockCounter at h
  split at h
  · cases h
  · rename_i hlocked
    split at h
    · cases h
    · rename_i value hsees
      split at h
      · rename_i phase hrest
        cases h
        exact ⟨value, phase, by simpa using hlocked, hsees, hrest, rfl, rfl⟩
      · cases h

theorem lockCounter_ends {rest : Correlative → Except Err NumberingPhase}
    (h : t.lockCounter b locked scope rest = .ends b' answer) : b' = b ∧ answer ≠ [] := by
  unfold NumberingTx.lockCounter at h
  split at h
  · cases h
  · split at h
    · cases h
      exact ⟨rfl, List.cons_ne_nil _ _⟩
    · split at h
      · cases h
      · cases h
        exact ⟨rfl, List.cons_ne_nil _ _⟩

/-- A transaction ends with an error and nothing committed, or with its document. -/
theorem next_ends (h : t.next b locked = .ends b' answer) :
    (b' = b ∧ answer ≠ []) ∨ ∃ s c d, t.phase = .numbered s c d ∧
      b' = t.commit b ⟨t.documentType, s, c, d⟩ ∧ answer = [] := by
  unfold NumberingTx.next at h
  split at h
  · split at h
    · cases h
    · cases h
      exact .inl ⟨rfl, List.cons_ne_nil _ _⟩
  · exact (insertCounter_ends h).elim
  · exact .inl (lockCounter_ends h)
  · exact (insertCounter_ends h).elim
  · exact .inl (lockCounter_ends h)
  · cases h
  · cases h
  · rename_i s c d hphase
    cases h
    exact .inr ⟨s, c, d, hphase, rfl, rfl⟩

/-- A transaction that goes on has committed nothing and locks only what nobody else does. -/
theorem next_locks (h : t.next b locked = .goes b' t' answer) :
    b' = b ∧ ∀ scope, t'.locks scope = true → t.locks scope = true ∨ locked scope = false := by
  have hinsert : ∀ {scope startAt phase}, t.insertCounter b locked scope startAt phase =
      .goes b' t' answer → b' = b ∧
        ∀ scope, t'.locks scope = true → t.locks scope = true ∨ locked scope = false := by
    intro scope startAt phase h
    obtain ⟨rfl, -, -, ⟨-, hlocks, -⟩ | ⟨hfree, -, rfl⟩⟩ := insertCounter_goes h
    · exact ⟨rfl, fun scope hs => .inl (hlocks ▸ hs)⟩
    · refine ⟨rfl, fun scope' hs => ?_⟩
      rcases lock_locks.mp hs with rfl | hs
      · exact .inr hfree
      · exact .inl hs
  have hlock : ∀ {scope rest}, t.lockCounter b locked scope rest = .goes b' t' answer → b' = b ∧
      ∀ scope, t'.locks scope = true → t.locks scope = true ∨ locked scope = false := by
    intro scope rest h
    obtain ⟨value, phase, hfree, -, -, rfl, rfl⟩ := lockCounter_goes h
    refine ⟨rfl, fun scope' hs => ?_⟩
    rcases lock_locks.mp hs with rfl | hs
    · exact .inr hfree
    · exact .inl hs
  unfold NumberingTx.next at h
  split at h
  · split at h
    · cases h
      exact ⟨rfl, fun _ hs => .inl hs⟩
    · cases h
  · exact hinsert h
  · exact hlock h
  · exact hinsert h
  · exact hlock h
  · cases h
    exact ⟨rfl, fun _ hs => .inl hs⟩
  · cases h
    exact ⟨rfl, fun _ hs => .inl hs⟩
  · cases h

/-- What another transaction commits leaves the counters that this one has locked, and takes none
away. -/
structure Book.Leaves (b b' : Book) (t : NumberingTx) : Prop where
  locked : ∀ scope, t.locks scope = true → b'.counters scope = b.counters scope
  kept : ∀ scope, (b.counters scope).isSome → (b'.counters scope).isSome

theorem NumberingTx.Taken.leaves {v : Correlative} (h : t.Taken b scope startAt v)
    (hb : b.Leaves b' t) : t.Taken b' scope startAt v :=
  ⟨h.1, by rw [← h.2, Book.nextValue, Book.nextValue, hb.locked scope h.1]⟩

theorem NumberingTx.Inserted.leaves (h : t.Inserted b scope startAt)
    (hlocked : (t.writes scope).isSome → t.locks scope = true) (hb : b.Leaves b' t) :
    t.Inserted b' scope startAt := by
  unfold NumberingTx.Inserted NumberingTx.sees Book.nextValue at *
  cases hw : t.writes scope with
  | some v =>
    rw [hb.locked scope (hlocked (by rw [hw]; rfl)), ← hw]
    exact h
  | none =>
    rw [hw, Option.none_or] at h
    obtain ⟨v, hv⟩ := Option.isSome_iff_exists.mp (hb.kept scope (by rw [h]; rfl))
    simp [hv]

theorem NumberingTx.Controls.leaves {s : FiscalSeries} {c : Correlative} (h : t.Controls b s c)
    (hb : b.Leaves b' t) : t.Controls b' s c :=
  ⟨h.1.leaves hb, h.2⟩

theorem NumberingTx.Sound.leaves (h : t.Sound P b) (hb : b.Leaves b' t) : t.Sound P b' := by
  refine ⟨h.locked, h.other, ?_⟩
  have hphase := h.phase
  split at hphase
  · exact hphase
  · exact hphase
  · exact ⟨hphase.1, hphase.2.1, hphase.2.2.leaves (h.locked _) hb⟩
  · exact ⟨hphase.1, hphase.2.1, hphase.2.2.leaves hb⟩
  · exact ⟨hphase.1, hphase.2.1.leaves hb, hphase.2.2.leaves (h.locked _) hb⟩
  · exact ⟨hphase.1, hphase.2.1.leaves hb, hphase.2.2.leaves hb⟩
  · exact ⟨hphase.1, hphase.2.1.leaves hb, hphase.2.2.1.leaves hb, hphase.2.2.2⟩
  · exact ⟨hphase.1, hphase.2.1.leaves hb, hphase.2.2.1.leaves hb, hphase.2.2.2⟩

theorem inserted_of_goes (hwrite : t.writes scope = none)
    (h : t.insertCounter b locked scope startAt phase = .goes b' t' answer) :
    t'.Inserted b scope startAt := by
  unfold NumberingTx.Inserted NumberingTx.sees Book.nextValue
  obtain ⟨-, -, -, ⟨hwrites, -, hsome⟩ | ⟨-, hnone, rfl⟩⟩ := insertCounter_goes h
  · obtain ⟨v, hv⟩ := Option.isSome_iff_exists.mp hsome
    rw [hwrites, hwrite, hv]
    rfl
  · rw [reaching_writes, lock_writes, write_writes, if_pos rfl, hnone]
    rfl

/-- After the insert of a counter the transaction has written that counter, or nothing more. -/
theorem writes_of_insert {scope' : String} (hne : scope' ≠ scope)
    (h : t.insertCounter b locked scope startAt phase = .goes b' t' answer) :
    t'.writes scope' = t.writes scope' := by
  obtain ⟨-, -, -, ⟨hwrites, -, -⟩ | ⟨-, -, rfl⟩⟩ := insertCounter_goes h
  · rw [hwrites]
  · rw [reaching_writes, lock_writes, write_writes, if_neg hne]

theorem locks_of_insert {scope' : String} (hlocks : t.locks scope' = true)
    (h : t.insertCounter b locked scope startAt phase = .goes b' t' answer) :
    t'.locks scope' = true := by
  obtain ⟨-, -, -, ⟨-, hsame, -⟩ | ⟨-, -, rfl⟩⟩ := insertCounter_goes h
  · rw [hsame, hlocks]
  · exact lock_locks.mpr (.inr hlocks)

theorem locked_of_insert (hlocked : ∀ scope, (t.writes scope).isSome → t.locks scope = true)
    (h : t.insertCounter b locked scope startAt phase = .goes b' t' answer) :
    ∀ scope, (t'.writes scope).isSome → t'.locks scope = true := by
  obtain ⟨-, -, -, ⟨hwrites, hlocks, -⟩ | ⟨-, -, rfl⟩⟩ := insertCounter_goes h
  · rwa [hwrites, hlocks]
  · intro scope' hs
    rw [reaching_writes, lock_writes, write_writes] at hs
    split at hs
    · rename_i heq
      exact lock_locks.mpr (.inl heq)
    · exact lock_locks.mpr (.inr (hlocked _ hs))

/-- What a transaction knows it knows after its next statement. -/
theorem NumberingTx.Sound.next (h : t.Sound P b) (hP : ∀ s ∈ b.series, P s)
    (hnext : t.next b locked = .goes b' t' answer) : t'.Sound P b := by
  have hphase := h.phase
  have hne := t.documentType.text_ne_control
  unfold NumberingTx.next at hnext
  cases hp : t.phase with
  | selectSeries =>
    simp only [hp] at hnext hphase
    split at hnext
    · rename_i series hseries
      cases hnext
      exact ⟨h.locked, h.other, hP series hseries, hphase⟩
    · cases hnext
  | insertControl series =>
    simp only [hp] at hnext hphase
    have hins := inserted_of_goes (hphase.2 _) hnext
    have hlocked := locked_of_insert h.locked hnext
    have hwrites : ∀ scope, scope ≠ CONTROL → t'.writes scope = none := fun scope hs =>
      (writes_of_insert hs hnext).trans (hphase.2 scope)
    obtain ⟨-, hp', htype, -⟩ := insertCounter_goes hnext
    refine ⟨hlocked, fun scope hs _ => hwrites scope hs, ?_⟩
    simp only [hp', htype]
    exact ⟨hphase.1, hwrites _ hne, hins⟩
  | lockControl series =>
    simp only [hp] at hnext hphase
    obtain ⟨value, phase, -, hsees, hrest, -, rfl⟩ := lockCounter_goes hnext
    split at hrest
    · rename_i hlast
      cases hrest
      obtain ⟨hseries, hwrites, hins⟩ := hphase
      have hvalue : value = b.nextValue CONTROL series.controlFirst :=
        Option.some.inj (hsees.symm.trans hins)
      exact ⟨fun scope hs => lock_locks.mpr (.inr (h.locked scope hs)), h.other, hseries, hwrites,
        ⟨lock_self t CONTROL, hvalue.symm⟩, hlast⟩
    · cases hrest
  | insertDocument series control =>
    simp only [hp] at hnext hphase
    obtain ⟨hseries, hwrites, ⟨hlock, hvalue⟩, hlast⟩ := hphase
    have hins := inserted_of_goes hwrites hnext
    have hlocked := locked_of_insert h.locked hnext
    have hlock' := locks_of_insert hlock hnext
    have hother : ∀ scope, scope ≠ t.documentType.text → t'.writes scope = t.writes scope :=
      fun scope hs => writes_of_insert hs hnext
    obtain ⟨-, hp', htype, -⟩ := insertCounter_goes hnext
    refine ⟨hlocked, fun scope hs hs' => ?_, ?_⟩
    · rw [htype] at hs'
      exact (hother scope hs').trans (h.other scope hs hs')
    · simp only [hp', htype]
      exact ⟨hseries, ⟨⟨hlock', hvalue⟩, hlast⟩, hins⟩
  | lockDocument series control =>
    simp only [hp] at hnext hphase
    obtain ⟨value, phase, -, hsees, hrest, -, rfl⟩ := lockCounter_goes hnext
    cases hrest
    obtain ⟨hseries, ⟨⟨hlock, hcontrol⟩, hlast⟩, hins⟩ := hphase
    have hvalue : value = b.nextValue t.documentType.text ⟨1, le_rfl⟩ :=
      Option.some.inj (hsees.symm.trans hins)
    exact ⟨fun scope hs => lock_locks.mpr (.inr (h.locked scope hs)), h.other, hseries,
      ⟨⟨lock_locks.mpr (.inr hlock), hcontrol⟩, hlast⟩, lock_self t _, hvalue.symm⟩
  | bumpControl series control document =>
    simp only [hp] at hnext hphase
    cases hnext
    obtain ⟨hseries, hcontrols, htaken⟩ := hphase
    refine ⟨fun scope hs => ?_, fun scope hs hs' => ?_, hseries, hcontrols, htaken, ?_⟩
    · rw [reaching_writes, write_writes] at hs
      split at hs
      · rename_i heq
        exact heq ▸ hcontrols.1.1
      · exact h.locked scope hs
    · rw [reaching_writes, write_writes, if_neg hs]
      exact h.other scope hs hs'
    · rw [reaching_writes, write_writes, if_pos rfl]
  | bumpDocument series control document =>
    simp only [hp] at hnext hphase
    cases hnext
    obtain ⟨hseries, hcontrols, htaken, hcontrol⟩ := hphase
    refine ⟨fun scope hs => ?_, fun scope hs hs' => ?_, hseries, hcontrols, htaken, ?_, ?_⟩
    · rw [reaching_writes, write_writes] at hs
      split at hs
      · rename_i heq
        exact heq ▸ htaken.1
      · exact h.locked scope hs
    · rw [reaching_writes, write_writes, if_neg (by exact hs')]
      exact h.other scope hs hs'
    · rw [reaching_writes, write_writes, if_neg hne.symm, hcontrol]
    · rw [reaching_documentType, write_documentType, reaching_writes, write_writes, if_pos rfl]
  | numbered series control document =>
    simp only [hp] at hnext
    cases hnext

end Statements

/-! ## Consecutive numbers -/

/-- The number that comes `n` after `first`. -/
def after (first : Correlative) (n : Nat) : Correlative := ⟨first.1 + n, by have := first.2; omega⟩

/-- `n` consecutive numbers. -/
def consecutive (first : Correlative) (n : Nat) : List Correlative := (List.range n).map (after first)

theorem after_injective (first : Correlative) : Function.Injective (after first) := by
  intro m n h
  have : first.1 + m = first.1 + n := congrArg Subtype.val h
  omega

theorem nodup_consecutive (first : Correlative) (n : Nat) : (consecutive first n).Nodup :=
  List.nodup_range.map (after_injective first)

theorem mem_consecutive {first c : Correlative} {n : Nat} :
    c ∈ consecutive first n ↔ first.1 ≤ c.1 ∧ c.1 < first.1 + n := by
  simp only [consecutive, List.mem_map, List.mem_range]
  constructor
  · rintro ⟨k, hk, rfl⟩
    simp only [after]
    omega
  · rintro ⟨hle, hlt⟩
    refine ⟨(c.1 - first.1).toNat, by omega, Subtype.ext ?_⟩
    simp only [after]
    omega

theorem consecutive_succ (first : Correlative) (n : Nat) :
    consecutive first (n + 1) = consecutive first n ++ [after first n] := by
  simp [consecutive, List.range_succ]

theorem after_next (first : Correlative) (n : Nat) : (after first n).next = after first (n + 1) := by
  refine Subtype.ext ?_
  simp only [Correlative.next, after]
  omega

/-- The numbers of a counter that have been used are consecutive, and the counter is after the last
one; it is there as soon as one has been used. -/
structure Counts (counter : Option Correlative) (first : Correlative) (used : List Correlative) :
    Prop where
  consecutive : used = consecutive first used.length
  next : counter = if used = [] then none else some (after first used.length)

/-- The next number is used, and counted. -/
theorem Counts.append {counter : Option Correlative} {first startAt v : Correlative}
    {used : List Correlative} (h : Counts counter first used) (hv : counter.getD startAt = v) :
    Counts (some v.next) (if used = [] then startAt else first) (used ++ [v]) := by
  have hnext := h.next
  by_cases hnil : used = []
  · subst hnil
    obtain rfl : startAt = v := by rw [← hv, hnext]; rfl
    have hzero : after startAt 0 = startAt := Subtype.ext (add_zero _)
    refine ⟨?_, ?_⟩
    · rw [if_pos rfl, List.nil_append, List.length_singleton, consecutive_succ, hzero]
      rfl
    · rw [if_neg (by simp), if_pos rfl, List.nil_append, List.length_singleton, ← after_next, hzero]
  · rw [if_neg hnil] at hnext
    obtain rfl : after first used.length = v := by rw [← hv, hnext]; rfl
    refine ⟨?_, ?_⟩
    · rw [if_neg hnil, List.length_append, List.length_singleton, consecutive_succ, ← h.consecutive]
    · rw [if_neg (by simp), if_neg hnil, List.length_append, List.length_singleton, after_next]

/-! ## What is committed -/

/-- The documents of one type, in the order in which they were committed. -/
def Book.ofType (b : Book) (documentType : DocumentType) : List Numbered :=
  b.documents.filter fun d => d.documentType = documentType

/-- The documents were numbered without gaps, by series that satisfy `P` and authorise them. -/
structure Book.Gapless (P : FiscalSeries → Prop) (b : Book) : Prop where
  series : ∀ s ∈ b.series, P s
  documents : ∀ d ∈ b.documents, P d.series ∧ ∀ last ∈ d.series.controlLast, d.control.1 ≤ last
  control : ∃ first, (b.documents ≠ [] → ∃ s, P s ∧ s.controlFirst = first) ∧
    Counts (b.counters CONTROL) first (b.documents.map (·.control))
  document : ∀ documentType, Counts (b.counters documentType.text) ⟨1, le_rfl⟩
    ((b.ofType documentType).map (·.document))

variable {P : FiscalSeries → Prop}

theorem Book.Gapless.start {series : Option FiscalSeries} (h : ∀ s ∈ series, P s) :
    (Book.start series).Gapless P where
  series := h
  documents := nofun
  control := ⟨⟨1, le_rfl⟩, fun h => absurd rfl h, rfl, rfl⟩
  document _ := ⟨rfl, rfl⟩

theorem text_injective : Function.Injective DocumentType.text := by
  intro a b h
  cases a <;> cases b <;> first | rfl | exact absurd h (by decide)

theorem NumberingTx.Sound.commit {b : Book} {t : NumberingTx} {s : FiscalSeries} {c d : Correlative}
    (h : t.Sound P b) (hphase : t.phase = .numbered s c d) (hb : b.Gapless P) :
    (t.commit b ⟨t.documentType, s, c, d⟩).Gapless P := by
  have hknows := h.phase
  simp only [hphase] at hknows
  obtain ⟨hs, ⟨hcontrol, hlast⟩, hdocument, hwrite, hwrite'⟩ := hknows
  have hcounter : ∀ {scope v}, t.writes scope = some v → t.sees b scope = some v := by
    intro scope v hv
    rw [NumberingTx.sees, hv]
    rfl
  refine ⟨hb.series, ?_, ?_, fun documentType => ?_⟩
  · simp only [NumberingTx.commit, List.forall_mem_append, List.forall_mem_singleton]
    exact ⟨hb.documents, hs, hlast⟩
  · obtain ⟨first, hfirst, hcounts⟩ := hb.control
    have happend := hcounts.append hcontrol.2
    refine ⟨_, fun _ => ?_, by simpa [NumberingTx.commit, hcounter hwrite] using happend⟩
    by_cases hnil : b.documents = []
    · exact ⟨s, hs, by simp [hnil]⟩
    · obtain ⟨s', hs', hfirst⟩ := hfirst hnil
      exact ⟨s', hs', by simp [hnil, hfirst]⟩
  · have hcounts := hb.document documentType
    by_cases htype : t.documentType = documentType
    · subst htype
      have hlist : (t.commit b ⟨t.documentType, s, c, d⟩).ofType t.documentType =
          b.ofType t.documentType ++ [⟨t.documentType, s, c, d⟩] := by
        simp [Book.ofType, NumberingTx.commit]
      rw [hlist, List.map_append, List.map_singleton]
      have happend := hcounts.append hdocument.2
      rw [ite_self, ← hcounter hwrite'] at happend
      exact happend
    · have hlist : (t.commit b ⟨t.documentType, s, c, d⟩).ofType documentType =
          b.ofType documentType := by
        simp [Book.ofType, NumberingTx.commit, htype]
      rw [hlist]
      have hnone := h.other documentType.text documentType.text_ne_control
        fun heq => htype (text_injective heq).symm
      have hsame : t.sees b documentType.text = b.counters documentType.text := by
        rw [NumberingTx.sees, hnone, Option.none_or]
      rw [← hsame] at hcounts
      exact hcounts

/-- A commit leaves what another transaction has locked. -/
theorem NumberingTx.Sound.commit_leaves {b : Book} {t u : NumberingTx} {d : Numbered}
    (h : t.Sound P b) (hapart : ∀ scope, t.locks scope = true → u.locks scope = false) :
    b.Leaves (t.commit b d) u where
  locked scope hu := by
    have hnone : t.writes scope = none := by
      cases hw : t.writes scope with
      | none => rfl
      | some v => exact absurd hu (by simp [hapart scope (h.locked scope (by rw [hw]; rfl))])
    change t.sees b scope = b.counters scope
    rw [NumberingTx.sees, hnone, Option.none_or]
  kept scope hsome := by
    change (t.sees b scope).isSome
    simp [NumberingTx.sees, Option.isSome_or, hsome]

/-! ## Every interleaving -/

theorem next_issuing {b : Book} {us : List SeriesTx} {t : NumberingTx} :
    numbering.next b us (.issuing t) =
      (t.next b fun scope => us.any fun u => u.locks scope).map .issuing := rfl

/-- What a transaction knows, when the forms that are sent satisfy `P`. -/
def SeriesTx.Sound (P : FiscalSeries → Prop) (b : Book) : SeriesTx → Prop
  | .issuing t => t.Sound P b
  | .saving next _ => P next

/-- No two transactions have locked one counter. -/
def SeriesTx.Apart (t u : SeriesTx) : Prop := ∀ scope, t.locks scope = true → u.locks scope = false

def SeriesCall.Sends (P : FiscalSeries → Prop) : SeriesCall → Prop
  | .issue _ => True
  | .save next => P next

/-- A statement of `writeSeries` commits nothing, or it commits the form. -/
theorem saving_ends {b b' : Book} {others : List SeriesTx} {next : FiscalSeries} {phase : SavingPhase}
    {answer : List Err} (h : SeriesTx.next b others (.saving next phase) = .ends b' answer) :
    (b' = b ∧ ∃ err ∈ seriesLocked b.series (b.counters CONTROL) next, answer = [err] ∧ phase = .read) ∨
      (b' = { b with series := some next } ∧ phase = .written ∧ answer = []) := by
  cases phase with
  | read =>
    unfold SeriesTx.next at h
    dsimp only at h
    split at h
    · rename_i err herr
      cases h
      exact .inl ⟨rfl, err, herr, rfl, rfl⟩
    · cases h
  | write =>
    unfold SeriesTx.next at h
    dsimp only at h
    split at h <;> cases h
  | written =>
    cases h
    exact .inr ⟨rfl, rfl, rfl⟩

theorem saving_goes {b b' : Book} {others : List SeriesTx} {next : FiscalSeries} {phase : SavingPhase}
    {t' : SeriesTx} {answer : List Err}
    (h : SeriesTx.next b others (.saving next phase) = .goes b' t' answer) :
    b' = b ∧ ∃ phase', t' = .saving next phase' := by
  cases phase with
  | read =>
    unfold SeriesTx.next at h
    dsimp only at h
    split at h
    · cases h
    · cases h
      exact ⟨rfl, _, rfl⟩
  | write =>
    unfold SeriesTx.next at h
    dsimp only at h
    split at h
    · cases h
    · cases h
      exact ⟨rfl, _, rfl⟩
  | written => cases h

/-- Another series leaves what every transaction knows of the counters. -/
theorem SeriesTx.Sound.leaves {b b' : Book} {u : SeriesTx} (h : u.Sound P b)
    (hb : ∀ t, u = .issuing t → b.Leaves b' t) : u.Sound P b' := by
  cases u with
  | issuing t => exact NumberingTx.Sound.leaves h (hb t rfl)
  | saving next phase => exact h

/-- Whatever happens to the series, the documents are numbered without gaps. -/
theorem numberingRule (P : FiscalSeries → Prop) :
    numbering.Rule (SeriesCall.Sends P) (fun _ _ _ => True) (Book.Gapless P) (SeriesTx.Sound P)
      SeriesTx.Apart where
  symm t u h scope := Protocol.excludes_symm (h scope)
  start b call _ hcall := by
    cases call with
    | issue documentType =>
      exact ⟨⟨nofun, fun _ _ _ => rfl, fun _ => rfl⟩, fun _ _ => nofun⟩
    | save next => exact ⟨hcall, fun _ _ => nofun⟩
  goes b us t hb ht hus _ b' t' answer hnext := by
    cases t with
    | issuing t =>
      rw [next_issuing, Advance.map_goes] at hnext
      obtain ⟨t', hnext, rfl⟩ := hnext
      obtain ⟨rfl, hlocks⟩ := next_locks hnext
      refine ⟨hb, NumberingTx.Sound.next ht hb.series hnext, fun u hu => ⟨(hus u hu).1, ?_⟩⟩
      intro scope hs
      rcases hlocks scope hs with hold | hfree
      · exact (hus u hu).2 scope hold
      · exact Bool.eq_false_iff.mpr fun hlock => by simp_all
    | saving next phase =>
      obtain ⟨rfl, phase', rfl⟩ := saving_goes hnext
      exact ⟨hb, ht, fun u hu => ⟨(hus u hu).1, nofun⟩⟩
  ends b us t hb ht hus _ b' answer hnext := by
    cases t with
    | issuing t =>
      rw [next_issuing, Advance.map_ends] at hnext
      obtain ⟨rfl, -⟩ | ⟨s, c, d, hphase, rfl, -⟩ := next_ends hnext
      · exact ⟨hb, fun u hu => (hus u hu).1⟩
      · refine ⟨NumberingTx.Sound.commit ht hphase hb, fun u hu => (hus u hu).1.leaves ?_⟩
        rintro v rfl
        exact NumberingTx.Sound.commit_leaves ht (hus _ hu).2
    | saving next phase =>
      obtain ⟨rfl, -⟩ | ⟨rfl, -, -⟩ := saving_ends hnext
      · exact ⟨hb, fun u hu => (hus u hu).1⟩
      · refine ⟨⟨fun s hs => ?_, hb.documents, hb.control, hb.document⟩, fun u hu => ?_⟩
        · obtain rfl : next = s := Option.some.inj hs
          exact ht
        · exact (hus u hu).1.leaves fun t _ => ⟨fun _ _ => rfl, fun _ => id⟩

/-! ## One transaction and `allocate` -/

/-- The series and the counters of a restaurant, with the documents that they numbered. -/
def book (s : FiscalDb) (restaurantId : Uuid) (documents : List Numbered) : Book where
  series := s.series.find? restaurantId
  counters scope := (s.counters.find? (restaurantId, scope)).map (·.nextValue)
  documents := documents

/-- A document whose series is still there when it is committed has the numbers that `allocate` takes
from what is committed. -/
theorem numbers?_of_numbered {s : FiscalDb} {restaurantId : Uuid} {documents : List Numbered}
    {t : NumberingTx} {series : FiscalSeries} {c d : Correlative}
    (h : t.Sound P (book s restaurantId documents)) (hphase : t.phase = .numbered series c d)
    (hseries : s.series.find? restaurantId = some series) :
    numbers? s restaurantId t.documentType =
      some ⟨Numbered.controlNumber ⟨t.documentType, series, c, d⟩,
        Numbered.documentNumber ⟨t.documentType, series, c, d⟩⟩ := by
  have hknows := h.phase
  simp only [hphase] at hknows
  obtain ⟨-, ⟨⟨-, hcontrol⟩, hlast⟩, ⟨-, hdocument⟩, -⟩ := hknows
  have hc : nextValue s restaurantId CONTROL series.controlFirst = c := hcontrol
  have hd : nextValue s restaurantId t.documentType.text ⟨1, le_rfl⟩ = d := hdocument
  unfold numbers?
  simp only [hseries, Option.bind_eq_bind, Option.bind_some, hc, hd, if_pos hlast]
  rfl

/-! ## Printed numbers -/

/-- Two numbers of one format differ in print, whatever their length. -/
theorem format_injective (text : String) (padTo : Nat) :
    Function.Injective fun v => format text v padTo := by
  intro v w h
  have hdigits : ∀ u : Correlative, (toString u.1).toList = Nat.toDigits 10 u.1.toNat := by
    intro u
    have hu : u.1 = (u.1.toNat : Int) := (Int.toNat_of_nonneg (by have := u.2; omega)).symm
    rw [hu]
    exact Nat.toList_repr
  have hvalue : ∀ u : Correlative,
      Nat.ofDigitChars 10 ((toString u.1).toList.leftpad padTo '0') 0 = u.1.toNat := by
    intro u
    rw [List.leftpad, Nat.ofDigitChars_append, Nat.ofDigitChars_replicate_zero, Nat.mul_zero, hdigits,
      Nat.ofDigitChars_ten_toDigits]
  have hlist : (toString v.1).toList.leftpad padTo '0' = (toString w.1).toList.leftpad padTo '0' := by
    have := congrArg String.toList h
    simpa [format] using this
  have hnat : v.1.toNat = w.1.toNat := by rw [← hvalue v, ← hvalue w, hlist]
  have hv := v.2
  have hw := w.2
  exact Subtype.ext (by omega)

/-! ## A series that nobody edits -/

/-- The documents of a book are numbered without gaps by one series: the control numbers are the ones
from its first to the one before the next, and so are those of each type from 1. -/
structure Book.NumberedBy (series : FiscalSeries) (b : Book) : Prop where
  control : b.documents.map (·.controlNumber) =
    (consecutive series.controlFirst b.documents.length).map
      fun c => format series.controlPrefix c series.padTo
  control_next : b.nextValue CONTROL series.controlFirst =
    after series.controlFirst b.documents.length
  control_nodup : (b.documents.map (·.controlNumber)).Nodup
  authorised : ∀ c ∈ consecutive series.controlFirst b.documents.length,
    ∀ last ∈ series.controlLast, c.1 ≤ last
  document : ∀ documentType, (b.ofType documentType).map (·.documentNumber) =
    (consecutive ⟨1, le_rfl⟩ (b.ofType documentType).length).map
      fun d => format series.documentPrefix d series.padTo
  document_nodup : ∀ documentType, ((b.ofType documentType).map (·.documentNumber)).Nodup

theorem Book.Gapless.numberedBy {series : FiscalSeries} {b : Book}
    (h : b.Gapless fun s => s = series) : b.NumberedBy series := by
  obtain ⟨first, hfirst, hcounts⟩ := h.control
  have hcontrols : b.documents.map (·.control) =
      consecutive series.controlFirst b.documents.length := by
    have hused := hcounts.consecutive
    rw [List.length_map] at hused
    by_cases hnil : b.documents = []
    · simp [hnil, consecutive]
    · obtain ⟨s, rfl, rfl⟩ := hfirst hnil
      exact hused
  have hprint : b.documents.map (·.controlNumber) =
      (b.documents.map (·.control)).map fun c => format series.controlPrefix c series.padTo := by
    rw [List.map_map]
    refine List.map_congr_left fun d hd => ?_
    obtain rfl := (h.documents d hd).1
    rfl
  have hdocuments : ∀ documentType, (b.ofType documentType).map (·.document) =
      consecutive ⟨1, le_rfl⟩ (b.ofType documentType).length := by
    intro documentType
    have hused := (h.document documentType).consecutive
    rwa [List.length_map] at hused
  have hprint' : ∀ documentType, (b.ofType documentType).map (·.documentNumber) =
      ((b.ofType documentType).map (·.document)).map
        fun d => format series.documentPrefix d series.padTo := by
    intro documentType
    rw [List.map_map]
    refine List.map_congr_left fun d hd => ?_
    obtain rfl := (h.documents d (List.mem_filter.mp hd).1).1
    rfl
  refine ⟨?_, ?_, ?_, ?_, fun documentType => ?_, fun documentType => ?_⟩
  · rw [hprint, hcontrols]
  · unfold Book.nextValue
    rw [hcounts.next]
    by_cases hnil : b.documents = []
    · simp [hnil, after]
    · obtain ⟨s, rfl, rfl⟩ := hfirst hnil
      simp [hnil]
  · rw [hprint, hcontrols]
    exact (nodup_consecutive _ _).map (format_injective _ _)
  · intro c hc last hlast
    rw [← hcontrols] at hc
    obtain ⟨d, hd, rfl⟩ := List.mem_map.mp hc
    obtain ⟨rfl, hd⟩ := h.documents d hd
    exact hd last hlast
  · rw [hprint', hdocuments]
  · rw [hprint', hdocuments]
    exact (nodup_consecutive _ _).map (format_injective _ _)

/-- Any interleaving of transactions that number documents by a series that stays as it is, each of
which may be rolled back at any point. -/
theorem numbered_gaplessly (series : FiscalSeries) (moves : List (Move DocumentType)) :
    (numbering.machine.run (Sessions.start (Book.start (some series)))
      (moves.map (Move.map .issue))).committed.NumberedBy series := by
  refine Book.Gapless.numberedBy ((numberingRule fun s => s = series).run (.start ?_) ?_).committed
  · exact Book.Gapless.start fun s hs => (Option.some.inj hs).symm
  · refine Protocol.every_allowed fun id input hm => ?_
    obtain ⟨m, -, hm⟩ := List.mem_map.mp hm
    cases m with
    | start id' documentType =>
      cases hm
      trivial
    | go id' => cases hm
    | abort id' => cases hm

/-! ## A series that is edited -/

/-- The series prints the control number of a document, and it is one of those that it authorises. -/
def Covers (s : FiscalSeries) (d : Numbered) : Prop :=
  s.controlPrefix = d.series.controlPrefix ∧ s.padTo = d.series.padTo ∧
    s.controlFirst.1 ≤ d.control.1 ∧ ∀ last ∈ s.controlLast, d.control.1 ≤ last

instance (s : FiscalSeries) (d : Numbered) : Decidable (Covers s d) :=
  inferInstanceAs (Decidable (_ ∧ _))

/-- Every control number that has been issued is one of the series that there is now. -/
def Book.Frozen (b : Book) : Prop := ∀ d ∈ b.documents, ∃ s ∈ b.series, Covers s d

instance (b : Book) : Decidable b.Frozen := inferInstanceAs (Decidable (∀ _ ∈ _, _))

/-- A move leaves the series in use frozen: what is committed after it is, what is refused changes
nothing, and `writeSeries` refuses what does not cover a document. -/
structure KeepsFrozen (w : Sessions Book SeriesTx) (m : Move SeriesCall) : Prop where
  frozen : (numbering.machine.step w m).1.committed.Frozen
  refused : (numbering.machine.step w m).2 ≠ [] →
    (numbering.machine.step w m).1.committed = w.committed
  refuses : ∀ id next r, m = .go id → w.running.find? id = some r → r.state = .saving next .read →
    (∃ d ∈ w.committed.documents, ¬Covers next d) → (numbering.machine.step w m).2 ≠ []

/-- The statements that commit: `writeSeries` still passes its check on what is committed by then, and
the series that a document was numbered by is still there, but for what does not concern its control
number. -/
def Undisturbed (b : Book) (_ : List SeriesTx) : SeriesTx → Prop
  | .saving next .written => seriesLocked b.series (b.counters CONTROL) next = none
  | .issuing ⟨_, .numbered s c _, _, _⟩ => ∃ current ∈ b.series,
    current.controlPrefix = s.controlPrefix ∧ current.padTo = s.padTo ∧
      current.controlFirst = s.controlFirst ∧ ∀ last ∈ current.controlLast, c.1 ≤ last
  | _ => True

instance (b : Book) (us : List SeriesTx) (t : SeriesTx) : Decidable (Undisturbed b us t) := by
  unfold Undisturbed
  split <;> infer_instance

theorem seriesLocked_eq_none {current next : FiscalSeries} {controlNext : Correlative}
    (h : seriesLocked (some current) (some controlNext) next = none) :
    next.controlPrefix = current.controlPrefix ∧ next.padTo = current.padTo ∧
      next.controlFirst = current.controlFirst ∧
      ∀ last ∈ next.controlLast, controlNext.1 - 1 ≤ last := by
  unfold seriesLocked at h
  dsimp only at h
  split at h
  · cases h
  · rename_i hfields
    split at h
    · cases h
    · rename_i hlast
      have hall : ∀ field, field ∉ frozenFields current next := by
        rw [not_not.mp hfields]
        exact fun _ => List.not_mem_nil
      refine ⟨?_, ?_, ?_, fun last hmem => ?_⟩
      · by_contra hne
        exact hall "controlPrefix" (by simp [frozenFields, hne])
      · by_contra hne
        exact hall "padTo" (by simp [frozenFields, hne])
      · by_contra hne
        exact hall "controlFirst" (by simp [frozenFields, hne])
      · by_contra hlt
        exact hlast ⟨last, hmem, by omega⟩

/-- The numbers that have been issued come before the counter. -/
theorem Book.Gapless.issued {b : Book} {d : Numbered} (h : b.Gapless P) (hd : d ∈ b.documents) :
    ∃ controlNext, b.counters CONTROL = some controlNext ∧ d.control.1 < controlNext.1 := by
  obtain ⟨first, -, hcounts⟩ := h.control
  have hnil : b.documents.map (·.control) ≠ [] := by
    intro hnil
    exact List.not_mem_nil (hnil ▸ List.mem_map_of_mem hd)
  have hnext := hcounts.next
  rw [if_neg hnil] at hnext
  have hmem : d.control ∈ consecutive first (b.documents.map (·.control)).length := by
    rw [← hcounts.consecutive]
    exact List.mem_map_of_mem hd
  exact ⟨_, hnext, (mem_consecutive.mp hmem).2⟩

/-- What passes the check of `writeSeries` covers what has been issued. -/
theorem covers_of_check {b : Book} {next : FiscalSeries} (hb : b.Gapless P) (hf : b.Frozen)
    (hcheck : seriesLocked b.series (b.counters CONTROL) next = none) :
    ∀ d ∈ b.documents, Covers next d := by
  intro d hd
  obtain ⟨current, hcurrent, hprefix, hpad, hfirst, -⟩ := hf d hd
  obtain ⟨controlNext, hcounter, hlt⟩ := hb.issued hd
  rw [Option.mem_def.mp hcurrent, hcounter] at hcheck
  obtain ⟨hprefix', hpad', hfirst', hlast⟩ := seriesLocked_eq_none hcheck
  refine ⟨hprefix'.trans hprefix, hpad'.trans hpad, hfirst' ▸ hfirst, fun last hmem => ?_⟩
  have := hlast last hmem
  omega

/-- A transaction that ends with its document on an undisturbed series leaves the series frozen. -/
theorem frozen_commit {b : Book} {t : NumberingTx} {s : FiscalSeries} {c d : Correlative}
    (ht : t.Sound P b) (hphase : t.phase = .numbered s c d) (hb : b.Gapless P) (hf : b.Frozen)
    (h : ∃ current ∈ b.series, current.controlPrefix = s.controlPrefix ∧ current.padTo = s.padTo ∧
      current.controlFirst = s.controlFirst ∧ ∀ last ∈ current.controlLast, c.1 ≤ last) :
    (t.commit b ⟨t.documentType, s, c, d⟩).Frozen := by
  obtain ⟨current, hcurrent, hprefix, hpad, hfirst, hlast⟩ := h
  have hknows := ht.phase
  simp only [hphase] at hknows
  obtain ⟨-, ⟨⟨-, hcontrol⟩, -⟩, -⟩ := hknows
  have hle : current.controlFirst.1 ≤ c.1 := by
    rw [hfirst, ← hcontrol, Book.nextValue]
    cases hdocs : b.documents with
    | nil =>
      obtain ⟨first, -, hcounts⟩ := hb.control
      rw [hcounts.next, hdocs]
      exact le_rfl
    | cons e rest =>
      have he : e ∈ b.documents := hdocs ▸ List.mem_cons_self
      obtain ⟨controlNext, hcounter, hlt⟩ := hb.issued he
      obtain ⟨current', hcurrent', -, -, hle, -⟩ := hf e he
      obtain rfl : current = current' := Option.some.inj (hcurrent.symm.trans hcurrent')
      rw [hcounter, Option.getD_some, ← hfirst]
      omega
  intro e he
  rcases List.mem_append.mp he with he | he
  · exact hf e he
  · obtain rfl := List.mem_singleton.mp he
    exact ⟨current, hcurrent, hprefix, hpad, hle, hlast⟩

/-- Undisturbed statements keep the series frozen. -/
theorem frozenRule :
    numbering.Rule (fun _ => True) Undisturbed
      (fun b => b.Gapless (fun _ => True) ∧ b.Frozen) (SeriesTx.Sound fun _ => True)
      SeriesTx.Apart where
  symm := (numberingRule fun _ => True).symm
  start b call hb _ := by
    refine (numberingRule fun _ => True).start b call hb.1 ?_
    cases call <;> trivial
  goes b us t hb ht hus _ b' t' answer hnext := by
    obtain ⟨hgapless, hrest⟩ :=
      (numberingRule fun _ => True).goes b us t hb.1 ht hus trivial b' t' answer hnext
    have hsame : b' = b := by
      cases t with
      | issuing t =>
        rw [next_issuing, Advance.map_goes] at hnext
        obtain ⟨t', hnext, -⟩ := hnext
        exact (next_locks hnext).1
      | saving next phase => exact (saving_goes hnext).1
    exact ⟨⟨hgapless, hsame ▸ hb.2⟩, hrest⟩
  ends b us t hb ht hus hc b' answer hnext := by
    obtain ⟨hgapless, hrest⟩ :=
      (numberingRule fun _ => True).ends b us t hb.1 ht hus trivial b' answer hnext
    refine ⟨⟨hgapless, ?_⟩, hrest⟩
    cases t with
    | issuing t =>
      rw [next_issuing, Advance.map_ends] at hnext
      obtain ⟨rfl, -⟩ | ⟨s, c, d, hphase, rfl, -⟩ := next_ends hnext
      · exact hb.2
      · obtain ⟨documentType, phase, writes, locks⟩ := t
        obtain rfl : phase = _ := hphase
        exact frozen_commit ht rfl hb.1 hb.2 hc
    | saving next phase =>
      obtain ⟨rfl, -⟩ | ⟨rfl, rfl, -⟩ := saving_ends hnext
      · exact hb.2
      · exact fun d hd => ⟨next, rfl, covers_of_check hb.1 hb.2 hc d hd⟩

/-- What is refused changes nothing. -/
theorem refused_unchanged (w : Sessions Book SeriesTx) (m : Move SeriesCall)
    (h : (numbering.machine.step w m).2 ≠ []) :
    (numbering.machine.step w m).1.committed = w.committed := by
  rcases Protocol.move_cases (p := numbering) w m with
    ⟨r, -, -, hcommitted, hanswer⟩ | ⟨-, hanswer, -⟩
  · rw [hcommitted]
    rw [hanswer] at h
    cases hnext : numbering.next w.committed (w.others r.id) r.state with
    | waits => rfl
    | goes s t answer =>
      cases hstate : r.state with
      | issuing t =>
        rw [hstate] at hnext
        obtain ⟨t', hnext, -⟩ := Advance.map_goes.mp (next_issuing ▸ hnext)
        exact (next_locks hnext).1
      | saving next phase =>
        rw [hstate] at hnext
        exact (saving_goes hnext).1
    | ends s answer =>
      rw [hnext] at h
      cases hstate : r.state with
      | issuing t =>
        rw [hstate] at hnext
        obtain ⟨rfl, -⟩ | ⟨-, -, -, -, -, rfl⟩ := next_ends (Advance.map_ends.mp (next_issuing ▸ hnext))
        · rfl
        · exact absurd rfl h
      | saving next phase =>
        rw [hstate] at hnext
        obtain ⟨rfl, -⟩ | ⟨-, -, rfl⟩ := saving_ends hnext
        · rfl
        · exact absurd rfl h
  · exact absurd hanswer h

/-- `writeSeries` refuses a form that does not cover what has been issued when it reads. -/
theorem read_refuses {w : Sessions Book SeriesTx} {id : Nat} {next : FiscalSeries}
    {r : Session SeriesTx} (hb : w.committed.Gapless P) (hf : w.committed.Frozen)
    (hfind : w.running.find? id = some r) (hstate : r.state = .saving next .read)
    (h : ∃ d ∈ w.committed.documents, ¬Covers next d) :
    (numbering.machine.step w (.go id)).2 ≠ [] := by
  change (numbering.step w (.go id)).2 ≠ []
  unfold Protocol.step
  simp only [hfind, hstate]
  cases hcheck : seriesLocked w.committed.series (w.committed.counters CONTROL) next with
  | none =>
    obtain ⟨d, hd, hnot⟩ := h
    exact absurd (covers_of_check hb hf hcheck d hd) hnot
  | some err => simp [numbering, SeriesTx.next, hcheck]

/-- When no statement that commits is disturbed, a series in use is frozen all along a run. -/
theorem frozen_undisturbed (series : Option FiscalSeries) (moves : List (Move SeriesCall))
    (h : numbering.machine.Every (Protocol.Allowed (fun _ => True) Undisturbed)
      (Sessions.start (Book.start series)) moves) :
    numbering.machine.Every KeepsFrozen (Sessions.start (Book.start series)) moves := by
  refine frozenRule.every (fun w m hw hm => ?_) (.start ⟨Book.Gapless.start fun _ _ => trivial, nofun⟩) h
  refine ⟨(frozenRule.step w m hw hm).committed.2, refused_unchanged w m, ?_⟩
  rintro id next r rfl hfind hstate hdocs
  exact read_refuses hw.committed.1 hw.committed.2 hfind hstate hdocs

def paperSeries : FiscalSeries := ⟨1, "00-", "A", 8, ⟨1, by decide⟩, some 100⟩

/-- A document, and then more numbers for the series. -/
theorem paperSeries_extended : numbering.machine.Every KeepsFrozen
    (Sessions.start (Book.start (some paperSeries)))
    [.start 0 (.issue .invoice), .go 0, .go 0, .go 0, .go 0, .go 0, .go 0, .go 0, .go 0,
      .start 1 (.save { paperSeries with controlLast := some 200 }), .go 1, .go 1, .go 1] :=
  frozen_undisturbed _ _ (by decide)

/-- The owner corrects the prefix while the first document is being numbered. -/
theorem paperSeries_corrected : ¬(numbering.machine.run
    (Sessions.start (Book.start (some paperSeries)))
    [.start 0 (.issue .invoice), .go 0, .start 1 (.save { paperSeries with controlPrefix := "01-" }),
      .go 1, .go 1, .go 1, .go 0, .go 0, .go 0, .go 0, .go 0, .go 0, .go 0]).committed.Frozen := by
  decide

end Numbering

end Splite
