import Mathlib.Data.Bool.AllAny
import Splite.Bank.Amounts
import Splite.Bank.Reconciliation

/-!
# Movements that come in (`services/bankMovementNormalizer.js`, `ingest` of `services/bankConnections.js`)

A row of a batch passes through `normalise` and then through the columns and checks of `bank_movements`. The
rows go in one by one, each in a statement of its own, and a statement that fails ends the batch.

* `normalise_ok`: what `normalise` accepts is within the width of every column.
* `refusal_iff`: and refused by the columns only for its amount, its date or a character of its description.
* `ingest_iff`: a batch is taken row by row exactly when every row that is accepted fits.
-/

namespace Splite.Bank

open Mercantil (isSpace trimmed digitsOnly)
open Decimal

/-! ## Dates -/

/-- `CARACAS_OFFSET`. -/
def CARACAS_OFFSET : List Char := ['-', '0', '4', ':', '0', '0']

/-- `padStart(width, '0')`. -/
def padded (width : Nat) (digits : List Char) : List Char := digits.leftpad width '0'

/-- `\d{lo,hi}` where no digit follows, and the rest. -/
def digitRun (lo hi : Nat) (s : List Char) : Option (List Char × List Char) :=
  let run := s.takeWhile Char.isDigit
  if lo ≤ run.length ∧ run.length ≤ hi then some (run, s.dropWhile Char.isDigit) else none

/-- One of some characters, and the rest. -/
def oneOf (cs : List Char) : List Char → Option (List Char)
  | c :: s => if cs.contains c then some s else none
  | [] => none

/-- `(?:[ T](\d{1,2}):(\d{2})(?::(\d{2}))?)?$`, with the defaults. -/
def clock (s : List Char) : Option (List Char × List Char × List Char) :=
  if s = [] then some (['1', '2'], ['0', '0'], ['0', '0'])
  else do
    let s ← oneOf [' ', 'T'] s
    let (hh, s) ← digitRun 1 2 s
    let s ← oneOf [':'] s
    let (mm, s) ← digitRun 2 2 s
    if s = [] then return (hh, mm, ['0', '0'])
    let s ← oneOf [':'] s
    let (ss, s) ← digitRun 2 2 s
    if s = [] then return (hh, mm, ss) else none

/-- `DD/MM/AAAA` or `DD-MM-AAAA`, with or without a time, as an ISO text of Caracas. -/
def fromDayFirst (s : List Char) : Option (List Char) := do
  let (d, s) ← digitRun 1 2 s
  let s ← oneOf ['/', '-'] s
  let (m, s) ← digitRun 1 2 s
  let s ← oneOf ['/', '-'] s
  let (y, s) ← digitRun 4 4 s
  let (hh, mm, ss) ← clock s
  return y ++ '-' :: padded 2 m ++ '-' :: padded 2 d ++ 'T' :: padded 2 hh ++ ':' :: mm ++ ':' :: ss ++
    CARACAS_OFFSET

/-- What follows `\d{4}-\d{2}-\d{2}`. -/
def behindDay (s : List Char) : Option (List Char) := do
  let (_, s) ← digitRun 4 4 s
  let s ← oneOf ['-'] s
  let (_, s) ← digitRun 2 2 s
  let s ← oneOf ['-'] s
  let (_, s) ← digitRun 2 2 s
  return s

/-- `/([zZ]|[+-]\d{2}:?\d{2})$/.test(s)`. -/
def isZoned (s : List Char) : Bool :=
  match s.reverse with
  | 'z' :: _ | 'Z' :: _ => true
  | a :: b :: ':' :: c :: d :: g :: _ => [a, b, c, d].all Char.isDigit && ['+', '-'].contains g
  | a :: b :: c :: d :: g :: _ => [a, b, c, d].all Char.isDigit && ['+', '-'].contains g
  | _ => false

/-- The `iso` that `parseDate` reads. -/
def isoText (s : List Char) : Option (List Char) :=
  (fromDayFirst s).or ((behindDay s).bind fun rest =>
    if rest = [] then some (s ++ "T12:00:00".toList ++ CARACAS_OFFSET)
    else if rest.head? = some 'T' then some (if isZoned s then s else s ++ CARACAS_OFFSET)
    else none)

/-- A day of the proleptic Gregorian calendar from the days since 1970: year, month and day. -/
def civil (days : Int) : Int × Int × Int :=
  let z := days + 719468
  let era := z / 146097
  let doe := z % 146097
  let yoe := (doe - doe / 1460 + doe / 36524 - doe / 146096) / 365
  let doy := doe - (365 * yoe + yoe / 4 - yoe / 100)
  let mp := (5 * doy + 2) / 153
  let month := if mp < 10 then mp + 3 else mp - 9
  (yoe + era * 400 + (if month ≤ 2 then 1 else 0), month, doy - (153 * mp + 2) / 5 + 1)

/-- `getUTCFullYear()` of a time value. -/
def year (t : Int) : Int := (civil (t / 86400000)).1

/-- The year of an ISO text: six digits and a sign outside of the years from 0 to 9999. -/
def yearText (y : Int) : List Char :=
  if 0 ≤ y ∧ y ≤ 9999 then padded 4 (Nat.toDigits 10 y.toNat)
  else (if y < 0 then '-' else '+') :: padded 6 (Nat.toDigits 10 y.natAbs)

/-- `toISOString()` of a time value. -/
def toISOString (t : Int) : String :=
  let (_, month, day) := civil (t / 86400000)
  let ms := t % 86400000
  let two := fun (n : Int) => padded 2 (Nat.toDigits 10 n.toNat)
  String.ofList (yearText (year t) ++ '-' :: two month ++ '-' :: two day ++ 'T' :: two (ms / 3600000) ++
    ':' :: two (ms / 60000 % 60) ++ ':' :: two (ms / 1000 % 60) ++
    '.' :: padded 3 (Nat.toDigits 10 (ms % 1000).toNat) ++ ['Z'])

example : toISOString 0 = "1970-01-01T00:00:00.000Z" := by decide +kernel

example : toISOString 951868799999 = "2000-02-29T23:59:59.999Z" := by decide +kernel

example : toISOString (-62167161600000) = "0000-01-01T16:00:00.000Z" := by decide +kernel

section Dates

-- The time value of `new Date(text)`, if it has one: for other texts than ISO ones the engine decides.
variable (dateParse : String → Option Int)

/-- The time value that `parseDate` finds. -/
def instant (raw : Option String) : Option Int := do
  let s := trimmed (← raw).toList
  if s = [] then none else dateParse (String.ofList (← isoText s))

/-- `parseDate(raw)`. -/
def parseDate (raw : Option String) : Option String := (instant dateParse raw).map toISOString

end Dates

/-! ## Rows -/

/-- A row of a batch: each value that is not null, as `String(value)`. -/
structure Input where
  reference : Option String := none
  amount : Option String := none
  amountMinor : Option String := none
  occurredAt : Option String := none
  date : Option String := none
  phoneOrigin : Option String := none
  idOrigin : Option String := none
  bankCode : Option String := none
  description : Option String := none
  deriving DecidableEq, Repr

/-- The reasons of `normalise`. -/
inductive RejectReason where
  | reference
  | amount (reason : AmountReason)
  deriving DecidableEq, Repr

/-- What is stored of a movement. -/
structure NormalMovement extends MovementRow where
  occurredAt : Option String
  description : Option String
  deriving DecidableEq, Repr

/-- What `[^VEJGP0-9]` leaves of the upper case of a character; one other letter has a J in its own. -/
def idChar (c : Char) : Option Char :=
  if c.isDigit ∨ ['V', 'E', 'J', 'G', 'P'].contains c then some c
  else if ['v', 'e', 'j', 'g', 'p'].contains c then some c.toUpper
  else if c = 'ǰ' then some 'J'
  else none

/-- `normaliseId(raw)`. -/
def normaliseId (raw : Option String) : Option String := do
  let s := (← raw).toList.filterMap idChar
  let digits := if s.head?.any Char.isDigit then s else s.tail
  if 5 ≤ digits.length ∧ digits.length ≤ 10 ∧ digits.all Char.isDigit then some (String.ofList s) else none

/-- `slice(0, units)`: a character beyond the first plane takes two units, and half of one is stored as the
replacement character. -/
def sliceUnits : Nat → List Char → List Char
  | 0, _ => []
  | _, [] => []
  | units + 1, c :: s =>
    if c.toNat < 0x10000 then c :: sliceUnits units s
    else
      match units with
      | 0 => ['\uFFFD']
      | units + 1 => c :: sliceUnits units s

/-- `String(description).trim().slice(0, 200) || null`. -/
def describe (raw : Option String) : Option String := do
  let s := sliceUnits 200 (trimmed (← raw).toList)
  if s = [] then none else some (String.ofList s)

/-- The céntimos of a row: `amountMinor` when it says anything, or else `amount`. -/
def Input.minor (row : Input) : Except AmountReason Nat :=
  let a := trimmed (row.amountMinor.getD "").toList
  if a ≠ [] then
    if a.all Char.isDigit ∧ a.length ≤ 15 ∧ 0 < value a then .ok (value a) else .error .amount
  else parseAmount row.amount

section Rows

variable (dateParse : String → Option Int)

/-- `normalise(input)`. -/
def normalise (row : Input) : Except RejectReason NormalMovement := do
  let reference := digitsOnly (row.reference.getD "")
  Except.require (4 ≤ reference.length ∧ reference.length ≤ 40) .reference
  let minor ← row.minor.mapError RejectReason.amount
  let phone := digitsOnly (row.phoneOrigin.getD "")
  let bank := digitsOnly (row.bankCode.getD "")
  return {
    reference
    amountMinor := minor
    occurredAt := parseDate dateParse (row.occurredAt <|> row.date)
    phoneOrigin := if 7 ≤ phone.length ∧ phone.length ≤ 15 then some phone else none
    idOrigin := normaliseId row.idOrigin
    bankCode := if bank.length = 4 then some bank else none
    description := describe row.description }

end Rows

/-! ## Columns -/

/-- Why a statement fails: by its values alone. -/
inductive ColumnError where
  | untranslatableCharacter (column : String)
  | stringDataRightTruncation (column : String)
  | numericValueOutOfRange (column : String)
  | datetimeFieldOverflow (column : String)
  | checkViolation (constraint : String)
  deriving DecidableEq, Repr

/-- `VARCHAR(width)` and `CHAR(width)`, which hold no NUL. -/
def refusesText (column : String) (width : Nat) (text : String) : Option ColumnError :=
  if '\x00' ∈ text.toList then some (.untranslatableCharacter column)
  else if width < text.length then some (.stringDataRightTruncation column)
  else none

/-- `TIMESTAMPTZ`, of the texts of `toISOString`: the years from 1 to 9999. -/
def acceptsTimestamp (text : String) : Bool :=
  let y := text.toList.takeWhile Char.isDigit
  y.length = 4 ∧ y ≠ ['0', '0', '0', '0']

/-- The columns of text. -/
def NormalMovement.texts (m : NormalMovement) : List (String × Nat × Option String) :=
  [("reference", 40, some m.reference), ("phone_origin", 20, m.phoneOrigin), ("id_origin", 20, m.idOrigin),
    ("bank_code", 4, m.bankCode), ("description", 200, m.description)]

/-- What `bank_movements` refuses of a row. -/
def NormalMovement.refusal (m : NormalMovement) : Option ColumnError :=
  ((m.texts.findSome? fun (column, width, text) => text.bind (refusesText column width)).or
    (if ¬(-2 ^ 63 ≤ m.amountMinor ∧ m.amountMinor < 2 ^ 63) then some (.numericValueOutOfRange "amount_minor")
    else if m.occurredAt.any fun text => !acceptsTimestamp text then some (.datetimeFieldOverflow "occurred_at")
    else if ¬0 < m.amountMinor then some (.checkViolation "bank_movements_amount_check")
    else if ¬(4 ≤ m.reference.length ∧ m.reference.length ≤ 40 ∧ m.reference.toList.all Char.isDigit) then
      some (.checkViolation "bank_movements_reference_check")
    else none))

/-- A row of `bank_movements`. -/
structure StoredMovement extends NormalMovement where
  restaurantId : Uuid
  connectionId : Uuid
  deriving DecidableEq, Repr

/-- The key of `bank_movements_dedupe_idx`. -/
def StoredMovement.Same (connection : BankConnection) (m : NormalMovement) (r : StoredMovement) : Prop :=
  r.restaurantId = connection.restaurantId ∧ r.reference = m.reference ∧ r.amountMinor = m.amountMinor

instance {connection m r} : Decidable (StoredMovement.Same connection m r) := inferInstanceAs (Decidable (_ ∧ _))

/-- `INSERT … ON CONFLICT (restaurant_id, reference, amount_minor) DO NOTHING`, and whether there is a new
row. -/
def storeMovement (connection : BankConnection) (m : NormalMovement) (stored : List StoredMovement) :
    Except ColumnError (Bool × List StoredMovement) :=
  match m.refusal with
  | some e => .error e
  | none =>
    if ∃ r ∈ stored, r.Same connection m then .ok (false, stored)
    else .ok (true, stored ++ [{ m with restaurantId := connection.restaurantId, connectionId := connection.id }])

/-! ## Batches -/

def MAX_MOVEMENTS_PER_CALL : Nat := 500

inductive IngestError where
  /-- `new ApiError('VALIDATION_FAILED', message, { fieldPaths: ['movements'] })`. -/
  | validationFailed (message : String)
  | database (e : ColumnError)
  deriving DecidableEq, Repr

/-- What a batch has come to. -/
structure Tally where
  inserted : Nat := 0
  duplicates : Nat := 0
  rejected : List (Nat × RejectReason) := []
  deriving DecidableEq, Repr

section Batches

variable (dateParse : String → Option Int) (connection : BankConnection)

/-- The loop over the rows, from an index on: what it answers, and what is stored behind it. -/
def ingestRows : Nat → List Input → Tally → List StoredMovement →
    Except IngestError Tally × List StoredMovement
  | _, [], tally, stored => (.ok tally, stored)
  | index, row :: rows, tally, stored =>
    match normalise dateParse row with
    | .error reason =>
      ingestRows (index + 1) rows { tally with rejected := tally.rejected ++ [(index, reason)] } stored
    | .ok m =>
      match storeMovement connection m stored with
      | .error e => (.error (.database e), stored)
      | .ok (true, stored) => ingestRows (index + 1) rows { tally with inserted := tally.inserted + 1 } stored
      | .ok (false, stored) =>
        ingestRows (index + 1) rows { tally with duplicates := tally.duplicates + 1 } stored

/-- `ingest({ connection, rows })`, up to the movements. -/
def ingest (rows : List Input) (stored : List StoredMovement) :
    Except IngestError Tally × List StoredMovement :=
  if rows = [] then (.error (.validationFailed "No movements to import"), stored)
  else if rows.length > MAX_MOVEMENTS_PER_CALL then
    (.error (.validationFailed s!"At most {MAX_MOVEMENTS_PER_CALL} movements per call"), stored)
  else ingestRows dateParse connection 0 rows {} stored

end Batches

/-! ## What the columns refuse -/

section Columns

variable {dateParse : String → Option Int} {row : Input} {m : NormalMovement} {text : String}
  {raw : Option String} {t : Int}

/-- Of the texts of `toISOString` the column takes the years from 1 to 9999. -/
theorem acceptsTimestamp_iff : acceptsTimestamp (toISOString t) ↔ 1 ≤ year t ∧ year t ≤ 9999 := by
  set y := year t with hy
  obtain ⟨rest, hrest⟩ : ∃ rest, (toISOString t).toList = yearText y ++ '-' :: rest := by
    simp only [toISOString, String.toList_ofList, List.append_assoc, List.cons_append, ← hy]
    exact ⟨_, rfl⟩
  unfold acceptsTimestamp
  rw [hrest]
  dsimp only
  by_cases hfour : 0 ≤ y ∧ y ≤ 9999
  · -- Four digits, which are zeros for the year 0 alone.
    have hdigits : IsDigits (padded 4 (Nat.toDigits 10 y.toNat)) := by
      intro c hc
      rcases List.mem_append.mp hc with hc | hc
      · rw [List.eq_of_mem_replicate hc]
        rfl
      · exact isDigits_toDigits _ c hc
    have hlen : (padded 4 (Nat.toDigits 10 y.toNat)).length = 4 := by
      have := Nat.toDigits_length 10 y.toNat 4 (by omega) (by omega)
      rw [padded, List.leftpad, List.length_append, List.length_replicate]
      omega
    have hvalue : value (padded 4 (Nat.toDigits 10 y.toNat)) = y.toNat := by
      rw [padded, List.leftpad, value_append, value_replicate_zero, Nat.zero_mul, Nat.zero_add, value_toDigits]
    have hrun : (yearText y ++ '-' :: rest).takeWhile Char.isDigit = padded 4 (Nat.toDigits 10 y.toNat) := by
      rw [yearText, if_pos hfour, List.takeWhile_append_of_pos hdigits, List.takeWhile_cons_of_neg (by decide),
        List.append_nil]
    rw [hrun, decide_eq_true_eq]
    simp only [hlen, true_and]
    constructor
    · intro hne
      by_contra hzero
      have hy0 : y = 0 := by omega
      rw [hy0] at hne
      exact hne (by decide)
    · rintro ⟨hpos, -⟩ hzero
      rw [hzero] at hvalue
      have : value ['0', '0', '0', '0'] = 0 := by decide
      omega
  · have hrun : (yearText y ++ '-' :: rest).takeWhile Char.isDigit = [] := by
      rw [yearText, if_neg hfour, List.cons_append]
      split <;> rw [List.takeWhile_cons_of_neg (by decide)]
    rw [hrun]
    simp only [List.length_nil, decide_eq_true_eq]
    omega

theorem digits_of_digitsOnly (value : String) : ∀ c ∈ (digitsOnly value).toList, c.isDigit := by
  intro c hc
  rw [digitsOnly, String.toList_ofList] at hc
  exact (List.mem_filter.mp hc).2

/-- Digits of a length fit a column of that width. -/
theorem refusesText_digits (column : String) {width : Nat} (h : ∀ c ∈ text.toList, c.isDigit)
    (hlen : text.length ≤ width) : refusesText column width text = none := by
  have hnul : '\x00' ∉ text.toList := fun hmem => absurd (h _ hmem) (by decide)
  rw [refusesText, if_neg hnul, if_neg (by omega)]

theorem idChar_ne {c d : Char} (h : idChar c = some d) : d ≠ '\x00' := by
  rintro rfl
  unfold idChar at h
  split_ifs at h with h₁ h₂ h₃
  · obtain rfl := Option.some.inj h
    exact absurd h₁ (by decide)
  · have hnone : ∀ c ∈ ['v', 'e', 'j', 'g', 'p'], c.toUpper ≠ '\x00' :=
      List.all_iff_forall_prop.mp (by decide)
    exact hnone c (by simpa using h₂) (Option.some.inj h)
  · exact absurd (Option.some.inj h) (by decide)

/-- An identity is a letter and ten digits at most. -/
theorem refusesText_id {column : String} (h : normaliseId raw = some text) :
    refusesText column 20 text = none := by
  obtain ⟨raw, rfl, hid⟩ := Option.bind_eq_some_iff.mp h
  obtain ⟨hlen, htext⟩ := Option.ite_none_right_eq_some.mp hid
  obtain rfl := Option.some.inj htext
  have hnul : '\x00' ∉ (String.ofList (raw.toList.filterMap idChar)).toList := by
    rw [String.toList_ofList]
    intro hmem
    obtain ⟨c, -, hc⟩ := List.mem_filterMap.mp hmem
    exact idChar_ne hc rfl
  have hwidth : (String.ofList (raw.toList.filterMap idChar)).length ≤ 20 := by
    rw [String.length_ofList]
    split_ifs at hlen with hhead
    · omega
    · rw [List.length_tail] at hlen
      omega
  rw [refusesText, if_neg hnul, if_neg (by omega)]

theorem length_sliceUnits : ∀ (units : Nat) (s : List Char), (sliceUnits units s).length ≤ units
  | 0, s => by simp [sliceUnits]
  | units + 1, [] => by simp [sliceUnits]
  | 1, c :: s => by
    rw [sliceUnits]
    split
    · simp [sliceUnits]
    · simp
  | units + 2, c :: s => by
    have hone : (sliceUnits units.succ s).length ≤ units + 1 := length_sliceUnits (units + 1) s
    have htwo := length_sliceUnits units s
    rw [sliceUnits]
    split
    · rw [List.length_cons]
      omega
    · rw [List.length_cons]
      omega

/-- A description is refused for a NUL alone. -/
theorem refusesText_description {column : String} (h : describe raw = some text) :
    refusesText column 200 text = none ↔ '\x00' ∉ text.toList := by
  obtain ⟨raw, rfl, htext⟩ := Option.bind_eq_some_iff.mp h
  dsimp only at htext
  split at htext
  · cases htext
  · obtain rfl := Option.some.inj htext
    have hwidth := length_sliceUnits 200 (trimmed raw.toList)
    rw [← String.length_ofList] at hwidth
    unfold refusesText
    split_ifs with hnul hlong
    · simpa using hnul
    · omega
    · simpa using hnul

/-- What of a row the columns can refuse: too great an amount, a year that they have not, and a NUL. -/
structure Input.Fits (dateParse : String → Option Int) (row : Input) : Prop where
  amount : ∀ n, row.minor = .ok n → n < 2 ^ 63
  date : ∀ t, instant dateParse (row.occurredAt <|> row.date) = some t → 1 ≤ year t ∧ year t ≤ 9999
  description : ∀ text, describe row.description = some text → '\x00' ∉ text.toList

theorem minor_pos {n : Nat} (h : row.minor = .ok n) : 0 < n := by
  unfold Input.minor at h
  dsimp only at h
  split_ifs at h with hne hall
  · obtain rfl := Except.ok.inj h
    exact hall.2.2
  · cases hamount : row.amount with
    | none => simp [hamount, parseAmount] at h
    | some raw =>
      rw [hamount] at h
      obtain ⟨-, -, _, _, -, -, -, -, -, hpos⟩ := parseAmount_eq_ok.mp h
      exact hpos

/-- What a row is accepted as. -/
structure Accepts (dateParse : String → Option Int) (row : Input) (m : NormalMovement) : Prop where
  reference : m.reference = digitsOnly (row.reference.getD "")
  length : 4 ≤ m.reference.length ∧ m.reference.length ≤ 40
  minor : ∃ n : Nat, row.minor = .ok n ∧ m.amountMinor = n
  date : m.occurredAt = parseDate dateParse (row.occurredAt <|> row.date)
  phone : ∀ text ∈ m.phoneOrigin, text = digitsOnly (row.phoneOrigin.getD "") ∧ text.length ≤ 15
  identity : m.idOrigin = normaliseId row.idOrigin
  bank : ∀ text ∈ m.bankCode, text = digitsOnly (row.bankCode.getD "") ∧ text.length = 4
  description : m.description = describe row.description

theorem normalise_ok (h : normalise dateParse row = .ok m) : Accepts dateParse row m := by
  simp only [normalise, Except.bind_eq_ok, Except.require_eq_ok, Except.pure_eq_ok] at h
  obtain ⟨-, hlength, minor, hminor, rfl⟩ := h
  have hok : row.minor = .ok minor := by
    cases hm : row.minor with
    | error e => simp [hm, Except.mapError] at hminor
    | ok n =>
      rw [hm] at hminor
      rw [Except.ok.inj hminor]
  refine ⟨rfl, hlength, ⟨minor, hok, rfl⟩, rfl, ?_, rfl, ?_, rfl⟩
  · intro text htext
    simp only [Option.mem_def, Option.ite_none_right_eq_some, Option.some.injEq] at htext
    obtain ⟨hlen, rfl⟩ := htext
    exact ⟨rfl, hlen.2⟩
  · intro text htext
    simp only [Option.mem_def, Option.ite_none_right_eq_some, Option.some.injEq] at htext
    obtain ⟨hlen, rfl⟩ := htext
    exact ⟨rfl, hlen⟩

/-- What is accepted the columns take, but for its amount, its date and its description. -/
theorem Accepts.refusal_iff (h : Accepts dateParse row m) : m.refusal = none ↔ row.Fits dateParse := by
  obtain ⟨n, hminor, hn⟩ := h.minor
  have hpos := minor_pos hminor
  have hdigits : ∀ c ∈ m.reference.toList, c.isDigit := h.reference ▸ digits_of_digitsOnly _
  have hreference := refusesText_digits "reference" hdigits h.length.2
  have hphone : m.phoneOrigin.bind (refusesText "phone_origin" 20) = none := by
    refine Option.bind_eq_none_iff.mpr fun text htext => ?_
    obtain ⟨heq, hlen⟩ := h.phone text htext
    exact refusesText_digits _ (heq ▸ digits_of_digitsOnly _) (by omega)
  have hid : m.idOrigin.bind (refusesText "id_origin" 20) = none :=
    Option.bind_eq_none_iff.mpr fun text htext => refusesText_id (h.identity ▸ htext)
  have hbank : m.bankCode.bind (refusesText "bank_code" 4) = none := by
    refine Option.bind_eq_none_iff.mpr fun text htext => ?_
    obtain ⟨heq, hlen⟩ := h.bank text htext
    exact refusesText_digits _ (heq ▸ digits_of_digitsOnly _) (by omega)
  have hdescription : m.description.bind (refusesText "description" 200) = none ↔
      ∀ text, describe row.description = some text → '\x00' ∉ text.toList := by
    rw [Option.bind_eq_none_iff, h.description]
    exact forall₂_congr fun text htext => refusesText_description htext
  have hdate : m.occurredAt.any (fun text => !acceptsTimestamp text) = false ↔
      ∀ t, instant dateParse (row.occurredAt <|> row.date) = some t → 1 ≤ year t ∧ year t ≤ 9999 := by
    rw [h.date, parseDate]
    cases instant dateParse (row.occurredAt <|> row.date) with
    | none => simp
    | some t => simp [← acceptsTimestamp_iff]
  have hamount : m.amountMinor < 2 ^ 63 ↔ ∀ n, row.minor = .ok n → n < 2 ^ 63 := by
    rw [hn, hminor]
    simp only [Except.ok.injEq, forall_eq']
    norm_cast
  have htexts : (m.texts.findSome? fun (column, width, text) => text.bind (refusesText column width)) = none ↔
      m.description.bind (refusesText "description" 200) = none := by
    simp [NormalMovement.texts, hreference, hphone, hid, hbank]
  have hrange : -2 ^ 63 ≤ m.amountMinor := by omega
  have hpositive : 0 < m.amountMinor := by omega
  rw [NormalMovement.refusal, Option.or_eq_none_iff, htexts, hdescription]
  have hchecks : 4 ≤ m.reference.length ∧ m.reference.length ≤ 40 ∧ m.reference.toList.all Char.isDigit :=
    ⟨h.length.1, h.length.2, List.all_eq_true.mpr hdigits⟩
  constructor
  · rintro ⟨hdesc, hrest⟩
    split_ifs at hrest with hover hyear
    exact ⟨hamount.mp hover.2, hdate.mp (by simpa using hyear), hdesc⟩
  · rintro ⟨hfits, hyear, hdesc⟩
    refine ⟨hdesc, ?_⟩
    rw [if_neg (not_not.mpr ⟨hrange, hamount.mpr hfits⟩), if_neg (by rw [hdate.mpr hyear]; decide),
      if_neg (not_not.mpr hpositive), if_neg (not_not.mpr hchecks)]

end Columns

/-! ## What a batch comes to -/

section Runs

variable (dateParse : String → Option Int) (connection : BankConnection)

/-- The rows that `normalise` rejects, from an index on, with their reasons. -/
def rejections (index : Nat) (rows : List Input) : List (Nat × RejectReason) :=
  (rows.zipIdx index).filterMap fun (row, i) =>
    match normalise dateParse row with
    | .error reason => some (i, reason)
    | .ok _ => none

/-- The rows that it accepts. -/
def accepted (rows : List Input) : List Input := rows.filter fun row => (normalise dateParse row).isOk

/-- A batch is taken row by row: nothing is thrown, each row is counted once, what is accepted is stored
beside what was, and the batch finds all of it stored when it comes again. -/
structure Ingests (rows : List Input) (stored : List StoredMovement) : Prop where
  counts : ∃ tally more, ingest dateParse connection rows stored = (.ok tally, stored ++ more) ∧
    tally.rejected = rejections dateParse 0 rows ∧ tally.inserted = more.length ∧
    tally.inserted + tally.duplicates = (accepted dateParse rows).length ∧
    tally.inserted + tally.duplicates + tally.rejected.length = rows.length
  stores : ∀ row ∈ rows, ∀ m, normalise dateParse row = .ok m →
    ∃ r ∈ (ingest dateParse connection rows stored).2, r.Same connection m
  again : ∃ tally, ingest dateParse connection rows (ingest dateParse connection rows stored).2 =
    (.ok tally, (ingest dateParse connection rows stored).2) ∧ tally.inserted = 0

end Runs

section Batch

variable {dateParse : String → Option Int} {connection : BankConnection} {row : Input} {m : NormalMovement}
  {rows : List Input} {stored : List StoredMovement} {index : Nat} {tally : Tally}

/-- The columns take what is accepted of a row. -/
def Input.Stored (dateParse : String → Option Int) (row : Input) : Prop :=
  ∀ m, normalise dateParse row = .ok m → m.refusal = none

theorem stored_iff : row.Stored dateParse ↔ ((∃ m, normalise dateParse row = .ok m) → row.Fits dateParse) := by
  constructor
  · rintro h ⟨m, hm⟩
    exact (normalise_ok hm).refusal_iff.mp (h m hm)
  · intro h m hm
    exact (normalise_ok hm).refusal_iff.mpr (h ⟨m, hm⟩)

/-- A movement that the columns take is stored behind its statement, once. -/
theorem storeMovement_ok (h : m.refusal = none) :
    (∃ r ∈ stored, r.Same connection m) ∧ storeMovement connection m stored = .ok (false, stored) ∨
      ∃ r : StoredMovement, r.Same connection m ∧
        storeMovement connection m stored = .ok (true, stored ++ [r]) := by
  unfold storeMovement
  rw [h]
  dsimp only
  split_ifs with hsame
  · exact .inl ⟨hsame, rfl⟩
  · exact .inr ⟨_, ⟨rfl, rfl, rfl⟩, rfl⟩

theorem ingestRows_rejected {reason : RejectReason} (h : normalise dateParse row = .error reason) :
    ingestRows dateParse connection index (row :: rows) tally stored =
      ingestRows dateParse connection (index + 1) rows
        { tally with rejected := tally.rejected ++ [(index, reason)] } stored := by
  simp only [ingestRows, h]

theorem ingestRows_duplicate (h : normalise dateParse row = .ok m)
    (hstore : storeMovement connection m stored = .ok (false, stored)) :
    ingestRows dateParse connection index (row :: rows) tally stored =
      ingestRows dateParse connection (index + 1) rows { tally with duplicates := tally.duplicates + 1 }
        stored := by
  simp only [ingestRows, h, hstore]

theorem ingestRows_inserted {stored' : List StoredMovement} (h : normalise dateParse row = .ok m)
    (hstore : storeMovement connection m stored = .ok (true, stored')) :
    ingestRows dateParse connection index (row :: rows) tally stored =
      ingestRows dateParse connection (index + 1) rows { tally with inserted := tally.inserted + 1 }
        stored' := by
  simp only [ingestRows, h, hstore]

theorem ingestRows_refused {e : ColumnError} (h : normalise dateParse row = .ok m) (he : m.refusal = some e) :
    ingestRows dateParse connection index (row :: rows) tally stored = (.error (.database e), stored) := by
  simp only [ingestRows, h, storeMovement, he]

theorem length_rejections : (rejections dateParse index rows).length + (accepted dateParse rows).length =
    rows.length := by
  induction rows generalizing index with
  | nil => rfl
  | cons row rows ih =>
    cases hnormal : normalise dateParse row with
    | error reason =>
      have := @ih (index + 1)
      simp only [rejections, accepted, List.zipIdx_cons, List.filterMap_cons, hnormal, List.length_cons,
        List.filter_cons, Except.isOk, Except.toBool, Bool.false_eq_true, if_false] at this ⊢
      omega
    | ok m =>
      have := @ih (index + 1)
      simp only [rejections, accepted, List.zipIdx_cons, List.filterMap_cons, hnormal, List.length_cons,
        List.filter_cons, Except.isOk, Except.toBool, if_true] at this ⊢
      omega

/-- A batch whose accepted rows fit goes through. -/
theorem ingestRows_ok (h : ∀ row ∈ rows, row.Stored dateParse) :
    ∃ tally' more, ingestRows dateParse connection index rows tally stored = (.ok tally', stored ++ more) ∧
      tally'.rejected = tally.rejected ++ rejections dateParse index rows ∧
      tally'.inserted = tally.inserted + more.length ∧
      tally'.inserted + tally'.duplicates =
        tally.inserted + tally.duplicates + (accepted dateParse rows).length ∧
      ∀ row ∈ rows, ∀ m, normalise dateParse row = .ok m → ∃ r ∈ stored ++ more, r.Same connection m := by
  induction rows generalizing index tally stored with
  | nil => exact ⟨tally, [], by simp [ingestRows, rejections, accepted]⟩
  | cons row rows ih =>
    obtain ⟨hrow, hrows⟩ := List.forall_mem_cons.mp h
    cases hnormal : normalise dateParse row with
    | error reason =>
      obtain ⟨tally', more, hrun, hrejected, hinserted, hcount, hstored⟩ :=
        @ih stored (index + 1) { tally with rejected := tally.rejected ++ [(index, reason)] } hrows
      refine ⟨tally', more, (ingestRows_rejected hnormal).trans hrun, ?_, hinserted, ?_, ?_⟩
      · rw [hrejected]
        simp [rejections, hnormal]
      · rw [hcount]
        simp [accepted, hnormal, Except.isOk, Except.toBool]
      · exact List.forall_mem_cons.mpr ⟨fun m hm => by simp [hnormal] at hm, hstored⟩
    | ok m =>
      have haccepted : (accepted dateParse (row :: rows)).length = (accepted dateParse rows).length + 1 := by
        simp [accepted, hnormal, Except.isOk, Except.toBool]
      have hreject : rejections dateParse index (row :: rows) = rejections dateParse (index + 1) rows := by
        simp [rejections, hnormal]
      rcases @storeMovement_ok connection m stored (hrow m hnormal) with ⟨⟨r, hr, hsame⟩, hstore⟩ |
        ⟨r, hsame, hstore⟩
      · obtain ⟨tally', more, hrun, hrejected, hinserted, hcount, hstored⟩ :=
          @ih stored (index + 1) { tally with duplicates := tally.duplicates + 1 } hrows
        dsimp only at hinserted hcount
        refine ⟨tally', more, (ingestRows_duplicate hnormal hstore).trans hrun, ?_, hinserted, ?_, ?_⟩
        · rw [hrejected, hreject]
        · rw [hcount, haccepted]
          omega
        · refine List.forall_mem_cons.mpr ⟨fun m' hm' => ?_, hstored⟩
          obtain rfl : m = m' := Except.ok.inj (hnormal.symm.trans hm')
          exact ⟨r, List.mem_append_left _ hr, hsame⟩
      · obtain ⟨tally', more, hrun, hrejected, hinserted, hcount, hstored⟩ :=
          @ih (stored ++ [r]) (index + 1) { tally with inserted := tally.inserted + 1 } hrows
        dsimp only at hinserted hcount
        rw [List.append_assoc, List.singleton_append] at hrun hstored
        refine ⟨tally', r :: more, (ingestRows_inserted hnormal hstore).trans hrun, ?_, ?_, ?_, ?_⟩
        · rw [hrejected, hreject]
        · rw [hinserted, List.length_cons]
          omega
        · rw [hcount, haccepted]
          omega
        · refine List.forall_mem_cons.mpr ⟨fun m' hm' => ?_, hstored⟩
          obtain rfl : m = m' := Except.ok.inj (hnormal.symm.trans hm')
          exact ⟨r, by simp, hsame⟩

/-- What is stored already comes to nothing but duplicates. -/
theorem ingestRows_again (h : ∀ row ∈ rows, row.Stored dateParse)
    (hstored : ∀ row ∈ rows, ∀ m, normalise dateParse row = .ok m → ∃ r ∈ stored, r.Same connection m) :
    ∃ tally', ingestRows dateParse connection index rows tally stored = (.ok tally', stored) ∧
      tally'.inserted = tally.inserted := by
  induction rows generalizing index tally with
  | nil => exact ⟨tally, rfl, rfl⟩
  | cons row rows ih =>
    obtain ⟨hrow, hrows⟩ := List.forall_mem_cons.mp h
    obtain ⟨hhere, hrest⟩ := List.forall_mem_cons.mp hstored
    cases hnormal : normalise dateParse row with
    | error reason =>
      obtain ⟨tally', hrun, hinserted⟩ :=
        @ih (index + 1) { tally with rejected := tally.rejected ++ [(index, reason)] } hrows hrest
      exact ⟨tally', (ingestRows_rejected hnormal).trans hrun, hinserted⟩
    | ok m =>
      have hstore : storeMovement connection m stored = .ok (false, stored) := by
        unfold storeMovement
        rw [hrow m hnormal]
        exact if_pos (hhere m hnormal)
      obtain ⟨tally', hrun, hinserted⟩ :=
        @ih (index + 1) { tally with duplicates := tally.duplicates + 1 } hrows hrest
      exact ⟨tally', (ingestRows_duplicate hnormal hstore).trans hrun, hinserted⟩

/-- A row that is accepted and does not fit ends the batch. -/
theorem ingestRows_error (h : ∃ row ∈ rows, ¬row.Stored dateParse) :
    ∃ e, (ingestRows dateParse connection index rows tally stored).1 = .error e := by
  induction rows generalizing index tally stored with
  | nil => simp at h
  | cons row rows ih =>
    cases hnormal : normalise dateParse row with
    | error reason =>
      rw [ingestRows_rejected hnormal]
      obtain ⟨row', hmem, hrow'⟩ := h
      rcases List.mem_cons.mp hmem with rfl | hmem
      · exact absurd (fun m hm => by simp [hnormal] at hm) hrow'
      · exact ih ⟨row', hmem, hrow'⟩
    | ok m =>
      cases hrefusal : m.refusal with
      | some e => exact ⟨_, congrArg Prod.fst (ingestRows_refused hnormal hrefusal)⟩
      | none =>
        have hrest : ∃ row ∈ rows, ¬row.Stored dateParse := by
          obtain ⟨row', hmem, hrow'⟩ := h
          rcases List.mem_cons.mp hmem with rfl | hmem
          · refine absurd (fun m' hm' => ?_) hrow'
            obtain rfl : m = m' := Except.ok.inj (hnormal.symm.trans hm')
            exact hrefusal
          · exact ⟨row', hmem, hrow'⟩
        rcases @storeMovement_ok connection m stored hrefusal with ⟨-, hstore⟩ | ⟨r, -, hstore⟩
        · rw [ingestRows_duplicate hnormal hstore]
          exact ih hrest
        · rw [ingestRows_inserted hnormal hstore]
          exact ih hrest

theorem ingest_eq (hrows : 1 ≤ rows.length ∧ rows.length ≤ MAX_MOVEMENTS_PER_CALL) :
    ingest dateParse connection rows stored = ingestRows dateParse connection 0 rows {} stored := by
  unfold ingest
  rw [if_neg (List.ne_nil_of_length_pos hrows.1), if_neg (by omega)]

end Batch

/-- A batch of the length that the schema allows is taken row by row exactly when every row that is accepted
fits the columns: an amount below 2^63 céntimos, a date in the years from 1 to 9999 if it is read, and no NUL
in what is kept of its description. -/
theorem ingest_iff (dateParse : String → Option Int) (connection : BankConnection) (rows : List Input)
    (stored : List StoredMovement) (hrows : 1 ≤ rows.length ∧ rows.length ≤ MAX_MOVEMENTS_PER_CALL) :
    Ingests dateParse connection rows stored ↔
      ∀ row ∈ rows, (∃ m, normalise dateParse row = .ok m) → row.Fits dateParse := by
  have hcondition : (∀ row ∈ rows, (∃ m, normalise dateParse row = .ok m) → row.Fits dateParse) ↔
      ∀ row ∈ rows, row.Stored dateParse := forall₂_congr fun row _ => stored_iff.symm
  rw [hcondition]
  constructor
  · rintro ⟨⟨tally, more, hrun, -⟩, -, -⟩
    by_contra hnot
    push Not at hnot
    obtain ⟨e, he⟩ := @ingestRows_error dateParse connection rows stored 0 {} hnot
    rw [← ingest_eq hrows, hrun] at he
    cases he
  · intro h
    obtain ⟨tally, more, hrun, hrejected, hinserted, hcount, hstored⟩ :=
      @ingestRows_ok dateParse connection rows stored 0 {} h
    rw [← ingest_eq hrows] at hrun
    have hbehind : (ingest dateParse connection rows stored).2 = stored ++ more := congrArg Prod.snd hrun
    refine ⟨⟨tally, more, hrun, by simpa using hrejected, by simpa using hinserted, by simpa using hcount, ?_⟩,
      hbehind ▸ hstored, ?_⟩
    · have hlen := @length_rejections dateParse rows 0
      rw [hrejected, hcount]
      simp only [List.nil_append]
      omega
    · obtain ⟨tally', hagain, hnone⟩ :=
        @ingestRows_again dateParse connection rows (stored ++ more) 0 {} h hstored
      rw [hbehind, ingest_eq hrows]
      exact ⟨tally', hagain, hnone⟩

/-- A statement of the bank's account. -/
def statementConnection : BankConnection := ⟨1, 1, true, true⟩

/-- What `Date.parse` reads in the rows below. -/
def septemberDates (text : String) : Option Int :=
  if text = "2026-09-01T12:00:00-04:00" then some 1788278400000 else none

/-- A movement of the first of September. -/
def septemberRow : Input where
  reference := some "0000 1234"
  amount := some "1.234,56"
  date := some "01/09/2026"

theorem septemberRow_fits : septemberRow.Fits septemberDates := by
  have hminor : septemberRow.minor = .ok 123456 := by decide +kernel
  have hdate : instant septemberDates (septemberRow.occurredAt <|> septemberRow.date) = some 1788278400000 := by
    decide +kernel
  refine ⟨fun n hn => ?_, fun t ht => ?_, fun text htext => ?_⟩
  · rw [hminor] at hn
    cases hn
    decide
  · rw [hdate] at ht
    cases ht
    decide
  · cases htext

theorem septemberRow_taken : Ingests septemberDates statementConnection
    [septemberRow, { septemberRow with reference := some "12" }] [] := by
  refine (ingest_iff septemberDates statementConnection _ [] (by decide)).mpr ?_
  refine List.forall_mem_cons.mpr ⟨fun _ => septemberRow_fits, List.forall_mem_cons.mpr ⟨?_, by simp⟩⟩
  rintro ⟨m, hm⟩
  have hshort : (normalise septemberDates { septemberRow with reference := some "12" }).isOk = false := by
    decide +kernel
  rw [hm] at hshort
  cases hshort

/-- One amount of twenty digits, and the row behind it is lost. -/
theorem great_amount_loses_batch : ¬Ingests septemberDates statementConnection
    [{ reference := some "00001234", amount := some "99999999999999999999" },
      { reference := some "00005678", amount := some "10,00" }] [] := by
  rintro ⟨⟨tally, more, hrun, -⟩, -, -⟩
  have he : (ingest septemberDates statementConnection
      [{ reference := some "00001234", amount := some "99999999999999999999" },
        { reference := some "00005678", amount := some "10,00" }] []).1 =
      .error (.database (.numericValueOutOfRange "amount_minor")) := by decide +kernel
  rw [hrun] at he
  cases he

end Splite.Bank
