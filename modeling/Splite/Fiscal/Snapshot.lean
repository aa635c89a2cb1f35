import Splite.Fiscal.Builder
import Splite.Lib.Js

/-!
# The draft that was sent (`serialiseDraft`, `reviveDraft` of `services/fiscalInvoicing.js`)

`draft_json` is a JSONB column: what the driver reads back is the tree that `JSON.stringify` was given,
whose fields are read by their names.

* `reviveDraft_serialiseDraft`: every field of a draft survives.
* `customerOf_serialiseDraft`: the customer is not among them.
-/

namespace Js.Json

/-! ## Fields -/

/-- The number that some decimal digits spell. -/
def digits? (digits : List Char) : Option Nat :=
  if digits ≠ [] ∧ digits.all Char.isDigit then some (Nat.ofDigitChars 10 digits 0) else none

/-- The number that a text spells. -/
def parseInteger (text : String) : Option Int :=
  match text.toList with
  | '-' :: digits => (digits? digits).map fun n : Nat => -(n : Int)
  | digits => (digits? digits).map fun n : Nat => (n : Int)

theorem digits?_toDigits (n : Nat) : digits? (Nat.toDigits 10 n) = some n := by
  have hall : (Nat.toDigits 10 n).all Char.isDigit := List.all_eq_true.mpr fun c hc =>
    Nat.isDigit_of_mem_toDigits (by decide) (by decide) hc
  rw [digits?, if_pos ⟨Nat.toDigits_ne_nil, hall⟩, Nat.ofDigitChars_ten_toDigits]

theorem parseInteger_toString (n : Int) : parseInteger (toString n) = some n := by
  rw [Int.toString_eq_repr, Int.repr_eq_if]
  split
  · rename_i hnonneg
    unfold parseInteger
    rw [Nat.toList_repr]
    split
    · -- The digits of a natural number do not begin with a sign.
      rename_i digits hsign
      have hdigit : ('-' : Char).isDigit := Nat.isDigit_of_mem_toDigits (b := 10) (by decide)
        (by decide) (hsign ▸ List.mem_cons_self)
      cases hdigit
    · rw [digits?_toDigits, Option.map_some, Int.toNat_of_nonneg hnonneg]
  · rename_i hneg
    have hlist : ("-" ++ (-n).toNat.repr).toList = '-' :: Nat.toDigits 10 (-n).toNat := by
      rw [String.toList_append, Nat.toList_repr]
      rfl
    unfold parseInteger
    rw [hlist]
    simp only [digits?_toDigits, Option.map_some, Option.some.injEq]
    omega

def text? : Option Json → Option String
  | some (.str s) => some s
  | _ => none

/-- `BigInt(value)` of a decimal text. -/
def bigInt? : Option Json → Option Int
  | some (.str s) => parseInteger s
  | _ => none

/-- A number that is written to an `INTEGER` column as it is. -/
def integer? : Option Json → Option Int
  | some (.num s) => parseInteger s
  | _ => none

def list? : Option Json → Option (List Json)
  | some (.arr elems) => some elems
  | _ => none

/-- `value.toString()` of a `BigInt`. -/
def ofBigInt (n : Int) : Json := .str (toString n)

def ofInteger (n : Int) : Json := .num (toString n)

@[simp] theorem text?_str (s : String) : text? (some (.str s)) = some s := rfl

@[simp] theorem bigInt?_ofBigInt (n : Int) : bigInt? (some (.ofBigInt n)) = some n :=
  parseInteger_toString n

@[simp] theorem integer?_ofInteger (n : Int) : integer? (some (.ofInteger n)) = some n :=
  parseInteger_toString n

@[simp] theorem list?_arr (elems : List Json) : list? (some (.arr elems)) = some elems := rfl

end Js.Json

namespace Splite

open Js (Json)

/-! ## Texts -/

def TaxCategory.text : TaxCategory → String
  | .taxable => "TAXABLE"
  | .exempt => "EXEMPT"
  | .exonerated => "EXONERATED"
  | .nonTaxable => "NON_TAXABLE"

def TaxCategory.ofText (s : String) : Option TaxCategory :=
  [.taxable, .exempt, .exonerated, .nonTaxable].find? fun c => c.text = s

def LineBasis.ofText (s : String) : Option LineBasis :=
  [.itemised, .prorated, .aggregate].find? fun b => b.text = s

@[simp] theorem TaxCategory.ofText_text (c : TaxCategory) : ofText c.text = some c := by
  cases c <;> decide

@[simp] theorem LineBasis.ofText_text (b : LineBasis) : ofText b.text = some b := by
  cases b <;> decide

/-! ## There and back -/

/-- The callback of `draft.lines.map`. -/
def serialiseLine (l : DraftLine) : Json :=
  .obj [("position", .ofInteger l.position), ("description", .str l.description),
    ("quantityMilli", .ofBigInt l.quantityMilli), ("unitPriceMinor", .ofBigInt l.unitPriceMinor),
    ("taxCategory", .str l.taxCategory.text), ("vatBps", .ofInteger l.vatBps),
    ("baseMinor", .ofBigInt l.baseMinor), ("vatMinor", .ofBigInt l.vatMinor)]

/-- The callback of `draft.taxes.map`. -/
def serialiseTax (t : DraftTax) : Json :=
  .obj [("taxCategory", .str t.taxCategory.text), ("vatBps", .ofInteger t.vatBps),
    ("baseMinor", .ofBigInt t.baseMinor), ("vatMinor", .ofBigInt t.vatMinor)]

/-- `serialiseDraft(draft)`. -/
def serialiseDraft (draft : InvoiceDraft) : Json :=
  .obj [("lineBasis", .str draft.lineBasis.text), ("subtotalMinor", .ofBigInt draft.subtotalMinor),
    ("vatMinor", .ofBigInt draft.vatMinor), ("serviceMinor", .ofBigInt draft.serviceMinor),
    ("totalMinor", .ofBigInt draft.totalMinor), ("lines", .arr (draft.lines.map serialiseLine)),
    ("taxes", .arr (draft.taxes.map serialiseTax))]

/-- The callback of `stored.lines.map`; `none` where it throws, or the row is refused. -/
def reviveLine (l : Json) : Option DraftLine := do
  return {
    position := ← Json.integer? (l.prop "position")
    description := ← Json.text? (l.prop "description")
    quantityMilli := ← Json.bigInt? (l.prop "quantityMilli")
    unitPriceMinor := ← Json.bigInt? (l.prop "unitPriceMinor")
    taxCategory := ← (Json.text? (l.prop "taxCategory")).bind TaxCategory.ofText
    vatBps := ← Json.integer? (l.prop "vatBps")
    baseMinor := ← Json.bigInt? (l.prop "baseMinor")
    vatMinor := ← Json.bigInt? (l.prop "vatMinor") }

/-- The callback of `stored.taxes.map`. -/
def reviveTax (t : Json) : Option DraftTax := do
  return {
    taxCategory := ← (Json.text? (t.prop "taxCategory")).bind TaxCategory.ofText
    vatBps := ← Json.integer? (t.prop "vatBps")
    baseMinor := ← Json.bigInt? (t.prop "baseMinor")
    vatMinor := ← Json.bigInt? (t.prop "vatMinor") }

/-- `reviveDraft(stored)`. -/
def reviveDraft (stored : Json) : Option InvoiceDraft := do
  return {
    lineBasis := ← (Json.text? (stored.prop "lineBasis")).bind LineBasis.ofText
    subtotalMinor := ← Json.bigInt? (stored.prop "subtotalMinor")
    vatMinor := ← Json.bigInt? (stored.prop "vatMinor")
    serviceMinor := ← Json.bigInt? (stored.prop "serviceMinor")
    totalMinor := ← Json.bigInt? (stored.prop "totalMinor")
    lines := ← (← Json.list? (stored.prop "lines")).mapM reviveLine
    taxes := ← (← Json.list? (stored.prop "taxes")).mapM reviveTax }

/-- Who an invoice is made out to. -/
structure Customer where
  name : Option String := none
  taxId : Option String := none
  email : Option String := none
  deriving DecidableEq, Repr

/-- `draft_json.customer ?? {}`, with `?? null` behind each of its fields. -/
def customerOf (stored : Json) : Customer :=
  match Json.coalesce (stored.prop "customer") none with
  | some c => ⟨Json.text? (c.prop "name"), Json.text? (c.prop "taxId"), Json.text? (c.prop "email")⟩
  | none => {}

@[simp] theorem reviveLine_serialiseLine (l : DraftLine) : reviveLine (serialiseLine l) = some l := by
  simp [reviveLine, serialiseLine, Json.prop]

@[simp] theorem reviveTax_serialiseTax (t : DraftTax) : reviveTax (serialiseTax t) = some t := by
  simp [reviveTax, serialiseTax, Json.prop]

/-- What every element survives, a list survives. -/
theorem mapM_revive {α : Type} {serialise : α → Json} {revive : Json → Option α}
    (h : ∀ a, revive (serialise a) = some a) (l : List α) :
    (l.map serialise).mapM revive = some l := by
  induction l with
  | nil => rfl
  | cons a l ih =>
    rw [List.map_cons, List.mapM_cons, h, ih]
    rfl

/-- Every field of a draft survives. -/
theorem reviveDraft_serialiseDraft (draft : InvoiceDraft) :
    reviveDraft (serialiseDraft draft) = some draft := by
  simp [reviveDraft, serialiseDraft, Json.prop, mapM_revive reviveLine_serialiseLine,
    mapM_revive reviveTax_serialiseTax]

/-- The customer is not stored. -/
theorem customerOf_serialiseDraft (draft : InvoiceDraft) :
    customerOf (serialiseDraft draft) = {} := by
  simp [customerOf, serialiseDraft, Json.prop, Json.coalesce]

end Splite
