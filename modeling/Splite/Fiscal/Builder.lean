import Splite.Fiscal.Allocation
import Splite.SplitEngine

/-!
# From a payment to a draft (`services/fiscalInvoiceBuilder.js`)

The amounts of a draft come from `allocatePayment`; its lines are spread below them afterwards.

* `buildDraft_ok`, `buildDraft_lines`: a draft declares what one payment draws from the state.
-/

namespace Splite

inductive LineBasis where
  | itemised
  | prorated
  | aggregate
  deriving DecidableEq, Repr

def LineBasis.text : LineBasis → String
  | .itemised => "ITEMISED"
  | .prorated => "PRORATED"
  | .aggregate => "AGGREGATE"

/-- A line of a bill, as `stateForBill` reads it; a check keeps its rate from being negative. -/
structure BillLine where
  id : Uuid
  name : String
  quantity : Int
  unitPriceMinor : Int
  subtotalMinor : Int
  taxCategory : TaxCategory
  vatBps : Nat
  deriving DecidableEq, Repr

/-- A line that a draft may list, with what of it this payment answers for. -/
structure SourceLine extends BillLine where
  shareMinor : Int
  fullMinor : Int
  deriving DecidableEq, Repr

/-- A row for `fiscal_invoice_lines`. -/
structure DraftLine where
  position : Int
  description : String
  quantityMilli : Int
  unitPriceMinor : Int
  taxCategory : TaxCategory
  vatBps : Int
  baseMinor : Int
  vatMinor : Int
  deriving DecidableEq, Repr

/-- A row for `fiscal_invoice_taxes`. -/
structure DraftTax where
  taxCategory : TaxCategory
  vatBps : Int
  baseMinor : Int
  vatMinor : Int
  deriving DecidableEq, Repr

/-- What `buildDraft` returns, but for the state that remains. -/
structure InvoiceDraft where
  lineBasis : LineBasis
  lines : List DraftLine
  taxes : List DraftTax
  subtotalMinor : Int
  vatMinor : Int
  serviceMinor : Int
  totalMinor : Int
  deriving DecidableEq, Repr

/-- `resolveLineBasis({ splitMode, participantShareMinor, paidMinor, claimedItems })`. -/
def resolveLineBasis (splitMode : Option SplitMode) (participantShareMinor : Option Int)
    (paidMinor : Int) (claimedItems : Option (List SourceLine)) : LineBasis :=
  if splitMode = some .items ∧ claimedItems.getD [] ≠ [] ∧ participantShareMinor = some paidMinor then
    .itemised
  else .prorated

/-- `compositionFor(groups, lines)`, of groups of pairwise different rates: what was claimed at each
rate, and nothing for the service. -/
def compositionFor (groups : List FiscalGroup) (lines : List SourceLine) : List Int :=
  (groups.map fun g => ((lines.filter (·.vatBps = g.vatBps)).map (·.shareMinor)).sum) ++ [0]

/-- `spreadAcrossLines(amount, lines)`. -/
def spreadAcrossLines (amount : Int) (lines : List SourceLine) : Except Err (List Int) :=
  let weights := lines.map (·.shareMinor)
  if lines = [] ∨ amount = 0 then .ok (lines.map fun _ => 0)
  else if ∀ w ∈ weights, w = 0 then allocate amount (lines.map fun _ => 1)
  else do
    let allocated ← allocate amount (weights.filter (0 < ·))
    return spread weights allocated

/-- The quantity of a line in thousandths, never zero. -/
def invoicedQuantity (line : SourceLine) (baseMinor : Int) : Int :=
  let quantityMilli :=
    if line.fullMinor > 0 then line.quantity * 1000 * baseMinor / line.fullMinor else 1000
  if quantityMilli > 0 then quantityMilli else 1

/-- The invoice's group at the rate of a line. -/
def groupAt (invoice : FiscalInvoice) (state : FiscalState) (rate : Nat) : FiscalGroup :=
  (((state.groups.zip invoice.groups).find? fun g => g.1.vatBps = rate).map (·.2)).getD ⟨rate, 0, 0⟩

/-- The lines of one rate, after the ones in `out`. -/
def rateLines (invoice : FiscalInvoice) (state : FiscalState) (sourceLines : List SourceLine)
    (out : List DraftLine) (rate : Nat) : Except Err (List DraftLine) := do
  let lines := sourceLines.filter (·.vatBps = rate)
  let group := groupAt invoice state rate
  let bases ← spreadAcrossLines group.baseMinor lines
  let vats ← spreadAcrossLines group.vatMinor lines
  return out ++ (lines.zip (bases.zip vats)).zipIdx.map fun (x, i) =>
    { position := out.length + i + 1
      description := x.1.name
      quantityMilli := invoicedQuantity x.1 x.2.1
      unitPriceMinor := x.1.unitPriceMinor
      taxCategory := x.1.taxCategory
      vatBps := rate
      baseMinor := x.2.1
      vatMinor := x.2.2 }

/-- `itemLines(invoice, state, sourceLines)`. -/
def itemLines (invoice : FiscalInvoice) (state : FiscalState) (sourceLines : List SourceLine) :
    Except Err (List DraftLine) :=
  ((sourceLines.map (·.vatBps)).dedup.insertionSort (· ≤ ·)).foldlM
    (rateLines invoice state sourceLines) []

/-- `aggregateLine(invoice, tableName)`. -/
def aggregateLine (invoice : FiscalInvoice) (tableName : Option String) : List DraftLine :=
  let baseMinor := (invoice.groups.map (·.baseMinor)).sum
  [{ position := 1
     description :=
      match tableName with
      | none | some "" => "Consumo — parte de una cuenta compartida"
      | some name => "Consumo — parte de la cuenta de la mesa " ++ name
     quantityMilli := 1000
     unitPriceMinor := baseMinor
     taxCategory := if invoice.groups.map (·.vatBps) = [0] then .exempt else .taxable
     vatBps :=
      match invoice.groups with
      | [g] => g.vatBps
      | _ => 0
     baseMinor
     vatMinor := (invoice.groups.map (·.vatMinor)).sum }]

/-- The breakdown of an invoice: a row for every rate that it declares anything at. -/
def draftTaxes (invoice : FiscalInvoice) : List DraftTax :=
  (invoice.groups.filter fun g => g.baseMinor > 0 ∨ g.vatMinor > 0).map fun g =>
    { taxCategory := if g.vatBps > 0 then .taxable else .exempt
      vatBps := g.vatBps
      baseMinor := g.baseMinor
      vatMinor := g.vatMinor }

/-- `buildDraft({ state, paidMinor, lineBasis, sourceLines, tableName })`, and the state that
remains. -/
def buildDraft (state : FiscalState) (paidMinor : Int) (lineBasis : LineBasis)
    (sourceLines : List SourceLine) (tableName : Option String) :
    Except Err (InvoiceDraft × FiscalState) := do
  if paidMinor > outstandingOf state then
    throw (.error "El pago supera lo que queda por declarar en esta cuenta")
  let composition :=
    if lineBasis = .itemised then some (compositionFor state.groups sourceLines) else none
  let (invoice, remaining) ← allocatePayment state paidMinor composition
  let lines ←
    if lineBasis = .aggregate then pure (aggregateLine invoice tableName)
    else itemLines invoice state sourceLines
  return ({ lineBasis, lines, taxes := draftTaxes invoice,
            subtotalMinor := (invoice.groups.map (·.baseMinor)).sum,
            vatMinor := (invoice.groups.map (·.vatMinor)).sum,
            serviceMinor := invoice.serviceMinor,
            totalMinor := invoice.totalMinor }, remaining)

/-- The amounts of a draft are those of the invoice that a payment draws. -/
structure InvoiceDraft.Of (draft : InvoiceDraft) (invoice : FiscalInvoice) : Prop where
  taxes : draft.taxes = draftTaxes invoice
  subtotal : draft.subtotalMinor = (invoice.groups.map (·.baseMinor)).sum
  vat : draft.vatMinor = (invoice.groups.map (·.vatMinor)).sum
  service : draft.serviceMinor = invoice.serviceMinor
  total : draft.totalMinor = invoice.totalMinor

/-- A draft declares what its payment draws, which is within what is outstanding, and lists it line by line
unless it is an aggregate. -/
theorem buildDraft_lines {state remaining : FiscalState} {paidMinor : Int} {lineBasis : LineBasis}
    {sourceLines : List SourceLine} {tableName : Option String} {draft : InvoiceDraft}
    (h : buildDraft state paidMinor lineBasis sourceLines tableName = .ok (draft, remaining)) :
    paidMinor ≤ outstandingOf state ∧ draft.lineBasis = lineBasis ∧ ∃ invoice,
      allocatePayment state paidMinor
        (if lineBasis = .itemised then some (compositionFor state.groups sourceLines) else none) =
          .ok (invoice, remaining) ∧ draft.Of invoice ∧
      (lineBasis ≠ .aggregate → itemLines invoice state sourceLines = .ok draft.lines) := by
  have hle : ¬paidMinor > outstandingOf state := by
    intro hover
    simp only [buildDraft, hover, if_true] at h
    cases h
  simp only [buildDraft, hle, if_false] at h
  obtain ⟨⟨invoice, remaining'⟩, hallocate, h⟩ := Except.bind_eq_ok.mp h
  refine ⟨not_lt.mp hle, ?_⟩
  split at h
  · rename_i haggregate
    obtain ⟨lines, -, h⟩ := Except.bind_eq_ok.mp h
    obtain ⟨rfl, rfl⟩ := Prod.mk.inj (Except.ok.inj h)
    exact ⟨rfl, invoice, hallocate, ⟨rfl, rfl, rfl, rfl, rfl⟩, fun hne => absurd haggregate hne⟩
  · obtain ⟨lines, hlines, h⟩ := Except.bind_eq_ok.mp h
    obtain ⟨rfl, rfl⟩ := Prod.mk.inj (Except.ok.inj h)
    exact ⟨rfl, invoice, hallocate, ⟨rfl, rfl, rfl, rfl, rfl⟩, fun _ => hlines⟩

/-- A draft declares what its payment draws, which is within what is outstanding. -/
theorem buildDraft_ok {state remaining : FiscalState} {paidMinor : Int} {lineBasis : LineBasis}
    {sourceLines : List SourceLine} {tableName : Option String} {draft : InvoiceDraft}
    (h : buildDraft state paidMinor lineBasis sourceLines tableName = .ok (draft, remaining)) :
    paidMinor ≤ outstandingOf state ∧ draft.lineBasis = lineBasis ∧ ∃ invoice,
      allocatePayment state paidMinor
        (if lineBasis = .itemised then some (compositionFor state.groups sourceLines) else none) =
          .ok (invoice, remaining) ∧ draft.Of invoice := by
  obtain ⟨hle, hbasis, invoice, hallocate, hof, -⟩ := buildDraft_lines h
  exact ⟨hle, hbasis, invoice, hallocate, hof⟩

end Splite
