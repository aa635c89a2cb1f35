import Mathlib.Data.Bool.AllAny
import Splite.Fiscal.Agreement
import Splite.Lib.Csv
import Splite.Lib.Decimal

/-!
# The month for the accountant (`services/fiscalExport.js`)

* `textCell_written`, `readMoney_money`: a text and an amount are read back from their cells.
* `OfDraft.balance`: the parts of a document under the columns of its row add up to its total.
* `buildCsv_decodes`: the file is read back row by row.
* `documents_drafted`: the documents of a run are as that asks for.
-/

namespace Splite

open Decimal

/-- A row of the query of `load`, with the taxes of the document. -/
structure ExportDoc where
  issuedDate : String
  documentType : DocumentType
  documentNumber : String
  controlNumber : String
  compensatesNumber : Option String
  customerTaxId : Option String
  customerName : Option String
  tableName : Option String
  provider : String
  serviceMinor : Int
  totalMinor : Int
  taxes : List DraftTax
  deriving DecidableEq, Repr

namespace FiscalExport

/-- `TYPE_LABEL`. -/
def typeLabel : DocumentType → String
  | .invoice => "Factura"
  | .creditNote => "Nota de crédito"
  | .debitNote => "Nota de débito"

/-- `money(minor, sign)`. -/
def money (minor sign : Int) : List Char :=
  let value := minor * sign
  let digits := (Nat.toDigits 10 value.natAbs).leftpad 3 '0'
  (if value < 0 then ['-'] else []) ++ digits.take (digits.length - 2) ++ ',' :: digits.drop (digits.length - 2)

/-- `rateLabel(bps)`. -/
def rateLabel (bps : Int) : String :=
  let whole := toString (bps.tdiv 100)
  let frac := ((toString (bps.tmod 100)).toList.leftpad 2 '0').rdropWhile (· = '0')
  if frac = [] then whole ++ "%" else whole ++ "," ++ String.ofList frac ++ "%"

/-- `[=+\-@\t\r]`. -/
def isFormula (c : Char) : Bool := ['=', '+', '-', '@', '\t', '\r'].contains c

/-- What a sheet would take for a formula, behind an apostrophe. -/
def neutral (s : List Char) : List Char := if s.head?.any isFormula then '\'' :: s else s

/-- `textCell(value)`. -/
def textCell (value : String) : List Char :=
  let s := neutral value.toList
  if s.any fun c => ['"', ';', '\n', '\r'].contains c then
    '"' :: (s.flatMap (fun c => if c = '"' then ['"', '"'] else [c]) ++ ['"'])
  else s

/-- The taxes that have a pair of columns. -/
def isTaxed (t : DraftTax) : Bool := t.taxCategory = .taxable ∧ 0 < t.vatBps

/-- `rates`, the highest first. -/
def rates (docs : List ExportDoc) : List Int :=
  (((docs.flatMap (·.taxes)).filter isTaxed).map (·.vatBps)).dedup.insertionSort (· ≥ ·)

def header (rates : List Int) : List String :=
  ["Fecha", "Tipo", "Nº documento", "Nº control", "Documento afectado", "RIF o cédula del cliente", "Cliente",
      "Mesa", "Exento o no sujeto (Bs)"] ++
    rates.flatMap (fun r => ["Base " ++ rateLabel r ++ " (Bs)", "IVA " ++ rateLabel r ++ " (Bs)"]) ++
    ["Servicio (Bs)", "Total (Bs)", "Documento de prueba"]

/-- An entry of `byRate`. -/
structure Slot where
  rate : Int
  base : Int
  vat : Int

/-- The body of the loop over the taxes of a document: `exempt` and `byRate`. -/
def addTax (sums : Int × List Slot) (t : DraftTax) : Int × List Slot :=
  if isTaxed t then
    (sums.1, sums.2.map fun slot =>
      if slot.rate = t.vatBps then { slot with base := slot.base + t.baseMinor, vat := slot.vat + t.vatMinor }
      else slot)
  else (sums.1 + t.baseMinor, sums.2)

/-- The texts of a row that come before its amounts. -/
def texts (d : ExportDoc) : List String :=
  [d.issuedDate, typeLabel d.documentType, d.documentNumber, d.controlNumber, d.compensatesNumber.getD "",
    d.customerTaxId.getD "",
    d.customerName.getD (if d.customerTaxId.getD "" = "" then "Consumidor final" else ""),
    d.tableName.getD ""]

/-- And the one that comes after them. -/
def testMark (d : ExportDoc) : String := if d.provider = "mock" then "Sí" else "No"

def sign (d : ExportDoc) : Int := if d.documentType = .creditNote then -1 else 1

/-- The cells of a document. -/
def row (rates : List Int) (d : ExportDoc) : List (List Char) :=
  let (exempt, byRate) := d.taxes.foldl addTax (0, rates.map fun r => ⟨r, 0, 0⟩)
  (texts d).map textCell ++ money exempt (sign d) ::
    (byRate.flatMap (fun slot => [money slot.base (sign d), money slot.vat (sign d)]) ++
      [money d.serviceMinor (sign d), money d.totalMinor (sign d), textCell (testMark d)])

/-- `lines`, the titles first. -/
def lines (docs : List ExportDoc) : List (List Char) :=
  [';'].intercalate ((header (rates docs)).map textCell) :: docs.map fun d => [';'].intercalate (row (rates docs) d)

/-- `buildCsv(docs)`. -/
def buildCsv (docs : List ExportDoc) : String :=
  String.ofList ('\uFEFF' :: (['\r', '\n'].intercalate (lines docs) ++ ['\r', '\n']))

example : String.ofList (textCell "=HYPERLINK(\"x\")") = "\"'=HYPERLINK(\"\"x\"\")\"" := by decide +kernel

example : String.ofList (money 150 (-1)) = "-1,50" := by decide +kernel

/-! ## Cells -/

section Cells

variable {s : List Char} {c : Char}

theorem marks : Csv.Marks ';' '"' := ⟨by decide, by decide, by decide, by decide, by decide⟩

theorem special_iff : Csv.Special ';' '"' c ↔ c ∈ ['"', ';', '\n', '\r'] := by
  simp only [Csv.Special, List.mem_cons, List.not_mem_nil, or_false]
  tauto

/-- A text is written in its cell, behind the apostrophe if it gets one. -/
theorem textCell_written (value : String) : Csv.Written ';' '"' (neutral value.toList) (textCell value) := by
  unfold textCell
  dsimp only
  split_ifs with hany
  · exact .quoted _
  · refine .bare fun c hc hspecial => hany (List.any_eq_true.mpr ⟨c, hc, ?_⟩)
    simpa using special_iff.mp hspecial

/-- A text as it is read: itself, or behind an apostrophe, and never a formula. -/
def Shows (value : String) (cell : List Char) : Prop :=
  (cell = value.toList ∨ cell = '\'' :: value.toList) ∧ ∀ c ∈ cell.head?, isFormula c = false

theorem shows_neutral (value : String) : Shows value (neutral value.toList) := by
  unfold neutral
  split_ifs with hformula
  · exact ⟨.inr rfl, by simp [isFormula]⟩
  · refine ⟨.inl rfl, fun c hc => ?_⟩
    rw [← Bool.not_eq_true]
    intro hc'
    exact hformula (by rw [Option.mem_def.mp hc]; exact hc')

/-- An amount as a sheet with a decimal comma reads it. -/
def readMoney (cell : List Char) : Option Int :=
  let negative := cell.head? = some '-'
  (plainParts (replaceFirst ',' '.' (if negative then cell.tail else cell))).map fun (whole, frac) =>
    (if negative then -1 else 1) * (value whole * 100 + hundredths frac : Nat)

/-- The digits of an amount: two behind the comma, and at least one before it. -/
theorem money_eq (minor sign : Int) : ∃ whole frac, whole ≠ [] ∧ IsDigits whole ∧ IsDigits frac ∧
    frac.length = 2 ∧ value whole * 100 + hundredths frac = (minor * sign).natAbs ∧
    money minor sign = (if minor * sign < 0 then ['-'] else []) ++ whole ++ ',' :: frac := by
  set n := (minor * sign).natAbs
  set digits := (Nat.toDigits 10 n).leftpad 3 '0' with hdef
  have hdigits : IsDigits digits := by
    intro c hc
    rcases List.mem_append.mp hc with hc | hc
    · rw [List.eq_of_mem_replicate hc]
      rfl
    · exact isDigits_toDigits n c hc
  have hlen : 3 ≤ digits.length := by
    rw [hdef, List.leftpad, List.length_append, List.length_replicate]
    omega
  have hvalue : value digits = n := by
    rw [hdef, List.leftpad, value_append, value_replicate_zero, Nat.zero_mul, Nat.zero_add, value_toDigits]
  have hsplit := List.take_append_drop (digits.length - 2) digits
  have hfrac : (digits.drop (digits.length - 2)).length = 2 := by
    rw [List.length_drop]
    omega
  refine ⟨digits.take (digits.length - 2), digits.drop (digits.length - 2), ?_,
    fun c hc => hdigits c (List.mem_of_mem_take hc), fun c hc => hdigits c (List.mem_of_mem_drop hc), hfrac,
    ?_, rfl⟩
  · refine List.ne_nil_of_length_pos ?_
    rw [List.length_take]
    omega
  · calc value (digits.take (digits.length - 2)) * 100 + hundredths (digits.drop (digits.length - 2))
        = value (digits.take (digits.length - 2) ++ digits.drop (digits.length - 2)) := by
          rw [value_append, hundredths_eq, hfrac, Nat.sub_self, Nat.pow_zero, Nat.mul_one,
            show 10 ^ 2 = 100 from rfl]
      _ = n := by rw [hsplit, hvalue]

/-- An amount is read back with its sign. -/
theorem readMoney_money (minor sign : Int) : readMoney (money minor sign) = some (minor * sign) := by
  obtain ⟨whole, frac, hne, hwhole, hfrac, hlen, hvalue, hmoney⟩ := money_eq minor sign
  have hread : plainParts (replaceFirst ',' '.' (whole ++ ',' :: frac)) = some (whole, frac) := by
    rw [replaceFirst_append (hwhole.not_mem rfl)]
    exact plainParts_eq_some.mpr ⟨⟨hne, hwhole, hfrac⟩, .inr ⟨rfl, by omega⟩⟩
  obtain ⟨d, ds, rfl⟩ := List.exists_cons_of_ne_nil hne
  have hd : d ≠ '-' := by
    rintro rfl
    exact absurd (hwhole _ List.mem_cons_self) (by decide)
  rw [hmoney]
  unfold readMoney
  by_cases hneg : minor * sign < 0
  · simp only [hneg, if_true, List.cons_append, List.nil_append, List.head?_cons, List.tail_cons] at hread ⊢
    rw [hread, Option.map_some, hvalue]
    congr 1
    omega
  · have hhead : (d :: ds ++ ',' :: frac).head? ≠ some '-' := by simpa using hd
    simp only [hneg, if_false, List.nil_append, hhead]
    rw [hread, Option.map_some, hvalue]
    congr 1
    omega

theorem money_written (minor sign : Int) : Csv.Written ';' '"' (money minor sign) (money minor sign) := by
  obtain ⟨whole, frac, -, hwhole, hfrac, -, -, hmoney⟩ := money_eq minor sign
  have hdigits : ∀ {l : List Char}, IsDigits l → ∀ c ∈ l, c ∉ ['"', ';', '\n', '\r'] := by
    intro l hl c hc hmem
    have hnone : ∀ c ∈ ['"', ';', '\n', '\r'], c.isDigit = false :=
      List.all_iff_forall_prop.mp (by decide)
    have hdigit := hl c hc
    simp [hnone c hmem] at hdigit
  refine .bare fun c hc hspecial => ?_
  have hmem := special_iff.mp hspecial
  rw [hmoney, List.mem_append, List.mem_append, List.mem_cons] at hc
  rcases hc with (hc | hc) | rfl | hc
  · split at hc
    · obtain rfl := List.mem_singleton.mp hc
      exact absurd hmem (by decide)
    · simp at hc
  · exact hdigits hwhole c hc hmem
  · exact absurd hmem (by decide)
  · exact hdigits hfrac c hc hmem

end Cells

/-! ## Rows -/

/-- The taxes of a document under the columns of a rate. -/
def taxedAt (d : ExportDoc) (rate : Int) : List DraftTax := (d.taxes.filter isTaxed).filter (·.vatBps = rate)

/-- What a document declares under each column, with its sign. -/
def exempt (d : ExportDoc) : Int := ((d.taxes.filter fun t => !isTaxed t).map (·.baseMinor)).sum * sign d

def baseUnder (d : ExportDoc) (rate : Int) : Int := ((taxedAt d rate).map (·.baseMinor)).sum * sign d

def vatUnder (d : ExportDoc) (rate : Int) : Int := ((taxedAt d rate).map (·.vatMinor)).sum * sign d

def service (d : ExportDoc) : Int := d.serviceMinor * sign d

def total (d : ExportDoc) : Int := d.totalMinor * sign d

def amounts (rates : List Int) (d : ExportDoc) : List Int :=
  exempt d :: (rates.flatMap (fun r => [baseUnder d r, vatUnder d r]) ++ [service d, total d])

/-- A row that is read back: as wide as the header, its texts shown, its amounts to the unit, and these
adding up. -/
structure Decodes (rates : List Int) (d : ExportDoc) (cells : List (List Char)) : Prop where
  width : cells.length = (header rates).length
  fields : ∃ front figures last, cells = front ++ figures ++ [last] ∧ List.Forall₂ Shows (texts d) front ∧
    figures.map readMoney = (amounts rates d).map some ∧ Shows (testMark d) last
  balance : exempt d + (rates.map fun r => baseUnder d r + vatUnder d r).sum + service d = total d

section Rows

variable {docs : List ExportDoc} {d : ExportDoc} {rates : List Int}

theorem addTax_of {t : DraftTax} (h : isTaxed t) (e : Int) (slots : List Slot) :
    addTax (e, slots) t = (e, slots.map fun slot =>
      if slot.rate = t.vatBps then { slot with base := slot.base + t.baseMinor, vat := slot.vat + t.vatMinor }
      else slot) :=
  if_pos h

theorem addTax_of_not {t : DraftTax} (h : ¬isTaxed t) (e : Int) (slots : List Slot) :
    addTax (e, slots) t = (e + t.baseMinor, slots) :=
  if_neg h

/-- What the loop over the taxes leaves. -/
theorem foldl_addTax : ∀ {taxes : List DraftTax} {e : Int} {slots : List Slot},
    taxes.foldl addTax (e, slots) = (e + ((taxes.filter fun t => !isTaxed t).map (·.baseMinor)).sum,
      slots.map fun slot =>
        ⟨slot.rate, slot.base + (((taxes.filter isTaxed).filter (·.vatBps = slot.rate)).map (·.baseMinor)).sum,
          slot.vat + (((taxes.filter isTaxed).filter (·.vatBps = slot.rate)).map (·.vatMinor)).sum⟩)
  | [], e, slots => by simp
  | t :: taxes, e, slots => by
    rw [List.foldl_cons]
    by_cases ht : isTaxed t = true
    · rw [addTax_of ht, foldl_addTax, List.filter_cons_of_neg (by simp [ht]), List.filter_cons_of_pos ht,
        List.map_map]
      refine Prod.ext rfl (List.map_congr_left fun slot _ => ?_)
      by_cases hrate : slot.rate = t.vatBps
      · simp [hrate, add_assoc]
      · simp [hrate, Ne.symm hrate]
    · rw [addTax_of_not ht, foldl_addTax, List.filter_cons_of_pos (by simpa using ht),
        List.filter_cons_of_neg ht]
      simp [add_assoc]

/-- The cells of a document: its amounts between its texts. -/
theorem row_eq (rates : List Int) (d : ExportDoc) : ∃ figures : List (List Char),
    row rates d = (texts d).map textCell ++ figures ++ [textCell (testMark d)] ∧
      List.Forall₂ (Csv.Written ';' '"') figures figures ∧
      figures.map readMoney = (amounts rates d).map some := by
  -- What the row is written from, before its sign.
  let minors := ((d.taxes.filter fun t => !isTaxed t).map (·.baseMinor)).sum ::
    (rates.flatMap (fun r => [((taxedAt d r).map (·.baseMinor)).sum, ((taxedAt d r).map (·.vatMinor)).sum]) ++
      [d.serviceMinor, d.totalMinor])
  refine ⟨minors.map (money · (sign d)), ?_, ?_, ?_⟩
  · unfold row
    rw [foldl_addTax]
    simp [minors, taxedAt, List.flatMap_map, List.map_flatMap]
  · rw [List.forall₂_same]
    intro cell hcell
    obtain ⟨minor, -, rfl⟩ := List.mem_map.mp hcell
    exact money_written minor (sign d)
  · have hread : (readMoney ∘ fun minor => money minor (sign d)) = fun minor => some (minor * sign d) :=
      funext fun minor => readMoney_money minor (sign d)
    rw [List.map_map, hread]
    simp [minors, amounts, exempt, baseUnder, vatUnder, service, total, List.map_flatMap]

/-- As many cells as titles. -/
theorem row_length (rates : List Int) (d : ExportDoc) : (row rates d).length = (header rates).length := by
  unfold row header
  rw [foldl_addTax]
  simp [texts, List.length_flatMap, Function.comp_def]

/-- The cells of a row are written from what it is read as. -/
theorem row_written (rates : List Int) (d : ExportDoc) : ∃ cells,
    List.Forall₂ (Csv.Written ';' '"') cells (row rates d) ∧ cells.length = (header rates).length ∧
      ∃ front figures last, cells = front ++ figures ++ [last] ∧ List.Forall₂ Shows (texts d) front ∧
        figures.map readMoney = (amounts rates d).map some ∧ Shows (testMark d) last := by
  obtain ⟨figures, hrow, hwritten, hread⟩ := row_eq rates d
  have htexts : List.Forall₂ (Csv.Written ';' '"') ((texts d).map fun t => neutral t.toList)
      ((texts d).map textCell) := by
    rw [List.forall₂_map_left_iff, List.forall₂_map_right_iff, List.forall₂_same]
    exact fun t _ => textCell_written t
  have hshows : List.Forall₂ Shows (texts d) ((texts d).map fun t => neutral t.toList) := by
    rw [List.forall₂_map_right_iff, List.forall₂_same]
    exact fun t _ => shows_neutral t
  have hcells : List.Forall₂ (Csv.Written ';' '"')
      (((texts d).map fun t => neutral t.toList) ++ figures ++ [neutral (testMark d).toList]) (row rates d) := by
    rw [hrow]
    exact List.rel_append (List.rel_append htexts hwritten) (.cons (textCell_written (testMark d)) .nil)
  exact ⟨_, hcells, hcells.length_eq.trans (row_length rates d), _, figures, _, rfl, hshows, hread,
    shows_neutral _⟩

end Rows

/-! ## What a document declares -/

/-- A draft is built from what earlier documents, none of which declares a negative VAT, leave of a bill. -/
def Drafted (draft : InvoiceDraft) : Prop :=
  ∃ (s : Db) (bill : Bill) (state : FiscalState) (documents : List FiscalDocument) (paidMinor : Int)
    (lineBasis : LineBasis) (lines : List SourceLine) (tableName : Option String) (remaining : FiscalState),
    initialState s bill = .ok state ∧ (∀ d ∈ documents, d.VatNonneg) ∧
      buildDraft (state.less documents) paidMinor lineBasis lines tableName = .ok (draft, remaining)

/-- The taxes and the totals of a document are those of a draft. -/
def OfDraft (d : ExportDoc) : Prop :=
  ∃ draft, Drafted draft ∧ d.taxes = draft.taxes ∧ d.serviceMinor = draft.serviceMinor ∧
    d.totalMinor = draft.totalMinor

section Declared

variable {draft : InvoiceDraft} {d : ExportDoc} {rates : List Int} {docs : List ExportDoc}

theorem allocatePayment_zero {state remaining : FiscalState} {composition : Option (List Int)}
    {invoice : FiscalInvoice} (h : allocatePayment state 0 composition = .ok (invoice, remaining)) :
    draftTaxes invoice = [] ∧ invoice.serviceMinor = 0 ∧ invoice.totalMinor = 0 := by
  by_cases hover : 0 > outstandingOf state
  · simp [allocatePayment, hover] at h
  · simp only [allocatePayment, lt_irrefl, if_false, hover, if_true] at h
    obtain ⟨rfl, -⟩ := Prod.mk.inj (Except.ok.inj h)
    exact ⟨by simp [draftTaxes], rfl, rfl⟩

/-- The rows of a draft that are not taxed have no VAT, and with the service all of them make its total. -/
theorem Drafted.adds (h : Drafted draft) : (∀ t ∈ draft.taxes, ¬isTaxed t → t.vatMinor = 0) ∧
    (draft.taxes.map fun t => t.baseMinor + t.vatMinor).sum + draft.serviceMinor = draft.totalMinor := by
  obtain ⟨s, bill, state, documents, paidMinor, lineBasis, lines, tableName, remaining, hstate, hdocuments,
    hbuild⟩ := h
  have hzero := (initialState_zeroRated hstate).less hdocuments
  obtain ⟨-, -, invoice, hallocate, hof⟩ := buildDraft_ok hbuild
  have hrate : ∀ t ∈ draft.taxes, ¬isTaxed t → ∃ g ∈ invoice.groups, g.vatBps = 0 ∧ t.vatMinor = g.vatMinor := by
    intro t ht hnot
    rw [hof.taxes] at ht
    obtain ⟨g, hg, rfl⟩ := List.mem_map.mp ht
    refine ⟨g, (List.mem_filter.mp hg).1, ?_, rfl⟩
    by_contra hne
    have hpos : 0 < g.vatBps := Nat.pos_of_ne_zero hne
    exact hnot (by simp [isTaxed, hpos])
  rcases lt_trichotomy paidMinor 0 with hneg | rfl | hpos
  · simp [allocatePayment, hneg] at hallocate
  · -- Nothing is paid, and nothing declared.
    obtain ⟨htaxes, hservice, htotal⟩ := allocatePayment_zero hallocate
    simp [hof.taxes, hof.service, hof.total, htaxes, hservice, htotal]
  · refine ⟨fun t ht hnot => ?_, (buildDraft_whole hpos hbuild).total.symm⟩
    obtain ⟨g, hg, hg0, hvat⟩ := hrate t ht hnot
    obtain ⟨_, parts, -, -, -, -, hdeclares, -, -⟩ := allocatePayment_declares hpos hallocate
    obtain ⟨i, hi, rfl⟩ := List.getElem_of_mem hg
    obtain ⟨hlen, hget⟩ := List.forall₂_iff_get.mp hdeclares
    have hd := hget i (hlen ▸ hi) hi
    rw [hvat]
    refine hd.noVat (hzero _ ?_ ?_)
    · exact (List.of_mem_zip (List.getElem_mem (hlen ▸ hi))).1
    · exact hd.rate.symm.trans hg0

/-- Under columns for all its rates the amounts of a document add up to its total. -/
theorem OfDraft.balance (h : OfDraft d) (hrates : rates.Nodup)
    (hall : ∀ t ∈ d.taxes, isTaxed t → t.vatBps ∈ rates) :
    exempt d + (rates.map fun r => baseUnder d r + vatUnder d r).sum + service d = total d := by
  obtain ⟨draft, hdraft, htaxes, hservice, htotal⟩ := h
  obtain ⟨hexempt, hadds⟩ := hdraft.adds
  rw [← htaxes] at hexempt hadds
  -- The taxed rows are the ones under the columns, and of the others only the base counts.
  have htaxed : (rates.map fun r => ((taxedAt d r).map fun t => t.baseMinor + t.vatMinor).sum).sum =
      ((d.taxes.filter isTaxed).map fun t => t.baseMinor + t.vatMinor).sum := by
    have hsum := sum_at_keys DraftTax.vatBps (d.taxes.filter isTaxed) (fun t => t.baseMinor + t.vatMinor) hrates
    have hnone : (d.taxes.filter isTaxed).filter (fun t => t.vatBps ∉ rates) = [] := by
      refine List.filter_eq_nil_iff.mpr fun t ht hnot => ?_
      obtain ⟨ht, htax⟩ := List.mem_filter.mp ht
      exact (of_decide_eq_true hnot) (hall t ht htax)
    rw [hnone] at hsum
    simpa [taxedAt] using hsum
  have hother : ((d.taxes.filter fun t => !isTaxed t).map fun t => t.baseMinor + t.vatMinor).sum =
      ((d.taxes.filter fun t => !isTaxed t).map (·.baseMinor)).sum := by
    refine congrArg List.sum (List.map_congr_left fun t ht => ?_)
    obtain ⟨ht, hnot⟩ := List.mem_filter.mp ht
    rw [hexempt t ht (by simpa using hnot), add_zero]
  have hsplit : ((d.taxes.filter isTaxed).map fun t => t.baseMinor + t.vatMinor).sum +
      ((d.taxes.filter fun t => !isTaxed t).map fun t => t.baseMinor + t.vatMinor).sum =
        (d.taxes.map fun t => t.baseMinor + t.vatMinor).sum := by
    rw [← List.sum_append, ← List.map_append]
    exact ((List.filter_append_perm isTaxed d.taxes).map _).sum_eq
  have hcolumns : (rates.map fun r => baseUnder d r + vatUnder d r).sum =
      (rates.map fun r => ((taxedAt d r).map fun t => t.baseMinor + t.vatMinor).sum).sum * sign d := by
    rw [← List.sum_map_mul_right]
    refine congrArg List.sum (List.map_congr_left fun r _ => ?_)
    rw [baseUnder, vatUnder, List.sum_map_add, add_mul]
  rw [hcolumns, htaxed, exempt, service, total, htotal, ← hadds, ← hsplit, hother, hservice]
  ring

theorem rates_nodup (docs : List ExportDoc) : (FiscalExport.rates docs).Nodup :=
  (List.perm_insertionSort _ _).nodup_iff.mpr (List.nodup_dedup _)

theorem mem_rates (hd : d ∈ docs) {t : DraftTax} (ht : t ∈ d.taxes) (htax : isTaxed t) :
    t.vatBps ∈ FiscalExport.rates docs := by
  refine (List.perm_insertionSort _ _).mem_iff.mpr (List.mem_dedup.mpr (List.mem_map.mpr ⟨t, ?_, rfl⟩))
  exact List.mem_filter.mpr ⟨List.mem_flatMap.mpr ⟨d, hd, ht⟩, htax⟩

/-- No title is taken for a formula. -/
theorem neutral_header (rates : List Int) : ∀ t ∈ header rates, neutral t.toList = t.toList := by
  intro t ht
  unfold neutral
  refine if_neg ?_
  simp only [header, List.mem_append, List.mem_flatMap] at ht
  rcases ht with (ht | ⟨r, -, ht⟩) | ht
  · revert t
    decide
  · simp only [List.mem_cons, List.not_mem_nil, or_false] at ht
    rcases ht with rfl | rfl
    · simp [isFormula]
    · simp [isFormula]
  · revert t
    decide

end Declared

/-- The file is read back, behind the mark of its encoding: the titles, and for each document one row, which
decodes to it. -/
theorem buildCsv_decodes (docs : List ExportDoc) (h : ∀ d ∈ docs, OfDraft d) :
    ∃ text rows, (buildCsv docs).toList = '\uFEFF' :: text ∧
      Csv.read ';' '"' text = some ((header (rates docs)).map String.toList :: rows) ∧
      List.Forall₂ (Decodes (rates docs)) docs rows := by
  have hheader : Csv.Line ';' '"' ((header (rates docs)).map String.toList)
      ([';'].intercalate ((header (rates docs)).map textCell)) := by
    refine ⟨by simp [header], _, ?_, rfl⟩
    rw [List.forall₂_map_left_iff, List.forall₂_map_right_iff, List.forall₂_same]
    intro t ht
    have hwritten := textCell_written t
    rwa [neutral_header (rates docs) t ht] at hwritten
  choose cells hwritten hwidth hfields using row_written (rates docs)
  have hlines : List.Forall₂ (Csv.Line ';' '"') (docs.map cells)
      (docs.map fun d => [';'].intercalate (row (rates docs) d)) := by
    rw [List.forall₂_map_left_iff, List.forall₂_map_right_iff, List.forall₂_same]
    intro d _
    refine ⟨List.ne_nil_of_length_pos ?_, _, hwritten d, rfl⟩
    rw [hwidth, header, List.append_assoc]
    simp
  refine ⟨['\r', '\n'].intercalate (lines docs) ++ ['\r', '\n'], docs.map cells, ?_, ?_, ?_⟩
  · simp [buildCsv]
  · exact Csv.read_join marks (by simp [lines]) (.cons hheader hlines)
  · rw [List.forall₂_map_right_iff, List.forall₂_same]
    exact fun d hd => ⟨hwidth d, hfields d,
      (h d hd).balance (rates_nodup docs) fun t ht htax => mem_rates hd ht htax⟩

/-- A credit note for a supper of one taxed dish and an exempt one, to a customer with a name of her own. -/
def creditNote : ExportDoc where
  issuedDate := "30/09/2026"
  documentType := .creditNote
  documentNumber := "NC-1"
  controlNumber := "00-00000002"
  compensatesNumber := some "F-00000001"
  customerTaxId := some "V12345678"
  customerName := some "=Ana; \"la de siempre\""
  tableName := some "Mesa 12"
  provider := "own"
  serviceMinor := 0
  totalMinor := 21600
  taxes := [⟨.exempt, 0, 10000, 0⟩, ⟨.taxable, 1600, 10000, 1600⟩]

example : String.ofList ([';'].intercalate (row [1600] creditNote)) =
    "30/09/2026;Nota de crédito;NC-1;00-00000002;F-00000001;V12345678;\"'=Ana; \"\"la de siempre\"\"\";" ++
      "Mesa 12;-100,00;-100,00;-16,00;0,00;-216,00;No" := by
  decide +kernel

theorem creditNote_ofDraft : OfDraft creditNote := by
  refine ⟨⟨.aggregate, [⟨1, "Consumo — parte de una cuenta compartida", 1000, 20000, .taxable, 0, 20000, 1600⟩],
    creditNote.taxes, 20000, 1600, 0, 21600⟩, ?_, rfl, rfl, rfl⟩
  exact ⟨dinner.ledger.db, dinnerBill, ⟨[⟨0, 10000, 0⟩, ⟨1600, 10000, 1600⟩], 0⟩, [], 21600, .aggregate, [],
    none, ⟨[⟨0, 0, 0⟩, ⟨1600, 0, 0⟩], 0⟩, by decide +kernel, by simp, by decide +kernel⟩

theorem creditNote_decodes : ∃ text rows, (buildCsv [creditNote]).toList = '\uFEFF' :: text ∧
    Csv.read ';' '"' text = some ((header (rates [creditNote])).map String.toList :: rows) ∧
    List.Forall₂ (Decodes (rates [creditNote])) [creditNote] rows :=
  buildCsv_decodes [creditNote] fun _ hd => List.mem_singleton.mp hd ▸ creditNote_ofDraft

/-! ## The documents of a run -/

/-- Every document of a run of the restaurant and the fiscal service is drafted so. -/
theorem documents_drafted (floor : Floor) (registry : List String) (series : Table FiscalSeries)
    (issuers : Table Issuer) (splitItems : List SplitItem) (ops : List FiscalOp) :
    let w := FiscalWorld.start floor registry series issuers splitItems
    ∀ d ∈ (invoicing.run w ops).fiscal.documents, Drafted d.toInvoiceDraft := by
  intro w d hd
  obtain ⟨before, op, after, args, -, hbuilds, -, -⟩ :=
    FiscalWorld.provenance floor registry series issuers splitItems ops d hd
  have hsound : VatSound (invoicing.run w before) :=
    Machine.invariant (I := VatSound) (G := fun _ _ => True) (fun _ op h _ => h.step op)
      ⟨.start .., .start ..⟩ (Machine.every_input.mpr fun _ _ => trivial)
  obtain ⟨tableName, prepared, hprepared, hdraft⟩ := prepared_of_builds hbuilds
  obtain ⟨state, payment, hfrom⟩ := prepareDraft_ok hprepared
  obtain ⟨lineBasis, lines, tableName', remaining, hbuild⟩ := hfrom.draft
  rw [← hdraft]
  refine ⟨_, prepared.bill, state, _, payment.amountVes, lineBasis, lines, tableName', remaining, hfrom.initial,
    fun d hd => (hsound.2.document d ?_).2, hbuild⟩
  exact (List.mem_filter.mp hd).1

end FiscalExport

end Splite
