import Splite.Fiscal.Snapshot
import Splite.Lib.Tx

/-!
# Requests and documents (`migrations/039` to `045`, `services/fiscalNumbering.js`)

The tables of the fiscal service, their checks and indexes, and the transaction that writes a document:
its rows, its numbers, the status of its request and the delivery of its mail.

* `persistIssued_ok`: what `persistIssued` writes.
* `persistIssued_commits`: when it commits.
* `Numbering.allocate_ok`: the numbers that `allocate` hands out, and when.
-/

namespace Splite

open Js (Json)

inductive FiscalStatus where
  | pending
  | sent
  | issued
  | failed
  | uncertain
  deriving DecidableEq, Repr

def FiscalStatus.text : FiscalStatus → String
  | .pending => "PENDING"
  | .sent => "SENT"
  | .issued => "ISSUED"
  | .failed => "FAILED"
  | .uncertain => "UNCERTAIN"

inductive DocumentType where
  | invoice
  | creditNote
  | debitNote
  deriving DecidableEq, Repr

def DocumentType.text : DocumentType → String
  | .invoice => "INVOICE"
  | .creditNote => "CREDIT_NOTE"
  | .debitNote => "DEBIT_NOTE"

/-! ## Rows -/

/-- A row of `fiscal_invoice_requests`; the ones that the code inserts are for a payment. -/
structure FiscalRequest where
  id : Uuid
  restaurantId : Uuid
  billId : Uuid
  paymentId : Uuid
  status : FiscalStatus
  idempotencyKey : String
  provider : String
  attempts : Nat
  lastErrorCode : Option String
  draftJson : Option Json

/-- Two requests that are not `FAILED` are for different payments. -/
def FiscalRequest.live (q : FiscalRequest) : Prop := q.status ≠ .failed

instance (q : FiscalRequest) : Decidable q.live := inferInstanceAs (Decidable (_ ≠ _))

/-- The unique index on which two different rows collide. -/
def FiscalRequest.clash (q r : FiscalRequest) : Option String :=
  if q.paymentId = r.paymentId ∧ q.live ∧ r.live then some "fiscal_requests_payment_idx"
  else if q.restaurantId = r.restaurantId ∧ q.idempotencyKey = r.idempotencyKey then
    some "fiscal_requests_idempotency_idx"
  else none

/-- A row of `fiscal_invoices` with its rows of `fiscal_invoice_lines` and `fiscal_invoice_taxes`: they
are inserted with it, and no trigger lets any of them change. -/
structure FiscalDocument extends InvoiceDraft where
  id : Uuid
  restaurantId : Uuid
  requestId : Uuid
  billId : Uuid
  paymentId : Uuid
  documentType : DocumentType
  documentNumber : String
  controlNumber : String
  provider : String
  providerDocumentId : Option String
  fxRateVesPerUnit : Option Int
  customer : Customer
  issuedAt : Time
  deriving DecidableEq, Repr

def DraftLine.violated (l : DraftLine) : Option String :=
  if l.baseMinor < 0 ∨ l.vatMinor < 0 ∨ l.quantityMilli ≤ 0 then
    some "fiscal_invoice_lines_amounts_check"
  else none

def DraftTax.violated (t : DraftTax) : Option String :=
  if t.baseMinor < 0 ∨ t.vatMinor < 0 ∨ t.vatBps < 0 ∨ 10000 < t.vatBps then
    some "fiscal_invoice_taxes_amounts_check"
  else none

/-- The first check that the rows of a draft break. -/
def InvoiceDraft.violated (d : InvoiceDraft) : Option String :=
  if d.totalMinor ≠ d.subtotalMinor + d.vatMinor + d.serviceMinor then
    some "fiscal_invoices_total_check"
  else if d.subtotalMinor < 0 ∨ d.vatMinor < 0 ∨ d.serviceMinor < 0 then
    some "fiscal_invoices_amounts_check"
  else (d.lines.findSome? DraftLine.violated).or (d.taxes.findSome? DraftTax.violated)

/-- The unique index on which two different documents collide. -/
def FiscalDocument.clash (d e : FiscalDocument) : Option String :=
  if d.requestId = e.requestId then some "fiscal_invoices_request_id_key"
  else if d.restaurantId = e.restaurantId ∧ d.controlNumber = e.controlNumber then
    some "fiscal_invoices_control_unique_idx"
  else if d.restaurantId = e.restaurantId ∧ d.documentType = e.documentType ∧
      d.documentNumber = e.documentNumber then
    some "fiscal_invoices_document_unique_idx"
  else none

/-- A row of `fiscal_invoice_deliveries`, as it is inserted. -/
structure FiscalDelivery where
  id : Uuid
  restaurantId : Uuid
  invoiceId : Uuid
  email : String
  deriving DecidableEq, Repr

/-- A number that a counter may hold. -/
abbrev Correlative := { n : Int // 1 ≤ n }

def Correlative.next (n : Correlative) : Correlative := ⟨n.1 + 1, by have := n.2; omega⟩

/-- A row of `fiscal_series`. -/
structure FiscalSeries where
  restaurantId : Uuid
  controlPrefix : String
  documentPrefix : String
  padTo : Nat
  controlFirst : Correlative
  controlLast : Option Int
  deriving DecidableEq, Repr

/-- A row of `fiscal_counters`. -/
structure FiscalCounter where
  restaurantId : Uuid
  scope : String
  nextValue : Correlative
  deriving DecidableEq, Repr

/-- What the fiscal service reads of a row of `restaurants`. -/
structure Issuer where
  restaurantId : Uuid
  rif : Option String
  deriving DecidableEq, Repr

/-- A row of `bill_split_items`. -/
structure SplitItem where
  splitId : Uuid
  billItemId : Uuid
  participantId : Uuid
  deriving DecidableEq, Repr

instance : Keyed FiscalRequest Uuid := ⟨FiscalRequest.id⟩
instance : Keyed FiscalDocument Uuid := ⟨FiscalDocument.id⟩
instance : Keyed FiscalDelivery Uuid := ⟨FiscalDelivery.id⟩
instance : Keyed FiscalSeries Uuid := ⟨FiscalSeries.restaurantId⟩
instance : Keyed FiscalCounter (Uuid × String) := ⟨fun c => (c.restaurantId, c.scope)⟩
instance : Keyed Issuer Uuid := ⟨Issuer.restaurantId⟩

/-- The tables of the fiscal service, and what it reads that the ledger does not hold. -/
structure FiscalDb where
  requests : Table FiscalRequest
  documents : Table FiscalDocument
  deliveries : Table FiscalDelivery
  series : Table FiscalSeries
  counters : Table FiscalCounter
  issuers : Table Issuer
  splitItems : List SplitItem

instance : Rollback FiscalDb := ⟨fun before _ => before⟩

@[simp] theorem rollback_fiscal {s s' : FiscalDb} : Rollback.rollback s s' = s := rfl

/-- The unique index that refuses `q` beside the other rows. -/
def FiscalDb.requestClash (s : FiscalDb) (q : FiscalRequest) : Option String :=
  s.requests.rows.findSome? fun r => if r.id = q.id then none else q.clash r

def FiscalDb.documentClash (s : FiscalDb) (d : FiscalDocument) : Option String :=
  s.documents.rows.findSome? fun e => if e.id = d.id then none else d.clash e

/-! ## Statements -/

/-- `INSERT INTO fiscal_invoice_requests …`. -/
def insertRequest (row : FiscalRequest) : Tx Err FiscalDb Unit := do
  let s ← get
  let requests ← Tx.orThrow (s.requests.insert? row)
    (.uniqueViolation "fiscal_invoice_requests_pkey")
  Tx.forbid (s.requestClash row) .uniqueViolation
  set { s with requests }

/-- `UPDATE fiscal_invoice_requests SET … WHERE id = $1`. -/
def updateRequest (id : Uuid) (f : FiscalRequest → FiscalRequest) (hf : ∀ q, (f q).id = q.id) :
    Tx Err FiscalDb Unit := do
  let s ← get
  Tx.forbid ((s.requests.find? id).bind fun q => s.requestClash (f q)) .uniqueViolation
  set { s with requests := s.requests.update id f hf }

/-- `INSERT INTO fiscal_invoices …`, with the lines and the breakdown. -/
def insertDocument (row : FiscalDocument) : Tx Err FiscalDb Unit := do
  let s ← get
  Tx.forbid row.violated .checkViolation
  let documents ← Tx.orThrow (s.documents.insert? row) (.uniqueViolation "fiscal_invoices_pkey")
  Tx.forbid (s.documentClash row) .uniqueViolation
  set { s with documents }

/-! ## Numbering -/

namespace Numbering

def CONTROL : String := "CONTROL"

/-- `format(prefix, value, padTo)`. -/
def format (text : String) (value : Correlative) (padTo : Nat) : String :=
  text ++ String.ofList ((toString value.1).toList.leftpad padTo '0')

/-- `takeCounter(client, { restaurantId, scope, startAt })`. -/
def takeCounter (restaurantId : Uuid) (scope : String) (startAt : Correlative) :
    Tx Err FiscalDb Correlative := do
  let s ← get
  match s.counters.find? (restaurantId, scope) with
  | some c => return c.nextValue
  | none =>
    let counters ← Tx.orThrow (s.counters.insert? ⟨restaurantId, scope, startAt⟩)
      (.uniqueViolation "fiscal_counters_pkey")
    set { s with counters }
    return startAt

/-- `bumpCounter(client, { restaurantId, scope, to })`. -/
def bumpCounter (restaurantId : Uuid) (scope : String) (value : Correlative) : Tx Err FiscalDb Unit :=
  modify fun s => { s with
    counters := s.counters.update (restaurantId, scope) (fun c => { c with nextValue := value })
      fun _ => rfl }

structure Numbers where
  controlNumber : String
  documentNumber : String
  deriving DecidableEq, Repr

/-- `allocate(client, { restaurantId, documentType })`. -/
def allocate (restaurantId : Uuid) (documentType : DocumentType) : Tx Err FiscalDb Numbers := do
  let s ← get
  let series ← Tx.orThrow (s.series.find? restaurantId)
    (.api .fiscalSeriesMissing "This restaurant has no authorised invoice series configured" [])
  let control ← takeCounter restaurantId CONTROL series.controlFirst
  Tx.require (∀ last ∈ series.controlLast, control.1 ≤ last)
    (.api .fiscalRangeExhausted "The authorised control-number range is exhausted"
      [("lastAuthorised", toString (series.controlLast.getD 0))])
  let document ← takeCounter restaurantId documentType.text ⟨1, le_rfl⟩
  bumpCounter restaurantId CONTROL control.next
  bumpCounter restaurantId documentType.text document.next
  return ⟨format series.controlPrefix control series.padTo,
    format series.documentPrefix document series.padTo⟩

/-- Where a counter is; one that is not there yet begins at `startAt`. -/
def nextValue (s : FiscalDb) (restaurantId : Uuid) (scope : String) (startAt : Correlative) :
    Correlative :=
  ((s.counters.find? (restaurantId, scope)).map (·.nextValue)).getD startAt

/-- The numbers that are next, of a restaurant whose series is there and has not come to its end. -/
def numbers? (s : FiscalDb) (restaurantId : Uuid) (documentType : DocumentType) : Option Numbers := do
  let series ← s.series.find? restaurantId
  let control := nextValue s restaurantId CONTROL series.controlFirst
  let document := nextValue s restaurantId documentType.text ⟨1, le_rfl⟩
  if ∀ last ∈ series.controlLast, control.1 ≤ last then
    some ⟨format series.controlPrefix control series.padTo,
      format series.documentPrefix document series.padTo⟩
  else none

end Numbering

/-! ## Writing the document -/

/-- What a provider that issued answers with. -/
structure IssuedAnswer where
  documentNumber : String
  controlNumber : String
  providerDocumentId : Option String
  issuedAt : Option Time
  deriving DecidableEq, Repr

/-- The arguments of `persistIssued`, but for the answer. -/
structure Issuing where
  restaurantId : Uuid
  billId : Uuid
  paymentId : Uuid
  provider : String
  requestId : Uuid
  draft : InvoiceDraft
  fxRateVesPerUnit : Option Int
  customer : Customer
  deriving DecidableEq, Repr

/-- The row that `persistIssued` inserts. -/
def Issuing.document (i : Issuing) (invoiceId : Uuid) (now : Time) (numbers : Numbering.Numbers)
    (result : Option IssuedAnswer) : FiscalDocument :=
  { i.draft with
    id := invoiceId
    restaurantId := i.restaurantId
    requestId := i.requestId
    billId := i.billId
    paymentId := i.paymentId
    documentType := .invoice
    documentNumber := numbers.documentNumber
    controlNumber := numbers.controlNumber
    provider := i.provider
    providerDocumentId := result.bind (·.providerDocumentId)
    fxRateVesPerUnit := i.fxRateVesPerUnit
    customer := i.customer
    issuedAt := (result.bind (·.issuedAt)).getD now }

/-- `scheduleDelivery(client, { restaurantId, invoiceId, email })`. -/
def scheduleDelivery (deliveryId restaurantId invoiceId : Uuid) (email : Option String) :
    Tx Err FiscalDb (Option Uuid) := do
  let s ← get
  match email.filter (· ≠ "") with
  | none => return none
  | some email =>
    if ∃ d ∈ s.deliveries.rows, d.invoiceId = invoiceId ∧ d.email.toLower = email.toLower then
      return none
    else
      match s.deliveries.insert? ⟨deliveryId, restaurantId, invoiceId, email⟩ with
      | none => return none
      | some deliveries =>
        set { s with deliveries }
        return some deliveryId

/-- `numbers`: our own ones when there is no provider. -/
def issuedNumbers (restaurantId : Uuid) (result : Option IssuedAnswer) :
    Tx Err FiscalDb Numbering.Numbers :=
  match result with
  | none => Numbering.allocate restaurantId .invoice
  | some r => return ⟨r.controlNumber, r.documentNumber⟩

/-- The numbers that a document would get. -/
def issuedNumbers? (s : FiscalDb) (restaurantId : Uuid) (result : Option IssuedAnswer) :
    Option Numbering.Numbers :=
  match result with
  | none => Numbering.numbers? s restaurantId .invoice
  | some r => some ⟨r.controlNumber, r.documentNumber⟩

/-- The document of an `Issuing` may be written: it has its numbers, which no other document has, and
its amounts pass the checks. -/
def FiscalDb.Writable (s : FiscalDb) (invoiceId : Uuid) (now : Time) (i : Issuing)
    (result : Option IssuedAnswer) : Prop :=
  ∃ numbers ∈ issuedNumbers? s i.restaurantId result,
    (i.document invoiceId now numbers result).violated = none ∧
      s.documentClash (i.document invoiceId now numbers result) = none ∧
      ∀ d ∈ s.documents, d.id ≠ invoiceId

/-- `persistIssued({ … })`: the document, and the delivery of its mail. The ids are the column
defaults. -/
def persistIssued (invoiceId deliveryId : Uuid) (now : Time) (i : Issuing)
    (result : Option IssuedAnswer) : Tx Err FiscalDb (FiscalDocument × Option Uuid) :=
  Tx.withTransaction do
    let numbers ← issuedNumbers i.restaurantId result
    let document := i.document invoiceId now numbers result
    insertDocument document
    updateRequest i.requestId (fun q => { q with status := .issued }) fun _ => rfl
    let delivery ← scheduleDelivery deliveryId i.restaurantId invoiceId i.customer.email
    return (document, delivery)

/-! ## What they write -/

section Statements

variable {s s' : FiscalDb}

theorem insertRequest_ok {row : FiscalRequest} {u : Unit}
    (h : (insertRequest row).run s = .ok u s') :
    s.requestClash row = none ∧
      ∃ requests, s.requests.insert? row = some requests ∧ s' = { s with requests } := by
  unfold insertRequest at h
  simp only [Tx.bind_ok, Tx.run_get, Tx.orThrow_ok, Tx.forbid_ok, Tx.run_set] at h
  obtain ⟨_, _, ⟨rfl, rfl⟩, requests, _, ⟨hins, rfl⟩, _, _, ⟨hclash, rfl⟩, ⟨rfl, rfl⟩⟩ := h
  exact ⟨hclash, requests, hins, rfl⟩

theorem updateRequest_ok {id : Uuid} {f : FiscalRequest → FiscalRequest} {hf : ∀ q, (f q).id = q.id}
    {u : Unit} (h : (updateRequest id f hf).run s = .ok u s') :
    (∀ q, s.requests.find? id = some q → s.requestClash (f q) = none) ∧
      s' = { s with requests := s.requests.update id f hf } := by
  unfold updateRequest at h
  simp only [Tx.bind_ok, Tx.run_get, Tx.forbid_ok, Tx.run_set] at h
  obtain ⟨_, _, ⟨rfl, rfl⟩, _, _, ⟨hclash, rfl⟩, ⟨rfl, rfl⟩⟩ := h
  exact ⟨fun q hq => by simpa [hq] using hclash, rfl⟩

theorem updateRequest_commits {id : Uuid} {f : FiscalRequest → FiscalRequest}
    {hf : ∀ q, (f q).id = q.id}
    (hclash : ∀ q, s.requests.find? id = some q → s.requestClash (f q) = none) :
    (updateRequest id f hf).run s = .ok () { s with requests := s.requests.update id f hf } := by
  unfold updateRequest
  simp only [Tx.bind_ok, Tx.run_get, Tx.forbid_ok, Tx.run_set]
  refine ⟨_, _, rfl, (), _, ⟨?_, rfl⟩, rfl⟩
  cases hfind : s.requests.find? id with
  | none => rfl
  | some q => exact hclash q hfind

theorem insertDocument_ok {row : FiscalDocument} {u : Unit}
    (h : (insertDocument row).run s = .ok u s') :
    row.violated = none ∧ s.documentClash row = none ∧
      ∃ documents, s.documents.insert? row = some documents ∧ s' = { s with documents } := by
  unfold insertDocument at h
  simp only [Tx.bind_ok, Tx.run_get, Tx.orThrow_ok, Tx.forbid_ok, Tx.run_set] at h
  obtain ⟨_, _, ⟨rfl, rfl⟩, _, _, ⟨hv, rfl⟩, documents, _, ⟨hins, rfl⟩, _, _, ⟨hclash, rfl⟩,
    ⟨rfl, rfl⟩⟩ := h
  exact ⟨hv, hclash, documents, hins, rfl⟩

theorem insertDocument_commits {row : FiscalDocument} (hv : row.violated = none)
    (hclash : s.documentClash row = none) (hid : ∀ d ∈ s.documents, d.id ≠ row.id) :
    ∃ s', (insertDocument row).run s = .ok () s' := by
  obtain ⟨documents, hins⟩ := Table.exists_insert? (r := row) hid
  refine ⟨{ s with documents }, ?_⟩
  unfold insertDocument
  simp only [Tx.bind_ok, Tx.run_get, Tx.orThrow_ok, Tx.forbid_ok, Tx.run_set]
  exact ⟨_, _, rfl, (), _, ⟨hv, rfl⟩, documents, _, ⟨hins, rfl⟩, (), _, ⟨hclash, rfl⟩, rfl⟩

/-- A counter is taken at its next value, and no other counter is touched. -/
theorem Numbering.takeCounter_run (s : FiscalDb) (restaurantId : Uuid) (scope : String)
    (startAt : Correlative) : ∃ counters,
      (takeCounter restaurantId scope startAt).run s =
        .ok (nextValue s restaurantId scope startAt) { s with counters } ∧
      ∀ k, k ≠ (restaurantId, scope) → counters.find? k = s.counters.find? k := by
  unfold takeCounter nextValue
  rw [Tx.bind_of_ok Tx.run_get]
  cases hfind : s.counters.find? (restaurantId, scope) with
  | some c => exact ⟨s.counters, rfl, fun _ _ => rfl⟩
  | none =>
    obtain ⟨counters, hins⟩ := Table.exists_insert?
      (r := (⟨restaurantId, scope, startAt⟩ : FiscalCounter)) (Table.find?_eq_none.mp hfind)
    refine ⟨counters, ?_, fun k hk => ?_⟩
    · rw [Tx.bind_of_ok (Tx.orThrow_ok.mpr ⟨hins, rfl⟩), Tx.bind_of_ok Tx.run_set]
      rfl
    · rw [Table.find?_insert? hins]
      exact if_neg hk

theorem Numbering.takeCounter_rest {restaurantId : Uuid} {scope : String} {startAt n : Correlative}
    (h : (takeCounter restaurantId scope startAt).run s = .ok n s') :
    ∃ counters, s' = { s with counters } := by
  obtain ⟨counters, hrun, -⟩ := takeCounter_run s restaurantId scope startAt
  rw [hrun] at h
  cases h
  exact ⟨counters, rfl⟩

theorem DocumentType.text_ne_control (t : DocumentType) : t.text ≠ Numbering.CONTROL := by
  cases t <;> decide

/-- `allocate` hands out the numbers that are next, and touches nothing but the counters. -/
theorem Numbering.allocate_ok {restaurantId : Uuid} {documentType : DocumentType} {n : Numbers} :
    (∃ s', (Numbering.allocate restaurantId documentType).run s = .ok n s') ↔
      numbers? s restaurantId documentType = some n := by
  unfold Numbering.allocate numbers? bumpCounter
  cases hseries : s.series.find? restaurantId with
  | none =>
    constructor
    · rintro ⟨s', h⟩
      rw [Tx.bind_of_ok Tx.run_get, Tx.bind_of_error (Tx.orThrow_error.mpr ⟨hseries, rfl, rfl⟩)] at h
      cases h
    · intro h
      cases h
  | some series =>
    obtain ⟨counters, htake, hrest⟩ := takeCounter_run s restaurantId CONTROL series.controlFirst
    obtain ⟨counters', htake', -⟩ := takeCounter_run { s with counters } restaurantId
      documentType.text ⟨1, le_rfl⟩
    have hsame : nextValue { s with counters } restaurantId documentType.text ⟨1, le_rfl⟩ =
        nextValue s restaurantId documentType.text ⟨1, le_rfl⟩ := by
      unfold nextValue
      rw [hrest _ fun hk => documentType.text_ne_control (Prod.mk.inj hk).2]
    rw [Tx.bind_of_ok Tx.run_get, Tx.bind_of_ok (Tx.orThrow_ok.mpr ⟨hseries, rfl⟩),
      Tx.bind_of_ok htake]
    by_cases hlast : ∀ last ∈ series.controlLast,
        (nextValue s restaurantId CONTROL series.controlFirst).1 ≤ last
    · rw [Tx.bind_of_ok (Tx.require_pass hlast), Tx.bind_of_ok htake', hsame]
      simp only [Option.bind_eq_bind, Option.bind_some, if_pos hlast, Option.some.injEq]
      rw [Tx.bind_of_ok (Tx.run_modify _), Tx.bind_of_ok (Tx.run_modify _)]
      constructor
      · rintro ⟨s', h⟩
        exact (Tx.pure_ok.mp h).1.symm
      · exact fun h => ⟨_, Tx.pure_ok.mpr ⟨h.symm, rfl⟩⟩
    · rw [Tx.bind_of_error (Tx.require_error.mpr ⟨hlast, rfl, rfl⟩)]
      simp only [Option.bind_eq_bind, Option.bind_some, if_neg hlast]
      constructor
      · rintro ⟨s', h⟩
        cases h
      · intro h
        cases h

/-- `allocate` changes the counters only. -/
theorem Numbering.allocate_rest {restaurantId : Uuid} {documentType : DocumentType} {n : Numbers}
    (h : (Numbering.allocate restaurantId documentType).run s = .ok n s') :
    ∃ counters, s' = { s with counters } := by
  unfold Numbering.allocate bumpCounter at h
  simp only [Tx.bind_ok, Tx.run_get, Tx.orThrow_ok, Tx.require_ok, Tx.run_modify, Tx.pure_ok] at h
  obtain ⟨_, _, ⟨rfl, rfl⟩, series, _, ⟨-, rfl⟩, control, _, htake, _, _, ⟨-, rfl⟩, document, _, htake',
    _, _, ⟨-, rfl⟩, _, _, ⟨-, rfl⟩, -, rfl⟩ := h
  obtain ⟨counters, rfl⟩ := takeCounter_rest htake
  obtain ⟨counters', rfl⟩ := takeCounter_rest htake'
  exact ⟨_, rfl⟩

theorem issuedNumbers_ok {restaurantId : Uuid} {result : Option IssuedAnswer}
    {n : Numbering.Numbers} (h : (issuedNumbers restaurantId result).run s = .ok n s') :
    issuedNumbers? s restaurantId result = some n ∧ ∃ counters, s' = { s with counters } := by
  unfold issuedNumbers at h
  split at h
  · exact ⟨Numbering.allocate_ok.mp ⟨s', h⟩, Numbering.allocate_rest h⟩
  · obtain ⟨rfl, rfl⟩ := Tx.pure_ok.mp h
    exact ⟨rfl, s'.counters, rfl⟩

theorem issuedNumbers_commits {restaurantId : Uuid} {result : Option IssuedAnswer}
    {n : Numbering.Numbers} (h : issuedNumbers? s restaurantId result = some n) :
    ∃ counters, (issuedNumbers restaurantId result).run s = .ok n { s with counters } := by
  cases result with
  | none =>
    obtain ⟨s', hrun⟩ := Numbering.allocate_ok.mpr h
    obtain ⟨counters, rfl⟩ := Numbering.allocate_rest hrun
    exact ⟨counters, hrun⟩
  | some r =>
    obtain rfl := Option.some.inj h
    exact ⟨s.counters, rfl⟩

theorem scheduleDelivery_ok {deliveryId restaurantId invoiceId : Uuid} {email : Option String}
    {r : Option Uuid}
    (h : (scheduleDelivery deliveryId restaurantId invoiceId email).run s = .ok r s') :
    s' = s ∨ ∃ text ∈ email, ∃ deliveries,
      s.deliveries.insert? ⟨deliveryId, restaurantId, invoiceId, text⟩ = some deliveries ∧
        s' = { s with deliveries } := by
  unfold scheduleDelivery at h
  rw [Tx.bind_of_ok Tx.run_get] at h
  split at h
  · exact .inl (Tx.pure_ok.mp h).2
  · rename_i text hemail
    split at h
    · exact .inl (Tx.pure_ok.mp h).2
    · split at h
      · exact .inl (Tx.pure_ok.mp h).2
      · rename_i deliveries hins
        simp only [Tx.bind_ok, Tx.run_set, Tx.pure_ok] at h
        obtain ⟨_, _, ⟨-, rfl⟩, -, rfl⟩ := h
        exact .inr ⟨text, (Option.filter_eq_some_iff.mp hemail).1, deliveries, hins, rfl⟩

theorem scheduleDelivery_commits (s : FiscalDb) (deliveryId restaurantId invoiceId : Uuid)
    (email : Option String) :
    ∃ r s', (scheduleDelivery deliveryId restaurantId invoiceId email).run s = .ok r s' := by
  unfold scheduleDelivery
  rw [Tx.bind_of_ok Tx.run_get]
  split
  · exact ⟨_, _, rfl⟩
  · split
    · exact ⟨_, _, rfl⟩
    · split
      · exact ⟨_, _, rfl⟩
      · exact ⟨_, _, by rw [Tx.bind_of_ok Tx.run_set, Tx.run_pure]⟩

/-- What `persistIssued` leaves. -/
structure Persisted (s : FiscalDb) (invoiceId : Uuid) (now : Time) (i : Issuing)
    (result : Option IssuedAnswer) (document : FiscalDocument) (s' : FiscalDb) : Prop where
  row : ∃ numbers, document = i.document invoiceId now numbers result ∧
    issuedNumbers? s i.restaurantId result = some numbers
  valid : document.violated = none
  unclashed : s.documentClash document = none
  inserted : s.documents.insert? document = some s'.documents
  only : ∀ q, s.requests.find? i.requestId = some q →
    s.requestClash { q with status := .issued } = none
  requests : s'.requests =
    s.requests.update i.requestId (fun q => { q with status := .issued }) fun _ => rfl
  mail : s'.deliveries = s.deliveries ∨ ∃ m : FiscalDelivery, i.customer.email = some m.email ∧
    s.deliveries.insert? m = some s'.deliveries
  rest : s'.series = s.series ∧ s'.issuers = s.issuers ∧ s'.splitItems = s.splitItems

theorem persistIssued_ok {invoiceId deliveryId : Uuid} {now : Time} {i : Issuing}
    {result : Option IssuedAnswer} {r : FiscalDocument × Option Uuid}
    (h : (persistIssued invoiceId deliveryId now i result).run s = .ok r s') :
    Persisted s invoiceId now i result r.1 s' := by
  unfold persistIssued at h
  simp only [Tx.withTransaction_ok, Tx.bind_ok, Tx.pure_ok] at h
  obtain ⟨numbers, _, hnumbers, _, _, hinsert, _, _, hupdate, delivery, _, hdelivery, rfl, rfl⟩ := h
  obtain ⟨hgiven, counters, rfl⟩ := issuedNumbers_ok hnumbers
  obtain ⟨hvalid, hclash, documents, hins, rfl⟩ := insertDocument_ok hinsert
  obtain ⟨honly, rfl⟩ := updateRequest_ok hupdate
  rcases scheduleDelivery_ok hdelivery with rfl | ⟨text, hemail, deliveries, hmail, rfl⟩
  · exact ⟨⟨numbers, rfl, hgiven⟩, hvalid, hclash, hins, honly, rfl, .inl rfl, rfl, rfl, rfl⟩
  · exact ⟨⟨numbers, rfl, hgiven⟩, hvalid, hclash, hins, honly, rfl, .inr ⟨_, hemail, hmail⟩, rfl, rfl,
      rfl⟩

theorem Persisted.writable {invoiceId : Uuid} {now : Time} {i : Issuing}
    {result : Option IssuedAnswer} {d : FiscalDocument} (h : Persisted s invoiceId now i result d s') :
    s.Writable invoiceId now i result := by
  obtain ⟨numbers, rfl, hnumbers⟩ := h.row
  exact ⟨numbers, hnumbers, h.valid, h.unclashed, (Table.insert?_eq_some.mp h.inserted).1⟩

/-- `persistIssued` commits a document that may be written. -/
theorem persistIssued_commits {invoiceId : Uuid} (deliveryId : Uuid) {now : Time} {i : Issuing}
    {result : Option IssuedAnswer} (h : s.Writable invoiceId now i result)
    (hclash : ∀ q, s.requests.find? i.requestId = some q →
      s.requestClash { q with status := .issued } = none) :
    ∃ r s', (persistIssued invoiceId deliveryId now i result).run s = .ok r s' := by
  obtain ⟨numbers, hnumbers, hvalid, hunclashed, hfresh⟩ := h
  obtain ⟨counters, hallocate⟩ := issuedNumbers_commits hnumbers
  obtain ⟨s₁, hinsert⟩ := insertDocument_commits (s := { s with counters }) hvalid hunclashed hfresh
  obtain ⟨-, -, documents, -, rfl⟩ := insertDocument_ok hinsert
  have hupdate : (updateRequest i.requestId (fun q => { q with status := .issued }) fun _ => rfl).run
      { s with counters, documents } = .ok () { s with
        counters
        documents
        requests := s.requests.update i.requestId (fun q => { q with status := .issued }) fun _ => rfl } :=
    updateRequest_commits hclash
  obtain ⟨r, s₂, hdelivery⟩ := scheduleDelivery_commits _ deliveryId i.restaurantId invoiceId
    i.customer.email
  refine ⟨(i.document invoiceId now numbers result, r), s₂, ?_⟩
  unfold persistIssued
  rw [Tx.withTransaction_ok, Tx.bind_of_ok hallocate, Tx.bind_of_ok hinsert, Tx.bind_of_ok hupdate,
    Tx.bind_of_ok hdelivery, Tx.run_pure]

end Statements

end Splite
