import Splite.Fiscal.Documents
import Splite.Ledger.BillItems
import Splite.Mercantil.Matcher

/-!
# Invoicing a payment (`services/fiscalInvoicing.js`, `fiscal/providers/index.js`)

`issueForPayment` and `resolveUncertain`, cut where they wait: what is read and built, each write, and
what the provider's replies are taken for.

* `lateIssuing_eq`: what `resolveUncertain` writes from a request that `issueForPayment` inserted.
-/

namespace Splite

open Js (Json)

/-! ## The provider -/

/-- What an adapter answers with. -/
structure AdapterReply where
  outcome : Option String
  documentNumber : Option String := none
  controlNumber : Option String := none
  providerDocumentId : Option String := none
  issuedAt : Option Time := none
  reason : Option String := none
  deriving DecidableEq, Repr

/-- What an adapter throws. -/
structure AdapterError where
  code : Option String
  status : Option Nat
  deriving DecidableEq, Repr

inductive ProviderResult where
  | issued (answer : IssuedAnswer)
  | rejected (reason : Option String)
  | uncertain (reason : Option String)
  deriving DecidableEq, Repr

/-- `isIndeterminateStatus(status)`. -/
def isIndeterminateStatus (status : Nat) : Bool :=
  [408, 425, 429].contains status || (500 ≤ status && status ≤ 599)

/-- A number that is there and is not blank. -/
def presentNumber (value : Option String) : Option String :=
  value.filter fun s => Mercantil.trimmed s.toList ≠ []

/-- `assertIssued(result)`, which throws where this is `none`. -/
def AdapterReply.answer (r : AdapterReply) : Option IssuedAnswer := do
  return ⟨← presentNumber r.documentNumber, ← presentNumber r.controlNumber, r.providerDocumentId,
    r.issuedAt⟩

/-- What a reply that was returned is taken for. -/
def AdapterReply.result (r : AdapterReply) : ProviderResult :=
  match r.outcome with
  | some "ISSUED" =>
    match r.answer with
    | some answer => .issued answer
    | none => .uncertain (some "FISCAL_PROVIDER_CONTRACT")
  | some "REJECTED" => .rejected r.reason
  | some "UNCERTAIN" => .uncertain r.reason
  | _ => .uncertain (some "ADAPTER_BAD_OUTCOME")

/-- `providers.issue(provider, …)`, of a registered adapter. -/
def providerIssue : Except AdapterError AdapterReply → ProviderResult
  | .ok r => r.result
  | .error e =>
    if e.status.all isIndeterminateStatus then .uncertain (some (e.code.getD "PROVIDER_UNREACHABLE"))
    else .rejected (some (e.code.getD "PROVIDER_REJECTED"))

/-- `providers.lookup(provider, idempotencyKey)`, of a registered adapter. -/
def providerLookup : Except AdapterError AdapterReply → ProviderResult
  | .ok r => r.result
  | .error e => .uncertain (some (e.code.getD "LOOKUP_UNAVAILABLE"))

/-- `adapterFor(name)`, of a name that is not registered. -/
def unknownProvider (name : String) : Err :=
  .error ("No hay adaptador fiscal para \"" ++ name ++ "\"")

/-! ## What is left to declare -/

def BillItem.line (i : BillItem) : BillLine where
  id := i.id
  name := i.nameSnapshot
  quantity := i.quantity
  unitPriceMinor := i.unitPriceMinor
  subtotalMinor := i.subtotalMinor
  taxCategory := i.taxCategory
  vatBps := (i.vatBps.getD 0).toNat

/-- The group of one rate of `stateFromLines`. -/
def rateGroup (lines : List BillLine) (rate : Nat) : Except Err FiscalGroup := do
  let baseMinor := ((lines.filter (·.vatBps = rate)).map (·.subtotalMinor)).sum
  return ⟨rate, baseMinor, ← applyBps baseMinor rate "IVA"⟩

/-- `stateFromLines(lines, { serviceMinor, vatOf })`. -/
def stateFromLines (lines : List BillLine) (serviceMinor : Int) : Except Err FiscalState := do
  let rates := (lines.map (·.vatBps)).dedup.insertionSort (· ≤ ·)
  return ⟨← rates.mapM (rateGroup lines), serviceMinor⟩

/-- `toVes(state, totalVes)`. -/
def toVes (state : FiscalState) (totalVes : Int) : Except Err FiscalState := do
  let buckets := (state.groups.flatMap fun g => [g.baseMinor, g.vatMinor]) ++ [state.serviceMinor]
  if buckets.sum = 0 then return state
  let parts := spread buckets (← allocate totalVes (buckets.filter (0 < ·)))
  return {
    groups := state.groups.zipIdx.map fun (g, i) =>
      { g with baseMinor := parts.getD (i * 2) 0, vatMinor := parts.getD (i * 2 + 1) 0 }
    serviceMinor := parts.getD (buckets.length - 1) 0 }

/-- The state of a bill before anything is declared. -/
def initialState (s : Db) (bill : Bill) : Except Err FiscalState := do
  let state ← stateFromLines ((s.itemsOf bill.id).map BillItem.line) bill.serviceChargeMinor
  if bill.currency = .ves then return state else toVes state bill.totalDueVes

/-- The invoices of a bill. -/
def FiscalDb.invoicesOf (f : FiscalDb) (billId : Uuid) : List FiscalDocument :=
  f.documents.rows.filter fun d => d.billId = billId ∧ d.documentType = .invoice

/-- The rows at one rate among the breakdowns of documents. -/
def taxesAt (documents : List FiscalDocument) (rate : Nat) : List DraftTax :=
  (documents.flatMap (·.taxes)).filter (·.vatBps = rate)

def declaredBase (documents : List FiscalDocument) (rate : Nat) : Int :=
  ((taxesAt documents rate).map (·.baseMinor)).sum

def declaredVat (documents : List FiscalDocument) (rate : Nat) : Int :=
  ((taxesAt documents rate).map (·.vatMinor)).sum

def declaredService (documents : List FiscalDocument) : Int :=
  (documents.map (·.serviceMinor)).sum

/-- What documents leave of a state. -/
def FiscalState.less (state : FiscalState) (documents : List FiscalDocument) : FiscalState where
  groups := state.groups.map fun g =>
    { g with
      baseMinor := g.baseMinor - declaredBase documents g.vatBps
      vatMinor := g.vatMinor - declaredVat documents g.vatBps }
  serviceMinor := state.serviceMinor - declaredService documents

/-- What `stateForBill` returns. -/
structure BillState where
  bill : Bill
  lines : List BillLine
  state : FiscalState

/-- `stateForBill(client, { restaurantId, billId })`. -/
def stateForBill (s : Db) (f : FiscalDb) (restaurantId billId : Uuid) : Except Err BillState := do
  let bill ← Except.ofOption (s.bill? restaurantId billId) (.api .billNotFound "Bill not found" [])
  let state ← initialState s bill
  return ⟨bill, (s.itemsOf billId).map BillItem.line, state.less (f.invoicesOf billId)⟩

/-! ## What the payer claimed -/

/-- What `claimedLines` returns. -/
structure ClaimedLines where
  splitMode : Option SplitMode := none
  share : Option Int := none
  claimed : Option (List SourceLine) := none

/-- The callback of `mine.map`: the part of a line that each of its claimants answers for. -/
def claimedLine (claims : List SplitItem) (line : BillLine) : Except Err SourceLine := do
  let count := (claims.filter (·.billItemId = line.id)).length
  let portion ←
    if count > 1 then do
      let parts ← allocate line.subtotalMinor (List.replicate count 1)
      pure (parts.getD 0 0)
    else pure line.subtotalMinor
  return { line with shareMinor := portion, fullMinor := line.subtotalMinor }

/-- The share that a payment is for, with its split. -/
def Db.shareOf (s : Db) (paymentId : Uuid) : Option (SplitParticipant × BillSplit) := do
  let payment ← s.payments.find? paymentId
  let share ← s.shares.find? (← payment.splitParticipantId)
  return (share, ← s.splits.find? share.splitId)

/-- `claimedLines(client, { paymentId, lines })`. -/
def claimedLines (s : Db) (f : FiscalDb) (paymentId : Uuid) (lines : List BillLine) :
    Except Err ClaimedLines :=
  match s.shareOf paymentId with
  | none => .ok {}
  | some (share, split) =>
    if split.mode ≠ .items then .ok { splitMode := some split.mode, share := some share.amountVes }
    else do
      let claims := f.splitItems.filter (·.splitId = share.splitId)
      let mine := claims.filter (·.participantId = share.id)
      let claimed ← (mine.filterMap fun c => lines.find? (·.id = c.billItemId)).mapM
        (claimedLine claims)
      return { splitMode := some split.mode, share := some share.amountVes, claimed := some claimed }

/-! ## Issuing -/

/-- The arguments of `issueForPayment`. -/
structure IssueRequest where
  restaurantId : Uuid
  billId : Uuid
  paymentId : Uuid
  customer : Customer
  provider : String
  deriving DecidableEq, Repr

def OWN : String := "own"

/-- A line in bolívares, at the rate of its bill. -/
def SourceLine.inVes (scaledRate : Int) (l : SourceLine) : Except Err SourceLine := do
  return { l with
    unitPriceMinor := ← applyRate l.unitPriceMinor scaledRate "Invoice line in VES"
    subtotalMinor := ← applyRate l.subtotalMinor scaledRate "Invoice line in VES"
    shareMinor := ← applyRate l.shareMinor scaledRate "Invoice line in VES"
    fullMinor := ← applyRate l.fullMinor scaledRate "Invoice line in VES" }

/-- What the transaction of `issueForPayment` reads and builds before it inserts the request. -/
structure Prepared where
  bill : Bill
  draft : InvoiceDraft
  deriving DecidableEq, Repr

/-- The reads of that transaction, with the name of the table among them. -/
def prepareDraft (s : Db) (f : FiscalDb) (r : IssueRequest) (tableName : Option String) :
    Except Err Prepared := do
  let issuer ← Except.ofOption (f.issuers.find? r.restaurantId)
    (.api .restaurantNotFound "Restaurant not found" [])
  Except.require (∃ rif ∈ issuer.rif, rif.toList.any (· ≠ ' '))
    (.api .fiscalRifMissing
      "This restaurant has no RIF on file, and a fiscal invoice cannot be issued without one" [])
  let ⟨bill, lines, state⟩ ← stateForBill s f r.restaurantId r.billId
  let payment ← Except.ofOption
    ((s.payment? r.restaurantId r.paymentId).filter (·.billId = r.billId))
    (.api .paymentNotFound "Payment not found" [])
  Except.require (payment.status = .succeeded)
    (.api .paymentStateInvalid "Only a settled payment can be invoiced"
      [("status", payment.status.text)])
  Except.require (payment.amountVes ≤ outstandingOf state)
    (.api .fiscalNothingToDeclare "This bill has already been declared in full" [])
  let ⟨splitMode, share, claimed⟩ ← claimedLines s f r.paymentId lines
  let lineBasis := resolveLineBasis splitMode share payment.amountVes claimed
  let menuLines :=
    if lineBasis = .itemised then claimed.getD []
    else lines.map fun l => { l with shareMinor := l.subtotalMinor, fullMinor := l.subtotalMinor }
  let scaledRate ← parseRate (bill.fxRateVesPerUnit.getD RATE_SCALE)
  let sourceLines ←
    if bill.currency = .ves then pure menuLines else menuLines.mapM (SourceLine.inVes scaledRate)
  let (draft, _) ← buildDraft state payment.amountVes lineBasis sourceLines tableName
  return ⟨bill, draft⟩

/-- The row of the request, with the random bytes of its key. -/
def IssueRequest.row (r : IssueRequest) (requestId : Uuid) (nonce : String) (draft : InvoiceDraft) :
    FiscalRequest where
  id := requestId
  restaurantId := r.restaurantId
  billId := r.billId
  paymentId := r.paymentId
  status := .pending
  idempotencyKey := toString r.billId ++ ":" ++ toString r.paymentId ++ ":" ++ nonce
  provider := r.provider
  attempts := 0
  lastErrorCode := none
  draftJson := some (serialiseDraft draft)

/-- The request of the payment, or the word that there is one. -/
def requestInvoice (r : IssueRequest) (requestId : Uuid) (nonce : String) (draft : InvoiceDraft) :
    Tx Err FiscalDb Unit := Tx.withTransaction <|
  Tx.mapError (fun err =>
      if err = .uniqueViolation "fiscal_requests_payment_idx" then
        .api .fiscalAlreadyRequested "This payment already has an invoice request"
          [("paymentId", toString r.paymentId)]
      else err)
    (insertRequest (r.row requestId nonce draft))

/-- `UPDATE fiscal_invoice_requests SET status = 'SENT', attempts = attempts + 1 …`. -/
def markSent (requestId : Uuid) : Tx Err FiscalDb Unit :=
  updateRequest requestId (fun q => { q with status := .sent, attempts := q.attempts + 1 })
    fun _ => rfl

/-- `String(reason ?? fallback).slice(0, 80)`. -/
def errorCode (reason : Option String) (fallback : String) : String :=
  String.ofList ((reason.getD fallback).toList.take 80)

/-- `UPDATE fiscal_invoice_requests SET status = $2, last_error_code = $3 …`. -/
def markUnissued (requestId : Uuid) (status : FiscalStatus) (code : String) : Tx Err FiscalDb Unit :=
  updateRequest requestId (fun q => { q with status, lastErrorCode := some code }) fun _ => rfl

/-- The arguments of `persistIssued` in the call that built the draft. -/
def IssueRequest.issuing (r : IssueRequest) (requestId : Uuid) (p : Prepared) : Issuing where
  restaurantId := r.restaurantId
  billId := r.billId
  paymentId := r.paymentId
  provider := r.provider
  requestId := requestId
  draft := p.draft
  fxRateVesPerUnit := p.bill.fxRateVesPerUnit
  customer := r.customer

/-! ## Resolving -/

/-- What `resolveUncertain` reads: the request, and the rate of its bill. -/
structure ReadRequest where
  request : FiscalRequest
  fxRateVesPerUnit : Option Int

def readRequest (s : Db) (f : FiscalDb) (restaurantId requestId : Uuid) : Except Err ReadRequest :=
  Except.ofOption (do
    let request ← (f.requests.find? requestId).filter (·.restaurantId = restaurantId)
    return ⟨request, (← s.bills.find? request.billId).fxRateVesPerUnit⟩)
    (.api .fiscalRequestNotFound "Request not found" [])

/-- The arguments of `persistIssued` in `resolveUncertain`. -/
def lateIssuing (read : ReadRequest) : Except Err Issuing := do
  let stored ← Except.ofOption read.request.draftJson
    (.api .fiscalDraftMissing
      "The provider issued this document but the sent draft was not recorded" [])
  let draft ← Except.ofOption (reviveDraft stored) (.error "The draft cannot be revived")
  return {
    restaurantId := read.request.restaurantId
    billId := read.request.billId
    paymentId := read.request.paymentId
    provider := read.request.provider
    requestId := read.request.id
    draft
    fxRateVesPerUnit := read.fxRateVesPerUnit
    customer := customerOf stored }

/-! ## What they read -/

/-- A draft is cut from what the invoices of the bill leave, for a settled payment that fits in it. -/
structure PreparedFrom (s : Db) (f : FiscalDb) (r : IssueRequest) (p : Prepared)
    (state : FiscalState) (payment : Payment) : Prop where
  found : s.bill? r.restaurantId r.billId = some p.bill
  initial : initialState s p.bill = .ok state
  paid : s.payment? r.restaurantId r.paymentId = some payment
  ofBill : payment.billId = r.billId
  settled : payment.status = .succeeded
  fits : payment.amountVes ≤ outstandingOf (state.less (f.invoicesOf r.billId))
  draft : ∃ lineBasis sourceLines tableName remaining,
    buildDraft (state.less (f.invoicesOf r.billId)) payment.amountVes lineBasis sourceLines tableName =
      .ok (p.draft, remaining)

theorem prepareDraft_ok {s : Db} {f : FiscalDb} {r : IssueRequest} {tableName : Option String}
    {p : Prepared} (h : prepareDraft s f r tableName = .ok p) :
    ∃ state payment, PreparedFrom s f r p state payment := by
  unfold prepareDraft stateForBill at h
  simp only [Except.bind_eq_ok, Except.ofOption_eq_ok, Except.require_eq_ok, bind_assoc,
    Option.filter_eq_some_iff, decide_eq_true_eq, Except.pure_eq_ok] at h
  obtain ⟨_, -, _, -, bill, hbill, state, hstate, _, rfl, payment, ⟨hpayment, hof⟩, _, hsettled, _,
    hfits, _, -, _, -, h⟩ := h
  split at h <;> simp only [Except.bind_eq_ok, Except.pure_eq_ok] at h <;>
    obtain ⟨sourceLines, -, ⟨draft, remaining⟩, hdraft, rfl⟩ := h <;>
    exact ⟨state, payment, hbill, hstate, hpayment, hof, hsettled, hfits, _, sourceLines, tableName,
      remaining, hdraft⟩

end Splite
