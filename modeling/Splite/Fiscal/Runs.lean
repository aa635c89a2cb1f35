import Splite.Fiscal.Invoicing
import Splite.Ledger.Floor
import Splite.Lib.Machine

/-!
# Calls of the fiscal service, interleaved

Any number of `issueForPayment` and `resolveUncertain` calls run beside the restaurant. Each goes from
one wait to the next in one step: a transaction, a statement, or a reply of the provider.

* `FiscalOp.step`, `invoicing`: the machine.
* `FiscalOp.steps`: what one step can do.
-/

namespace Splite

open Js (Json)

/-! ## The machine -/

/-- An `issueForPayment` that has built its draft. -/
structure IssueTask where
  args : IssueRequest
  requestId : Uuid
  prepared : Prepared
  deriving DecidableEq, Repr

def IssueTask.issuing (t : IssueTask) : Issuing := t.args.issuing t.requestId t.prepared

/-- Where a call is. -/
inductive FiscalPhase where
  /-- The transaction of `issueForPayment` has read, and not inserted. -/
  | built (t : IssueTask)
  /-- Its request is committed. -/
  | requested (t : IssueTask)
  /-- The request is `SENT`. -/
  | sent (t : IssueTask)
  /-- The answer was `UNCERTAIN`. -/
  | asked (t : IssueTask)
  /-- What became of the request is known. -/
  | answered (t : IssueTask) (result : ProviderResult)
  /-- `resolveUncertain` has read a request that is `UNCERTAIN`. -/
  | reading (read : ReadRequest)
  | learnt (read : ReadRequest) (result : ProviderResult)

namespace FiscalPhase

/-- The task of a call that issues. -/
def building? : FiscalPhase → Option IssueTask
  | built t | requested t | sent t | asked t | answered t _ => some t
  | reading _ | learnt .. => none

/-- The task of a call whose request is committed. -/
def task? : FiscalPhase → Option IssueTask
  | requested t | sent t | asked t | answered t _ => some t
  | built _ | reading _ | learnt .. => none

/-- The status of that request. -/
def status : FiscalPhase → FiscalStatus
  | requested _ => .pending
  | _ => .sent

/-- The provider has answered. -/
def isAnswered : FiscalPhase → Bool
  | asked _ | answered .. => true
  | _ => false

/-- The request of a call that resolves. -/
def read? : FiscalPhase → Option ReadRequest
  | reading read | learnt read _ => some read
  | _ => none

end FiscalPhase

structure FiscalCall where
  callId : Nat
  phase : FiscalPhase

instance : Keyed FiscalCall Nat := ⟨FiscalCall.callId⟩

structure FiscalWorld where
  floor : Floor
  fiscal : FiscalDb
  registry : List String
  calls : Table FiscalCall

/-- Nothing has been requested. -/
def FiscalWorld.start (floor : Floor) (registry : List String) (series : Table FiscalSeries)
    (issuers : Table Issuer) (splitItems : List SplitItem) : FiscalWorld where
  floor := floor
  fiscal := ⟨∅, ∅, ∅, series, ∅, issuers, splitItems⟩
  registry := registry
  calls := ∅

inductive FiscalOp where
  | floor (op : FloorOp)
  /-- Splits are agreed, replaced and voided. -/
  | agree (splits : Table BillSplit) (shares : Table SplitParticipant) (items : List SplitItem)
  /-- Staff writes its series and its RIF. -/
  | configure (series : Table FiscalSeries) (issuers : Table Issuer)
  /-- `issueForPayment` is called, and its transaction reads. -/
  | prepare (callId : Nat) (requestId : Uuid) (args : IssueRequest) (tableName : Option String)
  /-- It inserts the request and commits. -/
  | request (callId : Nat) (nonce : String)
  /-- It marks the request as `SENT`. -/
  | send (callId : Nat)
  /-- `resolveUncertain` is called, and reads. -/
  | resolve (callId : Nat) (restaurantId requestId : Uuid)
  /-- What the adapter does with the question that a call asks it next. -/
  | reply (callId : Nat) (r : Except AdapterError AdapterReply)
  /-- A call writes what it knows. -/
  | record (callId : Nat) (invoiceId deliveryId : Uuid) (now : Time)
  /-- A call fails at its next statement, or its process dies. -/
  | die (callId : Nat)

/-- The call that takes the step, if it is a later step of a call. -/
def FiscalOp.callId? : FiscalOp → Option Nat
  | .request id _ | .send id | .reply id _ | .record id _ _ _ | .die id => some id
  | _ => none

namespace FiscalWorld

def setPhase (w : FiscalWorld) (callId : Nat) (phase : FiscalPhase) : FiscalWorld :=
  { w with calls := w.calls.update callId (fun c => { c with phase }) fun _ => rfl }

/-- The call returns or throws. -/
def forget (w : FiscalWorld) (callId : Nat) : FiscalWorld :=
  { w with calls := w.calls.deleteWhere fun c => c.callId = callId }

/-- The call goes on in a phase, or has come to its end. -/
def goOn (w : FiscalWorld) (callId : Nat) : Option FiscalPhase → FiscalWorld
  | some phase => w.setPhase callId phase
  | none => w.forget callId

/-- A call begins. -/
def opens (w : FiscalWorld) (call : FiscalCall) : FiscalWorld :=
  match w.calls.insert? call with
  | some calls => { w with calls }
  | none => w

/-- A statement or a transaction of a call, which goes on behind it unless it fails. -/
def perform (w : FiscalWorld) (callId : Nat) (x : Tx Err FiscalDb Unit) (next : Option FiscalPhase) :
    FiscalWorld × List Err :=
  match x.run w.fiscal with
  | .ok _ fiscal => (({ w with fiscal } : FiscalWorld).goOn callId next, [])
  | .error err _ => (w.forget callId, [err])

end FiscalWorld

/-- The first wait of `issueForPayment` and of `sendAndRecord`, with where the call goes on. -/
def FiscalPhase.begin (nonce : String) : FiscalPhase → Option (Tx Err FiscalDb Unit × FiscalPhase)
  | .built t => some (requestInvoice t.args t.requestId nonce t.prepared.draft, .requested t)
  | _ => none

def FiscalPhase.send : FiscalPhase → Option (Tx Err FiscalDb Unit × FiscalPhase)
  | .requested t => some (markSent t.requestId, .sent t)
  | _ => none

/-- Where a reply takes a call, or the error that `adapterFor` throws. -/
def FiscalPhase.hear (registry : List String) (r : Except AdapterError AdapterReply) :
    FiscalPhase → Option (Except Err (Option FiscalPhase))
  | .sent t =>
    if t.args.provider = OWN then none
    else if t.args.provider ∉ registry then some (.error (unknownProvider t.args.provider))
    else
      match providerIssue r with
      | .uncertain _ => some (.ok (some (.asked t)))
      | result => some (.ok (some (.answered t result)))
  | .asked t =>
    if t.args.provider ∉ registry then some (.error (unknownProvider t.args.provider))
    else some (.ok (some (.answered t (providerLookup r))))
  | .reading read =>
    if read.request.provider ∉ registry then some (.error (unknownProvider read.request.provider))
    else
      match providerLookup r with
      | .uncertain _ => some (.ok none)
      | result => some (.ok (some (.learnt read result)))
  | _ => none

/-- `persistIssued`, whose result is what the call returns. -/
def persist (invoiceId deliveryId : Uuid) (now : Time) (i : Issuing) (result : Option IssuedAnswer) :
    Tx Err FiscalDb Unit := do
  let _ ← persistIssued invoiceId deliveryId now i result
  return ()

/-- The last write of a call. -/
def FiscalPhase.record (invoiceId deliveryId : Uuid) (now : Time) :
    FiscalPhase → Option (Tx Err FiscalDb Unit)
  | .sent t =>
    if t.args.provider = OWN then some (persist invoiceId deliveryId now t.issuing none) else none
  | .answered t (.issued answer) => some (persist invoiceId deliveryId now t.issuing (some answer))
  | .answered t (.rejected reason) =>
    some (markUnissued t.requestId .failed (errorCode reason "UNKNOWN"))
  | .answered t (.uncertain reason) =>
    some (markUnissued t.requestId .uncertain (errorCode reason "UNKNOWN"))
  | .learnt read (.issued answer) => some do
    let i ← Tx.ofExcept (lateIssuing read)
    persist invoiceId deliveryId now i (some answer)
  | .learnt read (.rejected reason) =>
    some (markUnissued read.request.id .failed (errorCode reason "NOT_FOUND"))
  | _ => none

/-- One step, with the error that is answered with. -/
def FiscalOp.step (w : FiscalWorld) : FiscalOp → FiscalWorld × List Err
  | .floor op => ({ w with floor := (op.step w.floor).1 }, (op.step w.floor).2)
  | .agree splits shares splitItems =>
    ({ w with
        floor := { w.floor with
          ledger := { w.floor.ledger with db := { w.floor.db with splits, shares } } }
        fiscal := { w.fiscal with splitItems } }, [])
  | .configure series issuers => ({ w with fiscal := { w.fiscal with series, issuers } }, [])
  | .prepare callId requestId args tableName =>
    match prepareDraft w.floor.db w.fiscal args tableName with
    | .ok prepared => (w.opens ⟨callId, .built ⟨args, requestId, prepared⟩⟩, [])
    | .error err => (w, [err])
  | .resolve callId restaurantId requestId =>
    match readRequest w.floor.db w.fiscal restaurantId requestId with
    | .ok read =>
      if read.request.status = .uncertain then (w.opens ⟨callId, .reading read⟩, []) else (w, [])
    | .error err => (w, [err])
  | .request callId nonce =>
    match (w.calls.find? callId).bind fun c => c.phase.begin nonce with
    | some (x, next) => w.perform callId x (some next)
    | none => (w, [])
  | .send callId =>
    match (w.calls.find? callId).bind fun c => c.phase.send with
    | some (x, next) => w.perform callId x (some next)
    | none => (w, [])
  | .reply callId r =>
    match (w.calls.find? callId).bind fun c => c.phase.hear w.registry r with
    | some (.ok next) => (w.goOn callId next, [])
    | some (.error err) => (w.forget callId, [err])
    | none => (w, [])
  | .record callId invoiceId deliveryId now =>
    match (w.calls.find? callId).bind fun c => c.phase.record invoiceId deliveryId now with
    | some x => w.perform callId x none
    | none => (w, [])
  | .die callId => (w.forget callId, [])

/-- The fiscal service and the restaurant as a machine that answers with the errors it throws. -/
def invoicing : Machine FiscalWorld FiscalOp Err := ⟨FiscalOp.step⟩

/-! ## What one step can do -/

/-- A request but for its progress. -/
def FiscalRequest.Same (q r : FiscalRequest) : Prop :=
  q = { r with status := q.status, attempts := q.attempts, lastErrorCode := q.lastErrorCode }

theorem FiscalRequest.Same.refl (q : FiscalRequest) : q.Same q := rfl

theorem FiscalRequest.Same.trans {q r t : FiscalRequest} (h : q.Same r) (h' : r.Same t) :
    q.Same t := by
  unfold FiscalRequest.Same at h h' ⊢
  rw [h, h']

/-- One request has made progress. -/
def Progressed (s : FiscalDb) (id : Uuid) (status : FiscalStatus) (s' : FiscalDb) : Prop :=
  ∀ q, s.requests.find? id = some q → ∃ q', q'.Same q ∧ q'.status = status ∧
    s.requestClash q' = none ∧ ∀ r, r ∈ s'.requests ↔ r = q' ∨ (r ∈ s.requests ∧ r.id ≠ id)

theorem progressed_of_update {s s' : FiscalDb} {id : Uuid} {status : FiscalStatus}
    (f : FiscalRequest → FiscalRequest) (hf : ∀ q, (f q).id = q.id)
    (hsame : ∀ q, (f q).Same q ∧ (f q).status = status)
    (hclash : ∀ q, s.requests.find? id = some q → s.requestClash (f q) = none)
    (h : s'.requests = s.requests.update id f hf) : Progressed s id status s' := by
  intro q hq
  refine ⟨f q, (hsame q).1, (hsame q).2, hclash q hq, fun r => ?_⟩
  rw [h]
  exact Table.mem_update_of_find f hf hq

/-- The write that a call in this phase makes, and the phase in which it goes on. -/
inductive Writes (s s' : FiscalDb) : FiscalPhase → Option FiscalPhase → Prop where
  | requested {t : IssueTask} {nonce : String}
      (hclash : s.requestClash (t.args.row t.requestId nonce t.prepared.draft) = none)
      (hins : s.requests.insert? (t.args.row t.requestId nonce t.prepared.draft) = some s'.requests)
      (hdocuments : s'.documents = s.documents) : Writes s s' (.built t) (some (.requested t))
  | sent {t : IssueTask} (h : Progressed s t.requestId .sent s')
      (hdocuments : s'.documents = s.documents) : Writes s s' (.requested t) (some (.sent t))
  | unissued {t : IssueTask} {result : ProviderResult} {status : FiscalStatus}
      (hstatus : status = .failed ∨ status = .uncertain) (h : Progressed s t.requestId status s')
      (hdocuments : s'.documents = s.documents) : Writes s s' (.answered t result) none
  | issued {phase : FiscalPhase} {t : IssueTask} {invoiceId : Uuid} {now : Time}
      {result : Option IssuedAnswer} {d : FiscalDocument} (hphase : phase.task? = some t)
      (h : Persisted s invoiceId now t.issuing result d s') : Writes s s' phase none
  | issuedLate {read : ReadRequest} {answer : IssuedAnswer} {i : Issuing} {invoiceId : Uuid}
      {now : Time} {d : FiscalDocument} (hi : lateIssuing read = .ok i)
      (h : Persisted s invoiceId now i (some answer) d s') :
      Writes s s' (.learnt read (.issued answer)) none
  | failed {read : ReadRequest} {reason : Option String}
      (h : Progressed s read.request.id .failed s') (hdocuments : s'.documents = s.documents) :
      Writes s s' (.learnt read (.rejected reason)) none

theorem Persisted.progressed {s s' : FiscalDb} {invoiceId : Uuid} {now : Time} {i : Issuing}
    {result : Option IssuedAnswer} {d : FiscalDocument}
    (h : Persisted s invoiceId now i result d s') : Progressed s i.requestId .issued s' :=
  progressed_of_update (fun q => { q with status := .issued }) (fun _ => rfl)
    (fun _ => ⟨rfl, rfl⟩) h.only h.requests

theorem markSent_progressed {s s' : FiscalDb} {requestId : Uuid} {u : Unit}
    (h : (markSent requestId).run s = .ok u s') :
    Progressed s requestId .sent s' ∧ s'.documents = s.documents := by
  obtain ⟨hclash, rfl⟩ := updateRequest_ok h
  exact ⟨progressed_of_update (fun q => { q with status := .sent, attempts := q.attempts + 1 })
    (fun _ => rfl) (fun _ => ⟨rfl, rfl⟩) hclash rfl, rfl⟩

theorem markUnissued_progressed {s s' : FiscalDb} {requestId : Uuid} {status : FiscalStatus}
    {code : String} {u : Unit} (h : (markUnissued requestId status code).run s = .ok u s') :
    Progressed s requestId status s' ∧ s'.documents = s.documents := by
  obtain ⟨hclash, rfl⟩ := updateRequest_ok h
  exact ⟨progressed_of_update (fun q => { q with status, lastErrorCode := some code })
    (fun _ => rfl) (fun _ => ⟨rfl, rfl⟩) hclash rfl, rfl⟩

section Writes

variable {phase next : FiscalPhase} {s s' : FiscalDb} {x : Tx Err FiscalDb Unit} {u : Unit}

theorem begin_writes {nonce : String} (h : phase.begin nonce = some (x, next))
    (hrun : x.run s = .ok u s') : Writes s s' phase (some next) := by
  unfold FiscalPhase.begin at h
  split at h
  · obtain ⟨rfl, rfl⟩ := Prod.mk.inj (Option.some.inj h)
    rw [requestInvoice, Tx.withTransaction_ok, Tx.mapError_ok] at hrun
    obtain ⟨hclash, requests, hins, rfl⟩ := insertRequest_ok hrun
    exact .requested hclash hins rfl
  · cases h

theorem send_writes (h : phase.send = some (x, next)) (hrun : x.run s = .ok u s') :
    Writes s s' phase (some next) := by
  unfold FiscalPhase.send at h
  split at h
  · obtain ⟨rfl, rfl⟩ := Prod.mk.inj (Option.some.inj h)
    obtain ⟨hsent, hdocuments⟩ := markSent_progressed hrun
    exact .sent hsent hdocuments
  · cases h

theorem persist_ok {invoiceId deliveryId : Uuid} {now : Time} {i : Issuing}
    {result : Option IssuedAnswer} (h : (persist invoiceId deliveryId now i result).run s = .ok u s') :
    ∃ d, Persisted s invoiceId now i result d s' := by
  obtain ⟨r, _, hrun, h⟩ := Tx.bind_ok.mp h
  obtain ⟨-, rfl⟩ := Tx.pure_ok.mp h
  exact ⟨r.1, persistIssued_ok hrun⟩

theorem record_writes {invoiceId deliveryId : Uuid} {now : Time}
    (h : phase.record invoiceId deliveryId now = some x) (hrun : x.run s = .ok u s') :
    Writes s s' phase none := by
  unfold FiscalPhase.record at h
  split at h
  · split at h
    · cases h
      obtain ⟨d, hd⟩ := persist_ok hrun
      exact .issued rfl hd
    · cases h
  · cases h
    obtain ⟨d, hd⟩ := persist_ok hrun
    exact .issued rfl hd
  · cases h
    obtain ⟨hfailed, hdocuments⟩ := markUnissued_progressed hrun
    exact .unissued (.inl rfl) hfailed hdocuments
  · cases h
    obtain ⟨huncertain, hdocuments⟩ := markUnissued_progressed hrun
    exact .unissued (.inr rfl) huncertain hdocuments
  · cases h
    obtain ⟨i, _, hrevived, hpersist⟩ := Tx.bind_ok.mp hrun
    obtain ⟨hi, rfl⟩ := Tx.ofExcept_ok.mp hrevived
    obtain ⟨d, hd⟩ := persist_ok hpersist
    exact .issuedLate hi hd
  · cases h
    obtain ⟨hfailed, hdocuments⟩ := markUnissued_progressed hrun
    exact .failed hfailed hdocuments
  · cases h

end Writes

/-- The bills of before with what is frozen on them. -/
def Db.KeepsBills (s s' : Db) : Prop :=
  ∀ b ∈ s.bills, ∃ b' ∈ s'.bills, b'.id = b.id ∧ b'.frozen = b.frozen

theorem Db.KeepsBills.refl (s : Db) : s.KeepsBills s := fun b hb => ⟨b, hb, rfl, rfl⟩

/-- How a call begins. -/
inductive Opens (w : FiscalWorld) : FiscalPhase → Prop where
  | built {args : IssueRequest} {requestId : Uuid} {prepared : Prepared} {tableName : Option String}
      (h : prepareDraft w.floor.db w.fiscal args tableName = .ok prepared) :
      Opens w (.built ⟨args, requestId, prepared⟩)
  | reading {restaurantId requestId : Uuid} {read : ReadRequest}
      (h : readRequest w.floor.db w.fiscal restaurantId requestId = .ok read)
      (hstatus : read.request.status = .uncertain) : Opens w (.reading read)

/-- What one step can do. -/
inductive FiscalWorld.Steps (w : FiscalWorld) (op : FiscalOp) : FiscalWorld → Prop where
  | aside {w' : FiscalWorld} (hcalls : w'.calls = w.calls) (hregistry : w'.registry = w.registry)
      (hrequests : w'.fiscal.requests = w.fiscal.requests)
      (hdocuments : w'.fiscal.documents = w.fiscal.documents)
      (hbills : w.floor.db.KeepsBills w'.floor.db) : Steps w op w'
  | opened {call : FiscalCall} {calls : Table FiscalCall} (h : Opens w call.phase)
      (hins : w.calls.insert? call = some calls) : Steps w op { w with calls }
  | ended {callId : Nat} (hop : op.callId? = some callId) : Steps w op (w.forget callId)
  | heard {c : FiscalCall} {r : Except AdapterError AdapterReply} {phase : FiscalPhase}
      (hop : op.callId? = some c.callId) (hfind : w.calls.find? c.callId = some c)
      (h : c.phase.hear w.registry r = some (.ok (some phase))) :
      Steps w op (w.setPhase c.callId phase)
  | wrote {c : FiscalCall} {fiscal : FiscalDb} {next : Option FiscalPhase}
      (hop : op.callId? = some c.callId)
      (hrecord : next = none → ∃ invoiceId deliveryId now,
        op = .record c.callId invoiceId deliveryId now)
      (hfind : w.calls.find? c.callId = some c) (h : Writes w.fiscal fiscal c.phase next) :
      Steps w op (({ w with fiscal } : FiscalWorld).goOn c.callId next)

theorem FiscalWorld.Steps.nothing (w : FiscalWorld) (op : FiscalOp) : w.Steps op w :=
  .aside rfl rfl rfl rfl (.refl _)

/-- A call whose phase has an answer. -/
theorem find_of_bind {w : FiscalWorld} {callId : Nat} {α : Type} {f : FiscalCall → Option α} {a : α}
    (h : (w.calls.find? callId).bind f = some a) :
    ∃ c, w.calls.find? c.callId = some c ∧ c.callId = callId ∧ f c = some a := by
  obtain ⟨c, hfind, hc⟩ := Option.bind_eq_some_iff.mp h
  obtain rfl : c.callId = callId := Table.find?_key hfind
  exact ⟨c, hfind, rfl, hc⟩

theorem FiscalWorld.steps_opens (w : FiscalWorld) (op : FiscalOp) (call : FiscalCall)
    (h : Opens w call.phase) : w.Steps op (w.opens call) := by
  unfold FiscalWorld.opens
  split
  · rename_i calls hins
    exact .opened h hins
  · exact .nothing w op

theorem FiscalWorld.steps_perform {w : FiscalWorld} {op : FiscalOp} {c : FiscalCall}
    {x : Tx Err FiscalDb Unit} {next : Option FiscalPhase} (hop : op.callId? = some c.callId)
    (hrecord : next = none → ∃ invoiceId deliveryId now,
      op = .record c.callId invoiceId deliveryId now)
    (hfind : w.calls.find? c.callId = some c)
    (h : ∀ u s', x.run w.fiscal = .ok u s' → Writes w.fiscal s' c.phase next) :
    w.Steps op (w.perform c.callId x next).1 := by
  unfold FiscalWorld.perform
  split
  · rename_i u s' hrun
    exact .wrote hop hrecord hfind (h u s' hrun)
  · exact .ended hop

theorem FiscalOp.steps (w : FiscalWorld) (op : FiscalOp) : w.Steps op (op.step w).1 := by
  cases op with
  | floor op => exact .aside rfl rfl rfl rfl (FloorOp.step_changes w.floor op).frozen
  | agree splits shares items => exact .aside rfl rfl rfl rfl (.refl _)
  | configure series issuers => exact .aside rfl rfl rfl rfl (.refl _)
  | prepare callId requestId args tableName =>
    simp only [FiscalOp.step]
    split
    · rename_i prepared h
      exact w.steps_opens _ _ (.built h)
    · exact .nothing w _
  | resolve callId restaurantId requestId =>
    simp only [FiscalOp.step]
    split
    · rename_i read h
      split
      · rename_i hstatus
        exact w.steps_opens _ _ (.reading h hstatus)
      · exact .nothing w _
    · exact .nothing w _
  | request callId nonce =>
    simp only [FiscalOp.step]
    split
    · rename_i x next h
      obtain ⟨c, hfind, rfl, hc⟩ := find_of_bind h
      exact w.steps_perform rfl nofun hfind fun u s' hrun => begin_writes hc hrun
    · exact .nothing w _
  | send callId =>
    simp only [FiscalOp.step]
    split
    · rename_i x next h
      obtain ⟨c, hfind, rfl, hc⟩ := find_of_bind h
      exact w.steps_perform rfl nofun hfind fun u s' hrun => send_writes hc hrun
    · exact .nothing w _
  | reply callId r =>
    simp only [FiscalOp.step]
    split
    · rename_i next h
      obtain ⟨c, hfind, rfl, hc⟩ := find_of_bind h
      cases next with
      | none => exact .ended rfl
      | some phase => exact .heard rfl hfind hc
    · exact .ended rfl
    · exact .nothing w _
  | record callId invoiceId deliveryId now =>
    simp only [FiscalOp.step]
    split
    · rename_i x h
      obtain ⟨c, hfind, rfl, hc⟩ := find_of_bind h
      exact w.steps_perform rfl (fun _ => ⟨_, _, _, rfl⟩) hfind fun u s' hrun => record_writes hc hrun
    · exact .nothing w _
  | die callId => exact .ended rfl

/-! ## A supper -/

/-- A settled payment of the supper. -/
def supperPayment (id : Uuid) (amountVes : Int) (h : 0 < amountVes) : Payment where
  id := id
  restaurantId := 1
  billId := 10
  amountVes := amountVes
  tipVes := 0
  status := .succeeded
  paymentMethod := .cash
  provider := none
  providerPaymentId := none
  declaredReference := none
  idempotencyKey := none
  splitParticipantId := none
  createdAt := 0
  amount_pos := h
  tip_nonneg := le_rfl

/-- A bill of one dish, and the payments that have settled it or a part of it. -/
def supper (priceMinor vatBps vatMinor : Int) (payments : Table Payment) : Floor where
  ledger := .idle
    { bills := ⟨[{ id := 10, restaurantId := 1, status := .open, currency := .ves
                   subtotalMinor := priceMinor, vatBps := vatBps, vatMinor := vatMinor
                   serviceChargeBps := 0, serviceChargeMinor := 0
                   totalDue := priceMinor + vatMinor, totalDueVes := priceMinor + vatMinor
                   amountPaidVes := (payments.rows.map (·.amountVes)).sum
                   fxRateVesPerUnit := none, fxRateSource := none }], by simp⟩
      items := ⟨[{ id := 40, restaurantId := 1, billId := 10, productId := none
                   nameSnapshot := "Pabellón", unitPriceMinor := priceMinor, currency := .ves
                   quantity := 1, taxCategory := .taxable, vatBps := some vatBps }], by simp⟩
      payments := payments
      products := ∅, transitions := [], splits := ∅, shares := ∅, adjustments := ∅, charges := ∅
      attempts := [], events := ∅, movements := ∅, bankMatches := ∅ }
  restaurants := ∅
  rateFor := fun _ => none
  openings := []

/-- Nothing of a supper has been invoiced; its issuer has a RIF. -/
def FiscalWorld.supper (floor : Floor) (registry : List String) (series : Table FiscalSeries) :
    FiscalWorld :=
  .start floor registry series ⟨[⟨1, some "J-1"⟩], by simp⟩ []

/-- What an adapter answers when it has issued a document. -/
def issuedReply (documentNumber controlNumber : String) : Except AdapterError AdapterReply :=
  .ok { outcome := some "ISSUED", documentNumber := some documentNumber
        controlNumber := some controlNumber }

def uncertainReply : Except AdapterError AdapterReply := .ok { outcome := some "UNCERTAIN" }

def rejectedReply : Except AdapterError AdapterReply := .ok { outcome := some "REJECTED" }

end Splite
