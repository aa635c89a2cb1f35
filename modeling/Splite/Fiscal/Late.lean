import Splite.Fiscal.Requests

/-!
# The document of a late answer (`services/fiscalInvoicing.js`)

A document is written by `issueForPayment` when the provider answers at once, and by `resolveUncertain`,
from the row of the request, when the answer is late.

* `FiscalDb.KeepsRequests.run`: a request keeps what it was inserted with.
* `lateIssuing_eq`: what `resolveUncertain` writes, but for the customer, is what `issueForPayment`
  would have written.
* `late_rows_iff`: the rows are the same exactly when the payer gave no name, RIF and mail.
* `supper_resolved_without_customer`: a payer whose mail is not sent.
-/

namespace Splite

open Js (Json)

variable {s s' t : FiscalDb} {q : FiscalRequest} {w w' : FiscalWorld}

/-! ## What lasts -/

/-- The requests of before, but for their progress. -/
def FiscalDb.KeepsRequests (s s' : FiscalDb) : Prop := ∀ q ∈ s.requests, ∃ q' ∈ s'.requests, q'.Same q

namespace FiscalDb.KeepsRequests

theorem of_mem (h : ∀ q ∈ s.requests, q ∈ s'.requests) : s.KeepsRequests s' := fun q hq =>
  ⟨q, h q hq, .refl q⟩

theorem trans (h : s.KeepsRequests s') (h' : s'.KeepsRequests t) : s.KeepsRequests t := by
  intro q hq
  obtain ⟨r, hr, hsame⟩ := h q hq
  obtain ⟨r', hr', hsame'⟩ := h' r hr
  exact ⟨r', hr', hsame'.trans hsame⟩

theorem of_progressed {status : FiscalStatus} (hq : q ∈ s.requests)
    (hp : Progressed s q.id status s') : s.KeepsRequests s' := by
  obtain ⟨q', hsame, -, -, hrows⟩ := hp q (Table.find?_eq_some.mpr ⟨hq, rfl⟩)
  intro r hr
  by_cases hid : r.id = q.id
  · obtain rfl : r = q := Table.eq_of_key hr hq hid
    exact ⟨q', (hrows q').mpr (.inl rfl), hsame⟩
  · exact ⟨r, (hrows r).mpr (.inr ⟨hr, hid⟩), .refl r⟩

theorem of_writes {c : FiscalCall} {fiscal : FiscalDb} {next : Option FiscalPhase} (h : w.Sound)
    (hfind : w.calls.find? c.callId = some c) (hw : Writes w.fiscal fiscal c.phase next) :
    w.fiscal.KeepsRequests fiscal := by
  have hc := Table.find?_mem hfind
  obtain ⟨callId, phase⟩ := c
  cases hw with
  | requested _ hins _ => exact of_mem fun r hr => (Table.mem_insert? hins).mpr (.inl hr)
  | sent hp _ =>
    obtain ⟨q, hq, hid, -⟩ := h.find_task hc rfl
    exact of_progressed hq (hid ▸ hp)
  | unissued _ hp _ =>
    obtain ⟨q, hq, hid, -⟩ := h.find_task hc rfl
    exact of_progressed hq (hid ▸ hp)
  | issued htask hp =>
    obtain ⟨q, hq, hid, -⟩ := h.find_task hc htask
    exact of_progressed hq (by rw [hid]; exact hp.progressed)
  | issuedLate hi hp =>
    obtain ⟨q, hq, hsame, -⟩ := h.find_read hc rfl
    exact of_progressed hq ((hsame.id.trans (lateIssuing_ok hi).1.symm) ▸ hp.progressed)
  | failed hp _ =>
    obtain ⟨q, hq, hsame, -⟩ := h.find_read hc rfl
    exact of_progressed hq (hsame.id ▸ hp)

theorem of_steps {op : FiscalOp} (h : w.Sound) (hs : w.Steps op w') :
    w.fiscal.KeepsRequests w'.fiscal := by
  cases hs with
  | aside _ _ hrequests _ _ => exact of_mem fun r hr => hrequests ▸ hr
  | opened => exact of_mem fun r hr => hr
  | ended => exact of_mem fun r hr => hr
  | heard => exact of_mem fun r hr => hr
  | @wrote c fiscal next _ _ hfind hw =>
    rw [(goOn_rest { w with fiscal } c.callId next).1]
    exact of_writes h hfind hw

theorem run (h : w.Sound) (ops : List FiscalOp) :
    w.fiscal.KeepsRequests (invoicing.run w ops).fiscal := by
  induction ops generalizing w with
  | nil => exact of_mem fun r hr => hr
  | cons op ops ih => exact (of_steps h (op.steps w)).trans (ih (h.step op))

end FiscalDb.KeepsRequests

theorem FiscalWorld.Steps.keepsBills {op : FiscalOp} (hs : w.Steps op w') :
    w.floor.db.KeepsBills w'.floor.db := by
  cases hs with
  | aside _ _ _ _ hbills => exact hbills
  | opened => exact .refl _
  | ended => exact .refl _
  | heard => exact .refl _
  | @wrote c fiscal next _ _ _ _ =>
    rw [(goOn_rest { w with fiscal } c.callId next).2.1]
    exact .refl _

theorem FiscalWorld.run_keepsBills (w : FiscalWorld) (ops : List FiscalOp) :
    w.floor.db.KeepsBills (invoicing.run w ops).floor.db := by
  induction ops generalizing w with
  | nil => exact .refl _
  | cons op ops ih =>
    intro b hb
    obtain ⟨b', hb', hid, hfrozen⟩ := (op.steps w).keepsBills b hb
    obtain ⟨b'', hb'', hid', hfrozen'⟩ := ih _ b' hb'
    exact ⟨b'', hb'', hid'.trans hid, hfrozen'.trans hfrozen⟩

/-! ## The late path -/

/-- What `resolveUncertain` reads of a request is what the call that inserted it had. -/
theorem lateIssuing_eq {read : ReadRequest} {t : IssueTask} {nonce : String}
    (hsame : read.request.Same (t.args.row t.requestId nonce t.prepared.draft))
    (hrate : read.fxRateVesPerUnit = t.prepared.bill.fxRateVesPerUnit) :
    lateIssuing read = .ok { t.issuing with customer := {} } := by
  have hdraft : read.request.draftJson = some (serialiseDraft t.prepared.draft) := hsame.draftJson
  unfold lateIssuing
  rw [hdraft, hrate, hsame.restaurantId, hsame.billId, hsame.paymentId, hsame.provider, hsame.id]
  simp only [Except.bind_eq_ok, Except.ofOption_eq_ok, Except.pure_eq_ok]
  refine ⟨_, rfl, _, reviveDraft_serialiseDraft _, ?_⟩
  rw [customerOf_serialiseDraft]
  rfl

/-- A resolver that reads the request of a task reads what the task was built with. -/
theorem FiscalWorld.Sound.late (h : w.Sound) {callId lateId : Nat} {t : IssueTask}
    {read : ReadRequest} {answer : ProviderResult} {ops : List FiscalOp}
    (hsent : w.calls.find? callId = some ⟨callId, .sent t⟩)
    (hlate : (invoicing.run w ops).calls.find? lateId = some ⟨lateId, .learnt read answer⟩)
    (hread : read.request.id = t.requestId) :
    lateIssuing read = .ok { t.issuing with customer := {} } := by
  have hcall := h.call _ (Table.find?_mem hsent)
  have hlater := (h.run ops).call _ (Table.find?_mem hlate)
  obtain ⟨q, hq, -, nonce, hrow⟩ := hcall.task t rfl
  obtain ⟨q', hq', hsame⟩ := FiscalDb.KeepsRequests.run h ops q hq
  obtain ⟨r, hr, hrsame, -⟩ := hlater.read read rfl
  have hid : r.id = q'.id := by
    rw [hrsame.id, hread, hsame.id, hrow.id]
    rfl
  obtain rfl : r = q' := Table.eq_of_key hr hq' hid
  have hreadrow : read.request.Same (t.args.row t.requestId nonce t.prepared.draft) :=
    (hrsame.symm.trans hsame).trans hrow
  obtain ⟨b, hb, hbid, hbrate⟩ := hcall.built t rfl
  obtain ⟨b', hb', hbid', hbrate'⟩ := (w.run_keepsBills ops).rate hb
  obtain ⟨e, he, heid, herate⟩ := hlater.rate read rfl
  obtain rfl : e = b' := by
    refine Table.eq_of_key he hb' ?_
    show e.id = b'.id
    rw [heid, hreadrow.billId, hbid', hbid]
    rfl
  exact lateIssuing_eq hreadrow (herate.symm.trans (hbrate'.trans hbrate))

/-! ## The rows -/

/-- What a step writes of documents and mails. -/
def FiscalOp.written (w : FiscalWorld) (op : FiscalOp) : List FiscalDocument × List FiscalDelivery :=
  let w' := (invoicing.step w op).1
  (w.fiscal.documents.added w'.fiscal.documents, w.fiscal.deliveries.added w'.fiscal.deliveries)

/-- The columns of a document that come from the draft, the bill and the payer. -/
def FiscalDocument.content (d : FiscalDocument) : InvoiceDraft × Option Int × Customer :=
  (d.toInvoiceDraft, d.fxRateVesPerUnit, d.customer)

/-- The same lines, breakdown, totals, basis, rate and customer, and mails to the same addresses. -/
def SameRows (a b : List FiscalDocument × List FiscalDelivery) : Prop :=
  a.1.map FiscalDocument.content = b.1.map FiscalDocument.content ∧
    a.2.map (·.email) = b.2.map (·.email)

instance (a b : List FiscalDocument × List FiscalDelivery) : Decidable (SameRows a b) :=
  inferInstanceAs (Decidable (_ ∧ _))

/-- The last write of a call that writes a document. -/
theorem FiscalOp.written_of_record {callId : Nat} {phase : FiscalPhase}
    {invoiceId deliveryId : Uuid} {now : Time} {x : Tx Err FiscalDb Unit}
    (hfind : w.calls.find? callId = some ⟨callId, phase⟩)
    (hrecord : phase.record invoiceId deliveryId now = some x)
    (hne : (FiscalOp.written w (.record callId invoiceId deliveryId now)).1 ≠ []) :
    ∃ fiscal, x.run w.fiscal = .ok () fiscal ∧
      FiscalOp.written w (.record callId invoiceId deliveryId now) =
        (w.fiscal.documents.added fiscal.documents, w.fiscal.deliveries.added fiscal.deliveries) := by
  have hstep : invoicing.step w (.record callId invoiceId deliveryId now) = w.perform callId x none := by
    simp only [invoicing, FiscalOp.step, hfind, Option.bind_some, hrecord]
  unfold FiscalOp.written at hne ⊢
  rw [hstep] at hne ⊢
  unfold FiscalWorld.perform at hne ⊢
  cases hrun : x.run w.fiscal with
  | ok u fiscal => exact ⟨fiscal, rfl, rfl⟩
  | error err fiscal =>
    rw [hrun] at hne
    exact absurd Table.added_self hne

/-- The document of an `Issuing`, with mails to its customer only. -/
theorem Persisted.written {invoiceId : Uuid} {now : Time} {i : Issuing} {answer : Option IssuedAnswer}
    {d : FiscalDocument} (h : Persisted s invoiceId now i answer d s') :
    (s.documents.added s'.documents).map FiscalDocument.content =
        [(i.draft, i.fxRateVesPerUnit, i.customer)] ∧
      (i.customer.email = none → s.deliveries.added s'.deliveries = []) := by
  obtain ⟨numbers, rfl, -⟩ := h.row
  refine ⟨?_, fun hnone => ?_⟩
  · rw [Table.added_insert h.inserted]
    rfl
  · rcases h.mail with hsame | ⟨m, hemail, -⟩
    · rw [hsame, Table.added_self]
    · rw [hnone] at hemail
      cases hemail

/-- A call issues a payment, and the provider is about to be asked. In one run it answers at once that
it has issued the document, in another one a resolver learns so later, after whatever else happens.
Where both write, they write the same rows exactly when the payer gave no name, RIF and mail. -/
theorem late_rows_iff (floor : Floor) (registry : List String) (series : Table FiscalSeries)
    (issuers : Table Issuer) (splitItems : List SplitItem) (ops direct late : List FiscalOp)
    (callId lateId : Nat) (t : IssueTask) (answer : IssuedAnswer) (read : ReadRequest)
    (invoiceId invoiceId' deliveryId deliveryId' : Uuid) (now now' : Time) :
    let w := invoicing.run (.start floor registry series issuers splitItems) ops
    let record := FiscalOp.record callId invoiceId deliveryId now
    let recordLate := FiscalOp.record lateId invoiceId' deliveryId' now'
    w.calls.find? callId = some ⟨callId, .sent t⟩ →
    (invoicing.run w direct).calls.find? callId = some ⟨callId, .answered t (.issued answer)⟩ →
    (invoicing.run w late).calls.find? lateId = some ⟨lateId, .learnt read (.issued answer)⟩ →
    read.request.id = t.requestId →
    (record.written (invoicing.run w direct)).1 ≠ [] →
    (recordLate.written (invoicing.run w late)).1 ≠ [] →
    (SameRows (record.written (invoicing.run w direct)) (recordLate.written (invoicing.run w late)) ↔
      t.args.customer.name = none ∧ t.args.customer.taxId = none ∧ t.args.customer.email = none) := by
  intro w record recordLate hsent hdirect hlate hread hwritten hwritten'
  have hsound : w.Sound := (FiscalWorld.Sound.start floor registry series issuers splitItems).run ops
  have hi := hsound.late hsent hlate hread
  obtain ⟨fiscal, hrun, hrows⟩ := FiscalOp.written_of_record hdirect rfl hwritten
  obtain ⟨fiscal', hrun', hrows'⟩ := FiscalOp.written_of_record hlate rfl hwritten'
  obtain ⟨d, hd⟩ := persist_ok hrun
  obtain ⟨i, _, hrevived, hpersist⟩ := Tx.bind_ok.mp hrun'
  obtain ⟨hi', rfl⟩ := Tx.ofExcept_ok.mp hrevived
  obtain rfl := Except.ok.inj (hi'.symm.trans hi)
  obtain ⟨d', hd'⟩ := persist_ok hpersist
  obtain ⟨hcontent, hmail⟩ := hd.written
  obtain ⟨hcontent', hmail'⟩ := hd'.written
  rw [hrows, hrows']
  unfold SameRows
  rw [hcontent, hcontent', hmail' rfl]
  constructor
  · rintro ⟨hsame, -⟩
    have hcustomer : t.args.customer = {} := by
      simpa [IssueTask.issuing, IssueRequest.issuing] using hsame
    rw [hcustomer]
    exact ⟨rfl, rfl, rfl⟩
  · rintro ⟨hname, htaxId, hemail⟩
    have hcustomer : t.issuing.customer = {} := by
      show t.args.customer = {}
      cases h : t.args.customer
      rw [h] at hname htaxId hemail
      cases hname
      cases htaxId
      cases hemail
      rfl
    rw [hmail hemail, hcustomer]
    exact ⟨rfl, rfl⟩

/-! ## A supper with a late answer -/

/-- The payment of 100 of a bill of 200 is invoiced, up to the question to the provider. -/
def askedFor (customer : Customer) : FiscalWorld :=
  invoicing.run
    (.supper (supper 200 0 0 ⟨[supperPayment 30 100 (by decide)], by simp⟩) ["imprenta"] ∅)
    [.prepare 1 100 ⟨1, 10, 30, customer, "imprenta"⟩ none, .request 1 "a", .send 1]

def answersAtOnce : List FiscalOp := [.reply 1 (issuedReply "F-1" "00-1")]

def answersLate : List FiscalOp :=
  [ .reply 1 uncertainReply, .reply 1 uncertainReply, .record 1 0 0 5, .resolve 2 1 100,
    .reply 2 (issuedReply "F-1" "00-1") ]

def firstAnswer : IssuedAnswer := ⟨"F-1", "00-1", none, none⟩

/-- What the call that issues has, and what the one that resolves. -/
def FiscalPhase.issuer? : FiscalPhase → Option (IssueTask × Option ProviderResult)
  | .sent t => some (t, none)
  | .answered t result => some (t, some result)
  | _ => none

def FiscalPhase.resolver? : FiscalPhase → Option (ReadRequest × ProviderResult)
  | .learnt read result => some (read, result)
  | _ => none

theorem FiscalWorld.find_issuer {callId : Nat} {t : IssueTask}
    (h : (w.calls.find? callId).bind (·.phase.issuer?) = some (t, none)) :
    w.calls.find? callId = some ⟨callId, .sent t⟩ := by
  obtain ⟨⟨id, phase⟩, hfind, hphase⟩ := Option.bind_eq_some_iff.mp h
  obtain rfl : id = callId := Table.find?_key hfind
  rw [hfind]
  cases phase <;> cases hphase
  rfl

theorem FiscalWorld.find_answered {callId : Nat} {t : IssueTask} {result : ProviderResult}
    (h : (w.calls.find? callId).bind (·.phase.issuer?) = some (t, some result)) :
    w.calls.find? callId = some ⟨callId, .answered t result⟩ := by
  obtain ⟨⟨id, phase⟩, hfind, hphase⟩ := Option.bind_eq_some_iff.mp h
  obtain rfl : id = callId := Table.find?_key hfind
  rw [hfind]
  cases phase <;> cases hphase
  rfl

theorem FiscalWorld.find_resolver {callId : Nat} {requestId : Uuid} {result : ProviderResult}
    (h : ((w.calls.find? callId).bind (·.phase.resolver?)).map (fun r => (r.1.request.id, r.2)) =
      some (requestId, result)) :
    ∃ read, w.calls.find? callId = some ⟨callId, .learnt read result⟩ ∧
      read.request.id = requestId := by
  obtain ⟨⟨read, result'⟩, hresolver, hread⟩ := Option.map_eq_some_iff.mp h
  obtain ⟨⟨id, phase⟩, hfind, hphase⟩ := Option.bind_eq_some_iff.mp hresolver
  obtain rfl : id = callId := Table.find?_key hfind
  obtain ⟨rfl, rfl⟩ := Prod.mk.inj hread
  rw [hfind]
  cases phase <;> cases hphase
  exact ⟨read, rfl, rfl⟩

/-- The task of the supper. -/
def supperTask (customer : Customer) : IssueTask where
  args := ⟨1, 10, 30, customer, "imprenta"⟩
  requestId := 100
  prepared :=
    { bill := { id := 10, restaurantId := 1, status := .open, currency := .ves, subtotalMinor := 200
                vatBps := 0, vatMinor := 0, serviceChargeBps := 0, serviceChargeMinor := 0
                totalDue := 200, totalDueVes := 200, amountPaidVes := 100
                fxRateVesPerUnit := none, fxRateSource := none }
      draft := { lineBasis := .prorated
                 lines := [⟨1, "Pabellón", 500, 200, .taxable, 0, 100, 0⟩]
                 taxes := [⟨.exempt, 0, 100, 0⟩], subtotalMinor := 100, vatMinor := 0
                 serviceMinor := 0, totalMinor := 100 } }

/-- A payer who gives no data gets the same rows either way. -/
theorem supper_resolved_alike :
    SameRows (FiscalOp.written (invoicing.run (askedFor {}) answersAtOnce) (.record 1 200 300 6))
      (FiscalOp.written (invoicing.run (askedFor {}) answersLate) (.record 2 201 301 9)) := by
  obtain ⟨read, hfind, hid⟩ : ∃ read, (invoicing.run (askedFor {}) answersLate).calls.find? 2 =
      some ⟨2, .learnt read (.issued firstAnswer)⟩ ∧ read.request.id = 100 :=
    FiscalWorld.find_resolver (by decide +kernel)
  exact (late_rows_iff _ _ _ _ _ _ answersAtOnce answersLate 1 2 (supperTask {}) firstAnswer read
    200 201 300 301 6 9 (FiscalWorld.find_issuer (by decide +kernel))
    (FiscalWorld.find_answered (by decide +kernel)) hfind hid (by decide +kernel)
    (by decide +kernel)).mpr ⟨rfl, rfl, rfl⟩

/-- The payer left a name and an address. At once, the document has the name and its mail is scheduled;
late, it has no customer and nothing is scheduled. -/
theorem supper_resolved_without_customer :
    let ana : Customer := { name := some "Ana", email := some "ana@example.com" }
    let atOnce := FiscalOp.written (invoicing.run (askedFor ana) answersAtOnce) (.record 1 200 300 6)
    let late := FiscalOp.written (invoicing.run (askedFor ana) answersLate) (.record 2 201 301 9)
    ¬SameRows atOnce late ∧
      atOnce.1.map (·.customer) = [ana] ∧ late.1.map (·.customer) = [{}] ∧
      atOnce.2.map (·.email) = ["ana@example.com"] ∧ late.2 = [] := by
  decide +kernel

end Splite
