import Splite.Fiscal.Requests

/-!
# One invoice for a payment (`services/fiscalInvoicing.js`)

`resolveUncertain` reads a request, asks the provider, and writes what it learns without looking at the
request again. Two of them may have learnt different things.

* `FiscalOp.Overwrites`: a call writes `FAILED` over a request that another call has issued.
* `Settled.steps`: as long as no call does, a request that has a document is `ISSUED`.
* `invoiced_once_iff`: a run keeps to one invoice for every payment exactly when no call does.
* `supper_invoiced_twice`: a payment with two invoices.
-/

namespace Splite

/-! ## What is kept -/

/-- No `ISSUED` request leaves its status, no payment has two invoices behind the step, and it lets in
no request for a payment that has a document. -/
def OneInvoice (w : FiscalWorld) (op : FiscalOp) : Prop :=
  let w' := (invoicing.step w op).1
  (∀ q ∈ w.fiscal.requests.rows, q.status = .issued →
    ∃ q' ∈ w'.fiscal.requests.rows, q'.id = q.id ∧ q'.status = .issued) ∧
  (∀ d ∈ w'.fiscal.documents.rows, ∀ d' ∈ w'.fiscal.documents.rows, d.documentType = .invoice →
    d'.documentType = .invoice → d.paymentId = d'.paymentId → d = d') ∧
  ∀ q ∈ w'.fiscal.requests.rows, (∀ r ∈ w.fiscal.requests.rows, r.id ≠ q.id) →
    ∀ d ∈ w.fiscal.documents.rows, d.paymentId ≠ q.paymentId

instance (w : FiscalWorld) (op : FiscalOp) : Decidable (OneInvoice w op) :=
  inferInstanceAs (Decidable (_ ∧ _ ∧ _))

/-- A call writes that the provider has not issued a request, which is `ISSUED` by now. -/
def FiscalOp.Overwrites (w : FiscalWorld) : FiscalOp → Prop
  | .record callId .. => ∃ read reason,
      w.calls.find? callId = some ⟨callId, .learnt read (.rejected reason)⟩ ∧
      ∃ q ∈ w.fiscal.requests, q.id = read.request.id ∧ q.status = .issued
  | _ => False

/-- A request that has a document is `ISSUED`. -/
def FiscalDb.Settled (s : FiscalDb) : Prop :=
  ∀ d ∈ s.documents, ∀ q ∈ s.requests, q.id = d.requestId → q.status = .issued

/-- `ISSUED` requests stay `ISSUED`. -/
def FiscalDb.KeepsIssued (s s' : FiscalDb) : Prop :=
  ∀ q ∈ s.requests, q.status = .issued → ∃ q' ∈ s'.requests, q'.id = q.id ∧ q'.status = .issued

/-- A new request is for a payment that has no document. -/
def FiscalDb.Admits (s s' : FiscalDb) : Prop :=
  ∀ q ∈ s'.requests, (∀ r ∈ s.requests, r.id ≠ q.id) → ∀ d ∈ s.documents, d.paymentId ≠ q.paymentId

variable {s s' : FiscalDb} {q r : FiscalRequest} {w w' : FiscalWorld}

theorem FiscalDb.KeepsIssued.refl (s : FiscalDb) : s.KeepsIssued s := fun q hq hissued =>
  ⟨q, hq, rfl, hissued⟩

theorem FiscalDb.KeepsIssued.of_mem (h : ∀ q ∈ s.requests, q ∈ s'.requests) : s.KeepsIssued s' :=
  fun q hq hissued => ⟨q, h q hq, rfl, hissued⟩

/-- The documents are the ones of before, and so are the requests but for one that makes progress. -/
theorem FiscalDb.Settled.progressed {status : FiscalStatus} (h : s.Settled) (hq : q ∈ s.requests)
    (hp : Progressed s q.id status s') (hdocuments : s'.documents = s.documents)
    (hne : q.status ≠ .issued) : s'.Settled ∧ s.KeepsIssued s' ∧ s.Admits s' := by
  obtain ⟨q', hsame, -, -, hrows⟩ := hp q (Table.find?_eq_some.mpr ⟨hq, rfl⟩)
  refine ⟨fun d hd r hr hid => ?_, fun r hr hissued => ?_, fun r hr hnew => ?_⟩
  · rw [hdocuments] at hd
    rcases (hrows r).mp hr with rfl | ⟨hr, -⟩
    · exact absurd (h d hd q hq (hsame.id.symm.trans hid)) hne
    · exact h d hd r hr hid
  · have hid : r.id ≠ q.id := fun hid => hne (Table.eq_of_key hr hq hid ▸ hissued)
    exact ⟨r, (hrows r).mpr (.inr ⟨hr, hid⟩), rfl, hissued⟩
  · rcases (hrows r).mp hr with rfl | ⟨hr, -⟩
    · exact absurd hsame.id.symm (hnew q hq)
    · exact absurd rfl (hnew r hr)

/-- A document is written, and its request is `ISSUED` with it. -/
theorem FiscalDb.Settled.persisted {invoiceId : Uuid} {now : Time} {i : Issuing}
    {result : Option IssuedAnswer} {d : FiscalDocument} (h : s.Settled)
    (hp : Persisted s invoiceId now i result d s') (hq : q ∈ s.requests) (hid : q.id = i.requestId) :
    s'.Settled ∧ s.KeepsIssued s' ∧ s.Admits s' := by
  obtain ⟨q', hsame, hst, -, hrows⟩ := hp.progressed q (Table.find?_eq_some.mpr ⟨hq, hid⟩)
  obtain ⟨numbers, rfl, -⟩ := hp.row
  refine ⟨fun e he r hr hrid => ?_, fun r hr hissued => ?_, fun r hr hnew => ?_⟩
  · rcases (hrows r).mp hr with rfl | ⟨hr, hne⟩
    · exact hst
    · rcases (Table.mem_insert? hp.inserted).mp he with he | rfl
      · exact h e he r hr hrid
      · exact absurd hrid hne
  · by_cases hrq : r.id = i.requestId
    · exact ⟨q', (hrows q').mpr (.inl rfl), (hsame.id.trans hid).trans hrq.symm, hst⟩
    · exact ⟨r, (hrows r).mpr (.inr ⟨hr, hrq⟩), rfl, hissued⟩
  · rcases (hrows r).mp hr with rfl | ⟨hr, -⟩
    · exact absurd hsame.id.symm (hnew q hq)
    · exact absurd rfl (hnew r hr)

/-- The request that is let in has no document, and no payment of a document is its payment. -/
theorem FiscalDb.Settled.insert (h : s.Settled) (hs : s.Sound) (hclash : s.requestClash q = none)
    (hins : s.requests.insert? q = some s'.requests) (hdocuments : s'.documents = s.documents)
    (hlive : q.live) : s'.Settled ∧ s.KeepsIssued s' ∧ s.Admits s' := by
  have hfresh := (Table.insert?_eq_some.mp hins).1
  have hmem : ∀ r, r ∈ s'.requests ↔ r ∈ s.requests ∨ r = q := fun r => Table.mem_insert? hins
  refine ⟨fun d hd r hr hid => ?_, .of_mem fun r hr => (hmem r).mpr (.inl hr), fun r hr hnew d hd => ?_⟩
  · rw [hdocuments] at hd
    rcases (hmem r).mp hr with hr | rfl
    · exact h d hd r hr hid
    · obtain ⟨r', hr', hid', -⟩ := hs.document d hd
      exact absurd (hid'.trans hid.symm) (hfresh r' hr')
  · rcases (hmem r).mp hr with hr | rfl
    · exact absurd rfl (hnew r hr)
    · intro hpay
      obtain ⟨r', hr', hid', hpay', -⟩ := hs.document d hd
      have hissued : r'.status = .issued := h d hd r' hr' hid'
      have hlive' : r'.live := by
        rw [FiscalRequest.live, hissued]
        decide
      refine (request_clash_eq_none.mp ?_).1 ⟨(hpay'.trans hpay).symm, hlive, hlive'⟩
      exact requestClash_eq_none.mp hclash r' hr' (hfresh r' hr')

/-! ## One step -/

theorem FiscalDb.Settled.wrote {c : FiscalCall} {fiscal : FiscalDb} {next : Option FiscalPhase}
    (h : w.fiscal.Settled) (hsound : w.Sound) (hfind : w.calls.find? c.callId = some c)
    (hw : Writes w.fiscal fiscal c.phase next)
    (hover : ∀ read reason, c.phase = .learnt read (.rejected reason) →
      ∀ q ∈ w.fiscal.requests, q.id = read.request.id → q.status ≠ .issued) :
    fiscal.Settled ∧ w.fiscal.KeepsIssued fiscal ∧ w.fiscal.Admits fiscal := by
  have hc := Table.find?_mem hfind
  obtain ⟨callId, phase⟩ := c
  cases hw with
  | requested hclash hins hdocuments =>
    exact h.insert hsound.fiscal hclash hins hdocuments fun h => by cases h
  | sent hp hdocuments =>
    obtain ⟨q, hq, hid, hstatus, -⟩ := hsound.find_task hc rfl
    refine h.progressed hq (hid ▸ hp) hdocuments fun hissued => ?_
    cases hstatus.symm.trans hissued
  | unissued _ hp hdocuments =>
    obtain ⟨q, hq, hid, hstatus, -⟩ := hsound.find_task hc rfl
    refine h.progressed hq (hid ▸ hp) hdocuments fun hissued => ?_
    cases hstatus.symm.trans hissued
  | issued htask hp =>
    obtain ⟨q, hq, hid, -⟩ := hsound.find_task hc htask
    exact h.persisted hp hq hid
  | issuedLate hi hp =>
    obtain ⟨q, hq, hsame, -⟩ := hsound.find_read hc rfl
    exact h.persisted hp hq (hsame.id.trans (lateIssuing_ok hi).1.symm)
  | failed hp hdocuments =>
    obtain ⟨q, hq, hsame, -⟩ := hsound.find_read hc rfl
    exact h.progressed hq (hsame.id ▸ hp) hdocuments (hover _ _ rfl q hq hsame.id)

/-- A step that overwrites nothing keeps what is issued, and lets in no request for a payment that has
a document. -/
theorem FiscalDb.Settled.steps {op : FiscalOp} (h : w.fiscal.Settled) (hsound : w.Sound)
    (hs : w.Steps op w') (hover : ¬op.Overwrites w) :
    w'.fiscal.Settled ∧ w.fiscal.KeepsIssued w'.fiscal ∧ w.fiscal.Admits w'.fiscal := by
  have hsame : ∀ s : FiscalDb, s.requests = w.fiscal.requests → s.documents = w.fiscal.documents →
      s.Settled ∧ w.fiscal.KeepsIssued s ∧ w.fiscal.Admits s := by
    intro s hrequests hdocuments
    refine ⟨?_, .of_mem fun r hr => hrequests ▸ hr, fun r hr hnew => ?_⟩
    · unfold FiscalDb.Settled
      rw [hrequests, hdocuments]
      exact h
    · exact absurd rfl (hnew r (hrequests ▸ hr))
  cases hs with
  | aside _ _ hrequests hdocuments _ => exact hsame _ hrequests hdocuments
  | opened => exact hsame _ rfl rfl
  | ended => exact hsame _ rfl rfl
  | heard => exact hsame _ rfl rfl
  | @wrote c fiscal next hop hrecord hfind hw =>
    rw [(goOn_rest { w with fiscal } c.callId next).1]
    refine h.wrote hsound hfind hw fun read reason hphase q hq hid hissued => hover ?_
    obtain ⟨callId, phase⟩ := c
    subst hphase
    have hnone : next = none := by cases hw <;> rfl
    obtain ⟨invoiceId, deliveryId, now, rfl⟩ := hrecord hnone
    exact ⟨read, reason, hfind, q, hq, hid, hissued⟩

/-- Two invoices of one payment are of one request. -/
theorem FiscalDb.Settled.single (h : s.Settled) (hs : s.Sound) {d d' : FiscalDocument}
    (hd : d ∈ s.documents) (hd' : d' ∈ s.documents) (hpay : d.paymentId = d'.paymentId) : d = d' := by
  obtain ⟨q, hq, hid, hqpay, -⟩ := hs.document d hd
  obtain ⟨r, hr, hrid, hrpay, -⟩ := hs.document d' hd'
  have hlive : ∀ t : FiscalRequest, t.status = .issued → t.live := fun t ht => by
    rw [FiscalRequest.live, ht]
    decide
  obtain rfl : q = r := hs.live_unique hq hr ((hqpay.trans hpay).trans hrpay.symm)
    (hlive q (h d hd q hq hid)) (hlive r (h d' hd' r hr hrid))
  exact hs.single d hd d' hd' (hid.symm.trans hrid)

/-- An overwritten request is `ISSUED` no more. -/
theorem FiscalOp.Overwrites.leaves {op : FiscalOp} (h : op.Overwrites w) (hsound : w.Sound) :
    ¬OneInvoice w op := by
  cases op <;> try exact h.elim
  rename_i callId invoiceId deliveryId now
  obtain ⟨read, reason, hfind, q, hq, hid, hissued⟩ := h
  rintro ⟨hkept, -⟩
  have hqfind : w.fiscal.requests.find? read.request.id = some q := Table.find?_eq_some.mpr ⟨hq, hid⟩
  set f : FiscalRequest → FiscalRequest := fun q =>
    { q with status := .failed, lastErrorCode := some (errorCode reason "NOT_FOUND") } with hf
  have hrun : (markUnissued read.request.id .failed (errorCode reason "NOT_FOUND")).run w.fiscal =
      .ok () { w.fiscal with
        requests := w.fiscal.requests.update read.request.id f fun _ => rfl } := by
    refine updateRequest_commits fun r hr => ?_
    obtain rfl := Option.some.inj (hqfind.symm.trans hr)
    exact hsound.fiscal.unclashed_failed hq rfl rfl
  have hstep : (invoicing.step w (.record callId invoiceId deliveryId now)).1.fiscal.requests =
      w.fiscal.requests.update read.request.id f fun _ => rfl := by
    simp only [invoicing, FiscalOp.step, hfind, Option.bind_some, FiscalPhase.record,
      FiscalWorld.perform, hrun]
    rfl
  obtain ⟨q', hq', hid', hissued'⟩ := hkept q hq hissued
  rw [hstep] at hq'
  rcases (Table.mem_update_of_find f (fun _ => rfl) hqfind).mp hq' with rfl | ⟨-, hne⟩
  · cases hissued'
  · exact hne (hid'.trans hid)

/-! ## Whole runs -/

/-- What a run of the fiscal service keeps while nothing is overwritten. -/
theorem FiscalWorld.settled_step (w : FiscalWorld) (op : FiscalOp) (h : w.Sound ∧ w.fiscal.Settled)
    (hover : ¬op.Overwrites w) :
    (invoicing.step w op).1.Sound ∧ (invoicing.step w op).1.fiscal.Settled :=
  ⟨h.1.step op, (h.2.steps h.1 (op.steps w) hover).1⟩

theorem OneInvoice.of_settled (w : FiscalWorld) (op : FiscalOp) (h : w.Sound ∧ w.fiscal.Settled)
    (hover : ¬op.Overwrites w) : OneInvoice w op := by
  obtain ⟨hsettled, hkept, hadmits⟩ := h.2.steps h.1 (op.steps w) hover
  exact ⟨hkept, fun d hd d' hd' _ _ hpay => hsettled.single (h.1.step op).fiscal hd hd' hpay, hadmits⟩

/-- A run of the fiscal service keeps to one invoice for every payment, and to `ISSUED` for every
request that has reached it, exactly when no call overwrites an issued request with `FAILED`. -/
theorem invoiced_once_iff (floor : Floor) (registry : List String) (series : Table FiscalSeries)
    (issuers : Table Issuer) (splitItems : List SplitItem) (ops : List FiscalOp) :
    let w := FiscalWorld.start floor registry series issuers splitItems
    invoicing.Every OneInvoice w ops ↔ invoicing.Every (fun w op => ¬op.Overwrites w) w ops := by
  intro w
  have hsound : w.Sound := .start floor registry series issuers splitItems
  constructor
  · exact Machine.every_imp (fun w op h _ => h.step op)
      (fun w op h hone hover => hover.leaves h hone) hsound
  · refine Machine.every_imp FiscalWorld.settled_step OneInvoice.of_settled ⟨hsound, ?_⟩
    exact fun d hd => absurd hd List.not_mem_nil

/-- A payment of 100 of a bill of 200 is invoiced with an answer that is `UNCERTAIN`. Two members of the
staff press the button; one asks before the document is there, and the other behind it. The later of
their writes says `FAILED`, and the payment is invoiced once more. -/
def pressedTwice : List FiscalOp :=
  [ .prepare 1 100 ⟨1, 10, 30, {}, "imprenta"⟩ none, .request 1 "a", .send 1,
    .reply 1 uncertainReply, .reply 1 uncertainReply, .record 1 0 0 5,
    .resolve 2 1 100, .resolve 3 1 100,
    .reply 2 rejectedReply, .reply 3 (issuedReply "F-1" "00-1"), .record 3 200 0 6, .record 2 0 0 7,
    .prepare 4 101 ⟨1, 10, 30, {}, "imprenta"⟩ none, .request 4 "b", .send 4,
    .reply 4 (issuedReply "F-2" "00-2"), .record 4 201 0 8 ]

theorem supper_invoiced_twice :
    let w := FiscalWorld.supper (supper 200 0 0 ⟨[supperPayment 30 100 (by decide)], by simp⟩)
      ["imprenta"] ∅
    ¬invoicing.Every OneInvoice w pressedTwice ∧
      ((invoicing.run w pressedTwice).fiscal.documents.rows.map fun d => (d.id, d.paymentId)) =
        [(200, 30), (201, 30)] ∧
      ((invoicing.run w pressedTwice).fiscal.requests.rows.map fun q => (q.id, q.status)) =
        [(100, .failed), (101, .issued)] := by
  decide +kernel

end Splite
