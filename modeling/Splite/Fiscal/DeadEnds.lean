import Splite.Fiscal.Requests

/-!
# Requests that nobody can go on with (`services/fiscalInvoicing.js`)

The row of a request is committed before the provider is asked, and the index keeps a payment from
having another live one. A call that ends behind that without a document leaves its request `SENT` or
`PENDING`, which `resolveUncertain` does not act on.

* `FiscalWorld.NoDeadEnd`: every payment can be gone on with.
* `FiscalOp.CutsShort`: a call ends with its request left as it is.
* `Attended.step`: otherwise every request that waits has its call, or its payment has a document.
* `no_dead_end_iff`: a run leads to no dead end exactly when no call is cut short.
* `supper_stuck`: an own issuer without a series.
-/

namespace Splite

variable {s s' : FiscalDb} {q q' r : FiscalRequest} {w w' : FiscalWorld}

/-! ## Dead ends -/

/-- A request for the payment is let in, with an id and a key that no other request has. -/
def FiscalWorld.Accepts (w : FiscalWorld) (paymentId : Uuid) : Prop :=
  ∀ (args : IssueRequest) (requestId : Uuid) (nonce : String) (draft : InvoiceDraft),
    args.paymentId = paymentId → (∀ q ∈ w.fiscal.requests, q.id ≠ requestId) →
    (∀ q ∈ w.fiscal.requests, q.restaurantId = args.restaurantId →
      q.idempotencyKey ≠ (args.row requestId nonce draft).idempotencyKey) →
    ∃ fiscal, (requestInvoice args requestId nonce draft).run w.fiscal = .ok () fiscal

/-- `resolveUncertain` acts on the request, and some answer of the provider brings it to an end. -/
def FiscalWorld.Resolves (w : FiscalWorld) (q : FiscalRequest) : Prop :=
  ∃ answer, ∀ callId invoiceId deliveryId now, w.calls.find? callId = none →
    ∃ q' ∈ (invoicing.run w [.resolve callId q.restaurantId q.id, .reply callId answer,
        .record callId invoiceId deliveryId now]).fiscal.requests,
      q'.id = q.id ∧ (q'.status = .issued ∨ q'.status = .failed)

/-- A payment without a document, and without a call that has a request for it, can be requested
anew, or has a live request that can be resolved. -/
def FiscalWorld.NoDeadEnd (w : FiscalWorld) : Prop :=
  ∀ paymentId, (∀ d ∈ w.fiscal.documents, d.paymentId ≠ paymentId) →
    (∀ c ∈ w.calls, ∀ t ∈ c.phase.task?, t.args.paymentId ≠ paymentId) →
    ((∀ q ∈ w.fiscal.requests, q.paymentId = paymentId → ¬q.live) ∧ w.Accepts paymentId) ∨
      ∃ q ∈ w.fiscal.requests, q.paymentId = paymentId ∧ q.status = .uncertain ∧ w.Resolves q

/-- What ends a call in this phase with its request left as it is: its death, a provider that is not
registered, a document that cannot be written. -/
def FiscalOp.Breaks (w : FiscalWorld) : FiscalOp → FiscalPhase → Prop
  | .die _, _ => True
  | .reply .., .sent t => t.args.provider ≠ OWN ∧ t.args.provider ∉ w.registry
  | .reply .., .asked t => t.args.provider ∉ w.registry
  | .record _ invoiceId _ now, .sent t =>
    t.args.provider = OWN ∧ ¬w.fiscal.Writable invoiceId now t.issuing none
  | .record _ invoiceId _ now, .answered t (.issued answer) =>
    ¬w.fiscal.Writable invoiceId now t.issuing (some answer)
  | _, _ => False

/-- A call for a payment without a document ends with its request left as it is. -/
def FiscalOp.CutsShort (w : FiscalWorld) (op : FiscalOp) : Prop :=
  ∃ c t, op.callId? = some c.callId ∧ w.calls.find? c.callId = some c ∧ c.phase.task? = some t ∧
    op.Breaks w c.phase ∧ ∀ d ∈ w.fiscal.documents, d.paymentId ≠ t.args.paymentId

/-! ## Statements that do not fail -/

/-- A live request collides with no other, whatever progress it makes. -/
theorem FiscalDb.Sound.unclashed_live (h : s.Sound) (hq : q ∈ s.requests) (hsame : q'.Same q)
    (hlive : q.live) : s.requestClash q' = none := by
  refine requestClash_eq_none.mpr fun r hr hne => request_clash_eq_none.mpr ?_
  have hqr : q.id ≠ r.id := fun hid => hne (by rw [hsame.id, hid])
  obtain ⟨honly, hkey⟩ := request_clash_eq_none.mp (h.unclashed q hq r hr hqr)
  refine ⟨fun hc => honly ⟨hsame.paymentId.symm.trans hc.1, hlive, hc.2.2⟩, ?_⟩
  rw [hsame]
  exact hkey

theorem markSent_commits (h : s.Sound) (hq : q ∈ s.requests) (hlive : q.live) :
    ∃ s', (markSent q.id).run s = .ok () s' := by
  refine ⟨_, updateRequest_commits fun r hr => ?_⟩
  obtain rfl : r = q := Table.eq_of_key (Table.find?_mem hr) hq (Table.find?_key hr)
  exact h.unclashed_live hq rfl hlive

theorem markUnissued_commits (h : s.Sound) (hq : q ∈ s.requests) (hlive : q.live)
    (status : FiscalStatus) (code : String) : ∃ s', (markUnissued q.id status code).run s = .ok () s' := by
  refine ⟨_, updateRequest_commits fun r hr => ?_⟩
  obtain rfl : r = q := Table.eq_of_key (Table.find?_mem hr) hq (Table.find?_key hr)
  exact h.unclashed_live hq rfl hlive

/-- A document that may be written is written, while its request is live. -/
theorem persist_commits {invoiceId : Uuid} (deliveryId : Uuid) {now : Time} {i : Issuing}
    {result : Option IssuedAnswer} (h : s.Sound) (hq : q ∈ s.requests) (hid : q.id = i.requestId)
    (hlive : q.live) (hw : s.Writable invoiceId now i result) :
    ∃ s', (persist invoiceId deliveryId now i result).run s = .ok () s' := by
  obtain ⟨r, s', hrun⟩ := persistIssued_commits deliveryId hw fun r hr => by
    obtain rfl : r = q := Table.eq_of_key (Table.find?_mem hr) hq ((Table.find?_key hr).trans hid.symm)
    exact h.unclashed_live hq rfl hlive
  exact ⟨s', by rw [persist, Tx.bind_of_ok hrun, Tx.run_pure]⟩

theorem requestInvoice_commits {args : IssueRequest} {requestId : Uuid} {nonce : String}
    {draft : InvoiceDraft} (hnone : ∀ q ∈ s.requests, q.paymentId = args.paymentId → ¬q.live)
    (hid : ∀ q ∈ s.requests, q.id ≠ requestId)
    (hkey : ∀ q ∈ s.requests, q.restaurantId = args.restaurantId →
      q.idempotencyKey ≠ (args.row requestId nonce draft).idempotencyKey) :
    ∃ s', (requestInvoice args requestId nonce draft).run s = .ok () s' := by
  obtain ⟨requests, hins⟩ := Table.exists_insert? (r := args.row requestId nonce draft) hid
  have hclash : s.requestClash (args.row requestId nonce draft) = none := by
    refine requestClash_eq_none.mpr fun r hr _ => request_clash_eq_none.mpr ⟨fun hc => ?_, fun hc => ?_⟩
    · exact hnone r hr hc.1.symm hc.2.2
    · exact hkey r hr hc.1.symm hc.2.symm
  refine ⟨{ s with requests }, ?_⟩
  rw [requestInvoice, Tx.withTransaction_ok, Tx.mapError_ok]
  unfold insertRequest
  simp only [Tx.bind_ok, Tx.run_get, Tx.orThrow_ok, Tx.forbid_ok, Tx.run_set]
  exact ⟨_, _, rfl, requests, _, ⟨hins, rfl⟩, (), _, ⟨hclash, rfl⟩, rfl⟩

/-! ## Resolving -/

/-- A request that is `UNCERTAIN` is brought to `FAILED` by the word that it was rejected. -/
theorem FiscalWorld.Sound.resolves (h : w.Sound) (hq : q ∈ w.fiscal.requests)
    (huncertain : q.status = .uncertain) : w.Resolves q := by
  refine ⟨rejectedReply, fun callId invoiceId deliveryId now hfree => ?_⟩
  have hqfind : w.fiscal.requests.find? q.id = some q := Table.find?_eq_some.mpr ⟨hq, rfl⟩
  obtain ⟨b, hb, hbid⟩ := h.billed q hq
  have hread : readRequest w.floor.db w.fiscal q.restaurantId q.id =
      .ok ⟨q, b.fxRateVesPerUnit⟩ := by
    refine Except.ofOption_eq_ok.mpr (Option.bind_eq_some_iff.mpr ⟨q, ?_, ?_⟩)
    · rw [hqfind]
      simp
    · exact Option.bind_eq_some_iff.mpr ⟨b, Table.find?_eq_some.mpr ⟨hb, hbid⟩, rfl⟩
  obtain ⟨calls, hins⟩ := Table.exists_insert?
    (r := (⟨callId, .reading ⟨q, b.fxRateVesPerUnit⟩⟩ : FiscalCall)) (Table.find?_eq_none.mp hfree)
  have hresolve : (invoicing.step w (.resolve callId q.restaurantId q.id)).1 = { w with calls } := by
    simp only [invoicing, FiscalOp.step, hread, huncertain, if_pos, FiscalWorld.opens, hins]
  have hfind : calls.find? callId = some ⟨callId, .reading ⟨q, b.fxRateVesPerUnit⟩⟩ := by
    rw [Table.find?_insert? hins]
    exact if_pos rfl
  have hreply : (invoicing.step { w with calls } (.reply callId rejectedReply)).1 =
      ({ w with calls } : FiscalWorld).setPhase callId
        (.learnt ⟨q, b.fxRateVesPerUnit⟩ (.rejected none)) := by
    simp only [invoicing, FiscalOp.step, hfind, Option.bind_some, FiscalPhase.hear,
      if_neg (not_not.mpr (h.known q hq huncertain))]
    rfl
  have hlearnt : (({ w with calls } : FiscalWorld).setPhase callId
      (.learnt ⟨q, b.fxRateVesPerUnit⟩ (.rejected none))).calls.find? callId =
        some ⟨callId, .learnt ⟨q, b.fxRateVesPerUnit⟩ (.rejected none)⟩ := by
    unfold FiscalWorld.setPhase
    rw [Table.find?_update, if_pos rfl, hfind]
    rfl
  have hlive : q.live := by
    rw [FiscalRequest.live, huncertain]
    decide
  obtain ⟨fiscal, hrun⟩ := markUnissued_commits h.fiscal hq hlive .failed (errorCode none "NOT_FOUND")
  obtain ⟨q', hsame, hst, -, hrows⟩ := (markUnissued_progressed hrun).1 q hqfind
  refine ⟨q', ?_, hsame.id, .inr hst⟩
  rw [Machine.run_cons, hresolve, Machine.run_cons, hreply, Machine.run_cons, Machine.run_nil]
  simp only [invoicing, FiscalOp.step, hlearnt, Option.bind_some, FiscalPhase.record,
    FiscalWorld.perform]
  rw [show ((({ w with calls } : FiscalWorld).setPhase callId
    (.learnt ⟨q, b.fxRateVesPerUnit⟩ (.rejected none))).fiscal) = w.fiscal from rfl, hrun]
  exact (hrows q').mpr (.inl rfl)

/-! ## Requests that wait -/

/-- A request that is `PENDING` or `SENT` has its call, or its payment has a document. -/
def FiscalWorld.Attended (w : FiscalWorld) : Prop :=
  ∀ q ∈ w.fiscal.requests, q.status = .pending ∨ q.status = .sent →
    (∃ d ∈ w.fiscal.documents, d.paymentId = q.paymentId) ∨
      ∃ c ∈ w.calls, ∃ t ∈ c.phase.task?, t.requestId = q.id

/-- Only a call that resolves ends with a reply. -/
theorem hear_none {phase : FiscalPhase} {registry : List String}
    {a : Except AdapterError AdapterReply} (h : phase.hear registry a = some (.ok none)) :
    phase.task? = none := by
  unfold FiscalPhase.hear at h
  split at h
  · split at h
    · cases h
    split at h
    · cases h
    split at h <;> cases h
  · split at h <;> cases h
  · rfl
  · cases h

/-- A reply that is not heard is of a provider that is not registered. -/
theorem hear_error {callId : Nat} {phase : FiscalPhase} {a : Except AdapterError AdapterReply}
    {err : Err} {t : IssueTask} (h : phase.hear w.registry a = some (.error err))
    (ht : phase.task? = some t) : (FiscalOp.reply callId a).Breaks w phase := by
  unfold FiscalPhase.hear at h
  split at h
  · split at h
    · cases h
    rename_i hown
    split at h
    · rename_i hunknown
      exact ⟨hown, hunknown⟩
    · split at h <;> cases h
  · split at h
    · rename_i hunknown
      exact hunknown
    · cases h
  · cases ht
  · cases h

namespace FiscalWorld.Attended

theorem no_dead_end (h : w.Attended) (hsound : w.Sound) : w.NoDeadEnd := by
  intro paymentId hdocument hcall
  by_cases hlive : ∃ q ∈ w.fiscal.requests, q.paymentId = paymentId ∧ q.live
  · obtain ⟨q, hq, rfl, hlive⟩ := hlive
    have hwaits : ¬(q.status = .pending ∨ q.status = .sent) := by
      intro hwaits
      rcases h q hq hwaits with ⟨d, hd, hpay⟩ | ⟨c, hc, t, ht, hid⟩
      · exact hdocument d hd hpay
      · obtain ⟨r, hr, hrid, -, hrpay, -⟩ := hsound.find_task hc ht
        obtain rfl : r = q := Table.eq_of_key hr hq (hrid.trans hid)
        exact hcall c hc t ht hrpay.symm
    have hissued : q.status ≠ .issued := by
      intro hissued
      obtain ⟨d, hd, hid⟩ := hsound.fiscal.issued q hq hissued
      obtain ⟨r, hr, hrid, hrpay, -⟩ := hsound.fiscal.document d hd
      obtain rfl : r = q := Table.eq_of_key hr hq (hrid.trans hid)
      exact hdocument d hd hrpay.symm
    have huncertain : q.status = .uncertain := by
      have hfailed : q.status ≠ .failed := hlive
      revert hwaits hissued hfailed
      cases q.status <;> simp
    exact .inr ⟨q, hq, rfl, huncertain, hsound.resolves hq huncertain⟩
  · have hnone : ∀ q ∈ w.fiscal.requests, q.paymentId = paymentId → ¬q.live := fun q hq hpay hl =>
      hlive ⟨q, hq, hpay, hl⟩
    refine .inl ⟨hnone, fun args requestId nonce draft hpay hid hkey => ?_⟩
    exact requestInvoice_commits (fun q hq hqpay => hnone q hq (hqpay.trans hpay)) hid hkey

/-- The requests and documents of before, with a call for every task of before that needs one. -/
theorem calls (h : w.Attended) (hsound : w.Sound) (hrequests : w'.fiscal.requests = w.fiscal.requests)
    (hdocuments : w'.fiscal.documents = w.fiscal.documents)
    (hcalls : ∀ c ∈ w.calls, ∀ t ∈ c.phase.task?,
      (∃ d ∈ w.fiscal.documents, d.paymentId = t.args.paymentId) ∨
        ∃ c' ∈ w'.calls, t ∈ c'.phase.task?) : w'.Attended := by
  intro q hq hwaits
  rw [hrequests] at hq
  rw [hdocuments]
  rcases h q hq hwaits with hdocument | ⟨c, hc, t, ht, hid⟩
  · exact .inl hdocument
  · rcases hcalls c hc t ht with ⟨d, hd, hpay⟩ | ⟨c', hc', ht'⟩
    · obtain ⟨r, hr, hrid, -, hrpay, -⟩ := hsound.find_task hc ht
      obtain rfl : r = q := Table.eq_of_key hr hq (hrid.trans hid)
      exact .inl ⟨d, hd, hpay.trans hrpay.symm⟩
    · exact .inr ⟨c', hc', t, ht', hid⟩

theorem opens (h : w.Attended) (hsound : w.Sound) (call : FiscalCall) : (w.opens call).Attended := by
  unfold FiscalWorld.opens
  split
  · rename_i calls hins
    exact h.calls hsound rfl rfl fun c hc t ht =>
      .inr ⟨c, (Table.mem_insert? hins).mpr (.inl hc), ht⟩
  · exact h

/-- A call ends whose payment has a document, or whose request is not there yet. -/
theorem forget (h : w.Attended) (hsound : w.Sound) {callId : Nat}
    (hdone : ∀ c, w.calls.find? callId = some c → ∀ t ∈ c.phase.task?,
      ∃ d ∈ w.fiscal.documents, d.paymentId = t.args.paymentId) : (w.forget callId).Attended := by
  refine h.calls hsound rfl rfl fun c hc t ht => ?_
  by_cases hid : c.callId = callId
  · exact .inl (hdone c (Table.find?_eq_some.mpr ⟨hc, hid⟩) t ht)
  · exact .inr ⟨c, Table.mem_deleteWhere.mpr ⟨hc, by simpa using hid⟩, ht⟩

/-- The other calls are still there behind a step of one of them. -/
theorem mem_goOn_of_ne (fiscal : FiscalDb) {c : FiscalCall} {callId : Nat} (next : Option FiscalPhase)
    (hc : c ∈ w.calls) (hne : c.callId ≠ callId) :
    c ∈ (({ w with fiscal } : FiscalWorld).goOn callId next).calls := by
  cases next with
  | none => exact Table.mem_deleteWhere.mpr ⟨hc, by simpa using hne⟩
  | some phase =>
    show c ∈ w.calls.update callId (fun c => { c with phase }) fun _ => rfl
    exact Table.mem_update.mpr ⟨c, hc, (if_neg hne).symm⟩

theorem mem_goOn_self (fiscal : FiscalDb) {c : FiscalCall} (phase : FiscalPhase) (hc : c ∈ w.calls) :
    ({ c with phase } : FiscalCall) ∈
      (({ w with fiscal } : FiscalWorld).goOn c.callId (some phase)).calls := by
  show _ ∈ w.calls.update c.callId (fun c => { c with phase }) fun _ => rfl
  exact Table.mem_update.mpr ⟨c, hc, (if_pos rfl).symm⟩

/-- A call goes on with what it had. -/
theorem heard (h : w.Attended) (hsound : w.Sound) {c : FiscalCall} {phase : FiscalPhase}
    (hc : c ∈ w.calls) (htask : phase.task? = c.phase.task?) :
    (w.setPhase c.callId phase).Attended := by
  refine h.calls hsound rfl rfl fun c' hc' t ht => .inr ?_
  by_cases hid : c'.callId = c.callId
  · obtain rfl : c' = c := Table.eq_of_key hc' hc hid
    exact ⟨_, mem_goOn_self w.fiscal phase hc, htask ▸ ht⟩
  · exact ⟨c', mem_goOn_of_ne w.fiscal (some phase) hc' hid, ht⟩

/-- The request of a call makes progress: the call goes on with it, or it waits no longer. -/
theorem progressed (h : w.Attended) {c : FiscalCall} {fiscal : FiscalDb} {next : Option FiscalPhase}
    {status : FiscalStatus} (hc : c ∈ w.calls) (hq : q ∈ w.fiscal.requests)
    (hp : Progressed w.fiscal q.id status fiscal)
    (hdocuments : ∀ d ∈ w.fiscal.documents, d ∈ fiscal.documents)
    (htask : ∀ t ∈ c.phase.task?, t.requestId = q.id)
    (hnext : (status ≠ .pending ∧ status ≠ .sent) ∨
      ∃ phase, next = some phase ∧ ∃ t ∈ phase.task?, t.requestId = q.id) :
    (({ w with fiscal } : FiscalWorld).goOn c.callId next).Attended := by
  obtain ⟨q', hsame, hst, -, hrows⟩ := hp q (Table.find?_eq_some.mpr ⟨hq, rfl⟩)
  intro r hr hwaits
  rw [(goOn_rest { w with fiscal } c.callId next).1] at hr ⊢
  rcases (hrows r).mp hr with rfl | ⟨hr, hne⟩
  · rcases hnext with ⟨hpending, hsent⟩ | ⟨phase, rfl, t, ht, hid⟩
    · rw [hst] at hwaits
      exact absurd hwaits (not_or.mpr ⟨hpending, hsent⟩)
    · exact .inr ⟨_, mem_goOn_self fiscal phase hc, t, ht, hid.trans hsame.id.symm⟩
  · rcases h r hr hwaits with ⟨d, hd, hpay⟩ | ⟨c', hc', t, ht, hid⟩
    · exact .inl ⟨d, hdocuments d hd, hpay⟩
    · refine .inr ⟨c', mem_goOn_of_ne fiscal next hc' fun hcid => ?_, t, ht, hid⟩
      obtain rfl : c' = c := Table.eq_of_key hc' hc hcid
      exact hne (hid.symm.trans (htask t ht))

theorem wrote (h : w.Attended) (hsound : w.Sound) {c : FiscalCall} {fiscal : FiscalDb}
    {next : Option FiscalPhase} (hfind : w.calls.find? c.callId = some c)
    (hw : Writes w.fiscal fiscal c.phase next) :
    (({ w with fiscal } : FiscalWorld).goOn c.callId next).Attended := by
  have hc := Table.find?_mem hfind
  obtain ⟨callId, phase⟩ := c
  have hone : ∀ {t t' : IssueTask}, phase.task? = some t → t' ∈ phase.task? → t'.requestId = t.requestId :=
    fun ht ht' => by rw [Option.some.inj (ht'.symm.trans ht)]
  cases hw with
  | @requested t nonce hclash hins hdocuments =>
    intro r hr hwaits
    rw [(goOn_rest { w with fiscal } callId _).1] at hr ⊢
    rcases (Table.mem_insert? hins).mp hr with hr | rfl
    · rcases h r hr hwaits with ⟨d, hd, hpay⟩ | ⟨c', hc', t', ht', hid⟩
      · exact .inl ⟨d, hdocuments ▸ hd, hpay⟩
      · refine .inr ⟨c', mem_goOn_of_ne fiscal _ hc' fun hcid => ?_, t', ht', hid⟩
        obtain rfl : c' = ⟨callId, .built t⟩ := Table.eq_of_key hc' hc hcid
        cases ht'
    · exact .inr ⟨_, mem_goOn_self fiscal (.requested t) hc, t, rfl, rfl⟩
  | @sent t hp hdocuments =>
    obtain ⟨q, hq, hid, -⟩ := hsound.find_task hc rfl
    exact h.progressed hc hq (hid ▸ hp) (fun d hd => hdocuments ▸ hd)
      (fun t' ht' => (hone rfl ht').trans hid.symm) (.inr ⟨_, rfl, t, rfl, hid.symm⟩)
  | unissued hstatus hp hdocuments =>
    obtain ⟨q, hq, hid, -⟩ := hsound.find_task hc rfl
    refine h.progressed hc hq (hid ▸ hp) (fun d hd => hdocuments ▸ hd)
      (fun t' ht' => (hone rfl ht').trans hid.symm) (.inl ?_)
    rcases hstatus with rfl | rfl <;> decide
  | issued htask hp =>
    obtain ⟨q, hq, hid, -⟩ := hsound.find_task hc htask
    exact h.progressed hc hq (by rw [hid]; exact hp.progressed)
      (fun d hd => (Table.mem_insert? hp.inserted).mpr (.inl hd))
      (fun t' ht' => (hone htask ht').trans hid.symm) (.inl (by decide))
  | issuedLate hi hp =>
    obtain ⟨q, hq, hsame, -⟩ := hsound.find_read hc rfl
    exact h.progressed hc hq ((hsame.id.trans (lateIssuing_ok hi).1.symm) ▸ hp.progressed)
      (fun d hd => (Table.mem_insert? hp.inserted).mpr (.inl hd)) (fun t ht => by cases ht)
      (.inl (by decide))
  | failed hp hdocuments =>
    obtain ⟨q, hq, hsame, -⟩ := hsound.find_read hc rfl
    exact h.progressed hc hq (hsame.id ▸ hp) (fun d hd => hdocuments ▸ hd) (fun t ht => by cases ht)
      (.inl (by decide))

/-- A statement of a call, which fails only where the payment has a document. -/
theorem perform (h : w.Attended) (hsound : w.Sound) {c : FiscalCall} {x : Tx Err FiscalDb Unit}
    {next : Option FiscalPhase} (hfind : w.calls.find? c.callId = some c)
    (hok : ∀ u s', x.run w.fiscal = .ok u s' → Writes w.fiscal s' c.phase next)
    (hdone : (∀ s', x.run w.fiscal ≠ .ok () s') → ∀ t ∈ c.phase.task?,
      ∃ d ∈ w.fiscal.documents, d.paymentId = t.args.paymentId) :
    (w.perform c.callId x next).1.Attended := by
  unfold FiscalWorld.perform
  split
  · rename_i u s' hrun
    exact h.wrote hsound hfind (hok u s' hrun)
  · rename_i err s' hrun
    refine h.forget hsound fun c' hc' t ht => hdone (fun s₁ hrun' => ?_) t ?_
    · rw [hrun'] at hrun
      cases hrun
    · obtain rfl := Option.some.inj (hfind.symm.trans hc')
      exact ht

/-- The last write of a call fails only where its document cannot be written. -/
theorem record_done {c : FiscalCall} {invoiceId deliveryId : Uuid} {now : Time}
    {x : Tx Err FiscalDb Unit} (hsound : w.Sound) (hfind : w.calls.find? c.callId = some c)
    (hrecord : c.phase.record invoiceId deliveryId now = some x)
    (hfails : ∀ s', x.run w.fiscal ≠ .ok () s') {t : IssueTask} (ht : c.phase.task? = some t) :
    (FiscalOp.record c.callId invoiceId deliveryId now).Breaks w c.phase := by
  obtain ⟨q, hq, hid, hstatus, -⟩ := hsound.find_task (Table.find?_mem hfind) ht
  have hlive : q.live := by
    rw [FiscalRequest.live, hstatus]
    cases c.phase <;> simp [FiscalPhase.status]
  revert hrecord ht
  generalize c.phase = phase
  intro hrecord ht
  have hwrite : ∀ result, x = persist invoiceId deliveryId now t.issuing result →
      ¬w.fiscal.Writable invoiceId now t.issuing result := by
    rintro result rfl hw
    obtain ⟨s', hrun⟩ := persist_commits deliveryId hsound.fiscal hq hid hlive hw
    exact hfails s' hrun
  have hmark : ∀ status code, x ≠ markUnissued t.requestId status code := by
    rintro status code rfl
    obtain ⟨s', hrun⟩ := markUnissued_commits hsound.fiscal hq hlive status code
    exact hfails s' (hid ▸ hrun)
  unfold FiscalPhase.record at hrecord
  split at hrecord
  · obtain rfl := Option.some.inj ht
    split at hrecord
    · rename_i hown
      exact ⟨hown, hwrite none (Option.some.inj hrecord).symm⟩
    · cases hrecord
  · obtain rfl := Option.some.inj ht
    exact hwrite _ (Option.some.inj hrecord).symm
  · obtain rfl := Option.some.inj ht
    exact absurd (Option.some.inj hrecord).symm (hmark _ _)
  · obtain rfl := Option.some.inj ht
    exact absurd (Option.some.inj hrecord).symm (hmark _ _)
  · cases ht
  · cases ht
  · cases hrecord

/-- A step that cuts no call short leaves no request behind. -/
theorem step (h : w.Attended) (hsound : w.Sound) (op : FiscalOp) (hcut : ¬op.CutsShort w) :
    (invoicing.step w op).1.Attended := by
  have hdone : ∀ c t, op.callId? = some c.callId → w.calls.find? c.callId = some c →
      c.phase.task? = some t → op.Breaks w c.phase →
      ∃ d ∈ w.fiscal.documents, d.paymentId = t.args.paymentId := by
    intro c t hop hfind ht hbreaks
    by_contra hnone
    exact hcut ⟨c, t, hop, hfind, ht, hbreaks, fun d hd hpay => hnone ⟨d, hd, hpay⟩⟩
  cases op with
  | floor op => exact h
  | agree splits shares items => exact h
  | configure series issuers => exact h
  | prepare callId requestId args tableName =>
    simp only [invoicing, FiscalOp.step]
    split
    · exact h.opens hsound _
    · exact h
  | resolve callId restaurantId requestId =>
    simp only [invoicing, FiscalOp.step]
    split
    · split
      · exact h.opens hsound _
      · exact h
    · exact h
  | request callId nonce =>
    simp only [invoicing, FiscalOp.step]
    split
    · rename_i x next hx
      obtain ⟨c, hfind, rfl, hc⟩ := find_of_bind hx
      refine h.perform hsound hfind (fun u s' hrun => begin_writes hc hrun) fun _ t ht => ?_
      -- The request of a call that has just built its draft is not there yet.
      unfold FiscalPhase.begin at hc
      split at hc
      · rename_i hphase
        rw [hphase] at ht
        cases ht
      · cases hc
    · exact h
  | send callId =>
    simp only [invoicing, FiscalOp.step]
    split
    · rename_i x next hx
      obtain ⟨c, hfind, rfl, hc⟩ := find_of_bind hx
      refine h.perform hsound hfind (fun u s' hrun => send_writes hc hrun) fun hfails t ht => ?_
      obtain ⟨q, hq, hid, hstatus, -⟩ := hsound.find_task (Table.find?_mem hfind) ht
      unfold FiscalPhase.send at hc
      split at hc
      · rename_i t' hphase
        obtain ⟨rfl, -⟩ := Prod.mk.inj (Option.some.inj hc)
        rw [hphase] at ht hstatus
        obtain rfl := Option.some.inj ht
        have hpending : q.status = .pending := hstatus
        have hlive : q.live := by
          rw [FiscalRequest.live, hpending]
          decide
        obtain ⟨s', hrun⟩ := markSent_commits hsound.fiscal hq hlive
        exact absurd (hid ▸ hrun) (hfails s')
      · cases hc
    · exact h
  | reply callId answer =>
    simp only [invoicing, FiscalOp.step]
    split
    · rename_i next hx
      obtain ⟨c, hfind, rfl, hc⟩ := find_of_bind hx
      cases next with
      | some phase => exact h.heard hsound (Table.find?_mem hfind) (hear_ok hc).2.1
      | none =>
        refine h.forget hsound fun c' hc' t ht => ?_
        obtain rfl := Option.some.inj (hfind.symm.trans hc')
        rw [hear_none hc] at ht
        cases ht
    · rename_i err hx
      obtain ⟨c, hfind, rfl, hc⟩ := find_of_bind hx
      refine h.forget hsound fun c' hc' t ht => ?_
      obtain rfl := Option.some.inj (hfind.symm.trans hc')
      exact hdone c t rfl hfind ht (hear_error hc ht)
    · exact h
  | record callId invoiceId deliveryId now =>
    simp only [invoicing, FiscalOp.step]
    split
    · rename_i x hx
      obtain ⟨c, hfind, rfl, hc⟩ := find_of_bind hx
      exact h.perform hsound hfind (fun u s' hrun => record_writes hc hrun) fun hfails t ht =>
        hdone c t rfl hfind ht (record_done hsound hfind hc hfails ht)
    · exact h
  | die callId =>
    refine h.forget hsound fun c hc t ht => ?_
    obtain rfl : c.callId = callId := Table.find?_key hc
    exact hdone c t rfl hc ht trivial

end FiscalWorld.Attended

/-- A document that may not be written is not written. -/
theorem persist_fails {invoiceId deliveryId : Uuid} {now : Time} {i : Issuing}
    {result : Option IssuedAnswer} (h : ¬s.Writable invoiceId now i result) :
    ∃ err s', (persist invoiceId deliveryId now i result).run s = .error err s' := by
  cases hrun : (persist invoiceId deliveryId now i result).run s with
  | ok u s' =>
    obtain ⟨d, hd⟩ := persist_ok hrun
    exact absurd hd.writable h
  | error err s' => exact ⟨err, s', rfl⟩

/-- What breaks a call ends it, and nothing is written. -/
theorem FiscalOp.Breaks.ends {op : FiscalOp} {c : FiscalCall} (h : op.Breaks w c.phase)
    (hop : op.callId? = some c.callId) (hfind : w.calls.find? c.callId = some c) :
    (invoicing.step w op).1 = w.forget c.callId := by
  obtain ⟨callId, phase⟩ := c
  have hpersist : ∀ (x : Tx Err FiscalDb Unit), (∃ err s', x.run w.fiscal = .error err s') →
      (w.perform callId x none).1 = w.forget callId := by
    rintro x ⟨err, s', hrun⟩
    simp only [FiscalWorld.perform, hrun]
  cases op with
  | die id =>
    obtain rfl := Option.some.inj hop
    rfl
  | reply id a =>
    obtain rfl := Option.some.inj hop
    cases phase with
    | sent t =>
      simp only [invoicing, FiscalOp.step, hfind, Option.bind_some, FiscalPhase.hear, if_neg h.1,
        if_pos h.2]
    | asked t =>
      have hunknown : t.args.provider ∉ w.registry := h
      simp only [invoicing, FiscalOp.step, hfind, Option.bind_some, FiscalPhase.hear,
        if_pos hunknown]
    | _ => exact h.elim
  | record id invoiceId deliveryId now =>
    obtain rfl := Option.some.inj hop
    cases phase with
    | sent t =>
      simp only [invoicing, FiscalOp.step, hfind, Option.bind_some, FiscalPhase.record, if_pos h.1]
      exact hpersist _ (persist_fails h.2)
    | answered t result =>
      cases result with
      | issued answer =>
        simp only [invoicing, FiscalOp.step, hfind, Option.bind_some, FiscalPhase.record]
        exact hpersist _ (persist_fails h)
      | _ => exact h.elim
    | _ => exact h.elim
  | _ => exact h.elim

/-! ## Whole runs -/

/-- A call that is cut short leaves a dead end. -/
theorem FiscalOp.CutsShort.dead_end {op : FiscalOp} (h : op.CutsShort w) (hsound : w.Sound) :
    ¬(invoicing.step w op).1.NoDeadEnd := by
  obtain ⟨c, t, hop, hfind, ht, hbreaks, hdocument⟩ := h
  have hc := Table.find?_mem hfind
  obtain ⟨q, hq, hid, hstatus, hpay, -⟩ := hsound.find_task hc ht
  have hlive : q.live ∧ q.status ≠ .uncertain := by
    rw [FiscalRequest.live, hstatus]
    cases c.phase <;> simp [FiscalPhase.status]
  have hends : (invoicing.step w op).1 = w.forget c.callId := hbreaks.ends hop hfind
  rw [hends]
  intro h
  have hcalls : ∀ c' ∈ (w.forget c.callId).calls, ∀ t' ∈ c'.phase.task?,
      t'.args.paymentId ≠ t.args.paymentId := by
    intro c' hc' t' ht' heq
    obtain ⟨hc', hne⟩ := Table.mem_deleteWhere.mp hc'
    obtain ⟨q', hq', hid', hstatus', hpay', -⟩ := hsound.find_task hc' ht'
    have hlive' : q'.live := by
      rw [FiscalRequest.live, hstatus']
      cases c'.phase <;> simp [FiscalPhase.status]
    obtain rfl : q' = q := hsound.fiscal.live_unique hq' hq
      ((hpay'.trans heq).trans hpay.symm) hlive' hlive.1
    exact absurd (hsound.distinct c' hc' c hc t' ht' t ht (hid'.symm.trans hid)) (by simpa using hne)
  rcases h t.args.paymentId hdocument hcalls with ⟨hnone, -⟩ | ⟨r, hr, hrpay, huncertain, -⟩
  · exact hnone q hq hpay hlive.1
  · have hlive' : r.live := by
      rw [FiscalRequest.live, huncertain]
      decide
    obtain rfl : r = q := hsound.fiscal.live_unique hr hq (hrpay.trans hpay.symm) hlive' hlive.1
    exact hlive.2 huncertain

/-- A run leads to no dead end exactly when no call for a payment without a document is cut short. -/
theorem no_dead_end_iff (floor : Floor) (registry : List String) (series : Table FiscalSeries)
    (issuers : Table Issuer) (splitItems : List SplitItem) (ops : List FiscalOp) :
    let w := FiscalWorld.start floor registry series issuers splitItems
    invoicing.Every (fun w op => (invoicing.step w op).1.NoDeadEnd) w ops ↔
      invoicing.Every (fun w op => ¬op.CutsShort w) w ops := by
  intro w
  have hsound : w.Sound := .start floor registry series issuers splitItems
  constructor
  · exact Machine.every_imp (fun w op h _ => h.step op)
      (fun w op h hnone hcut => hcut.dead_end h hnone) hsound
  · have hkeeps : ∀ w op, w.Sound ∧ w.Attended → ¬FiscalOp.CutsShort w op →
        (invoicing.step w op).1.Sound ∧ (invoicing.step w op).1.Attended :=
      fun w op h hcut => ⟨h.1.step op, h.2.step h.1 op hcut⟩
    refine Machine.every_imp hkeeps (fun w op h hcut => ?_) ⟨hsound, ?_⟩
    · obtain ⟨hsound', hattended'⟩ := hkeeps w op h hcut
      exact hattended'.no_dead_end hsound'
    · exact fun q hq => absurd hq List.not_mem_nil

/-- The restaurant issues its own invoices, and no series is configured. The payment of 100 is not
invoiced, its request is `SENT`, and it stays so. -/
theorem supper_stuck :
    let w := invoicing.run
      (.supper (supper 200 0 0 ⟨[supperPayment 30 100 (by decide)], by simp⟩) [] ∅)
      [.prepare 1 100 ⟨1, 10, 30, {}, OWN⟩ none, .request 1 "a", .send 1, .record 1 200 300 6]
    (w.fiscal.requests.rows.map fun q => (q.id, q.status)) = [(100, .sent)] ∧
      w.fiscal.documents.rows = [] ∧ w.calls.rows.length = 0 ∧ ¬w.NoDeadEnd := by
  intro w
  have hrequests : (w.fiscal.requests.rows.map fun q => (q.paymentId, q.status)) = [(30, .sent)] := by
    decide +kernel
  have hdocuments : w.fiscal.documents.rows = [] := by decide +kernel
  have hcalls : w.calls.rows.length = 0 := by decide +kernel
  have hstatus : ∀ q ∈ w.fiscal.requests, q.paymentId = 30 ∧ q.status = .sent := fun q hq => by
    have hmem := List.mem_map_of_mem (f := fun q : FiscalRequest => (q.paymentId, q.status)) hq
    rw [hrequests, List.mem_singleton] at hmem
    exact Prod.mk.inj hmem
  have hrow : ∃ q, q ∈ w.fiscal.requests.rows := by
    cases hrows : w.fiscal.requests.rows with
    | nil =>
      rw [hrows] at hrequests
      cases hrequests
    | cons q rows => exact ⟨q, List.mem_cons_self⟩
  refine ⟨by decide +kernel, hdocuments, hcalls, fun h => ?_⟩
  have hnodocument : ∀ d ∈ w.fiscal.documents, d.paymentId ≠ 30 := fun d hd => by
    rw [Table.mem_def, hdocuments] at hd
    cases hd
  have hnocall : ∀ c ∈ w.calls, ∀ t ∈ c.phase.task?, t.args.paymentId ≠ 30 := fun c hc => by
    rw [Table.mem_def, List.length_eq_zero_iff.mp hcalls] at hc
    cases hc
  rcases h 30 hnodocument hnocall with ⟨hnone, -⟩ | ⟨q, hq, -, huncertain, -⟩
  · obtain ⟨q, hq⟩ := hrow
    refine hnone q hq (hstatus q hq).1 ?_
    rw [FiscalRequest.live, (hstatus q hq).2]
    decide
  · rw [(hstatus q hq).2] at huncertain
    cases huncertain

end Splite
