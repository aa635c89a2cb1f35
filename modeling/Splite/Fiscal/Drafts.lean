import Splite.Fiscal.Requests

/-!
# What becomes of a draft (`services/fiscalInvoicing.js`)

A draft is built once, kept in the call and in the row of its request, and written as a document by
whichever call learns of the answer.

* `FiscalOp.built_by`: a call has a draft because a `prepare` gave it one.
* `Carries.run`: what is true of every draft that a run builds is true of its documents.
* `FiscalWorld.provenance`: every document of a run is the draft of one of its steps.
-/

namespace Splite

variable {w w' : FiscalWorld}

/-- A step that builds a draft for a request, and what it builds. -/
def FiscalOp.builds? (w : FiscalWorld) : FiscalOp → Option (IssueRequest × InvoiceDraft)
  | .prepare _ _ args tableName =>
    match prepareDraft w.floor.db w.fiscal args tableName with
    | .ok prepared => some (args, prepared.draft)
    | .error _ => none
  | _ => none

/-- The draft of a row of `fiscal_invoice_requests`. -/
def FiscalRequest.Stores (q : FiscalRequest) (draft : InvoiceDraft) : Prop :=
  q.draftJson = some (serialiseDraft draft)

/-- Of every draft that is held anywhere, with its payment and its bill, `Q` holds. -/
structure Carries (Q : Uuid → Uuid → InvoiceDraft → Prop) (w : FiscalWorld) : Prop where
  built : ∀ c ∈ w.calls, ∀ t ∈ c.phase.building?, Q t.args.paymentId t.args.billId t.prepared.draft
  read : ∀ c ∈ w.calls, ∀ read ∈ c.phase.read?, ∃ draft, read.request.Stores draft ∧
    Q read.request.paymentId read.request.billId draft
  request : ∀ q ∈ w.fiscal.requests, ∃ draft, q.Stores draft ∧ Q q.paymentId q.billId draft
  document : ∀ d ∈ w.fiscal.documents, d.documentType = .invoice ∧ Q d.paymentId d.billId d.toInvoiceDraft

/-! ## Where a draft comes from -/

section Built

variable {c : FiscalCall} {t : IssueTask}

theorem mem_opens {call : FiscalCall} (h : c ∈ (w.opens call).calls) : c ∈ w.calls ∨ c = call := by
  unfold FiscalWorld.opens at h
  split at h
  · rename_i calls hins
    exact (Table.mem_insert? hins).mp h
  · exact .inl h

theorem mem_forget {callId : Nat} (h : c ∈ (w.forget callId).calls) : c ∈ w.calls :=
  (Table.mem_deleteWhere.mp h).1

/-- A call that performs a write is in the phase that comes next, or it is gone. -/
theorem mem_perform {x : Tx Err FiscalDb Unit} {next : Option FiscalPhase}
    {caller : FiscalCall} (hfind : w.calls.find? caller.callId = some caller)
    (h : c ∈ (w.perform caller.callId x next).1.calls) : c ∈ w.calls ∨ some c.phase = next := by
  unfold FiscalWorld.perform at h
  split at h
  · rename_i u fiscal hrun
    rcases mem_goOn { w with fiscal } next hfind h with ⟨phase, rfl, rfl⟩ | ⟨hold, -⟩
    · exact .inr rfl
    · exact .inl hold
  · exact .inl (mem_forget h)

/-- A call that has built its draft and not inserted its request was there before, or the step has
built that draft. -/
theorem FiscalOp.built_by {op : FiscalOp} (hc : c ∈ (op.step w).1.calls) (ht : c.phase = .built t) :
    c ∈ w.calls ∨ op.builds? w = some (t.args, t.prepared.draft) := by
  cases op with
  | floor op => exact .inl hc
  | agree splits shares items => exact .inl hc
  | configure series issuers => exact .inl hc
  | prepare callId requestId args tableName =>
    simp only [FiscalOp.step] at hc
    split at hc
    · rename_i prepared hprepared
      rcases mem_opens hc with hc | rfl
      · exact .inl hc
      · cases ht
        exact .inr (by simp only [FiscalOp.builds?, hprepared])
    · exact .inl hc
  | resolve callId restaurantId requestId =>
    simp only [FiscalOp.step] at hc
    split at hc
    · split at hc
      · rcases mem_opens hc with hc | rfl
        · exact .inl hc
        · cases ht
      · exact .inl hc
    · exact .inl hc
  | request callId nonce =>
    simp only [FiscalOp.step] at hc
    split at hc
    · rename_i x next h
      obtain ⟨caller, hfind, rfl, hbegin⟩ := find_of_bind h
      rcases mem_perform hfind hc with hc | hphase
      · exact .inl hc
      · unfold FiscalPhase.begin at hbegin
        split at hbegin <;> cases hbegin
        cases (Option.some.inj hphase).symm.trans ht
    · exact .inl hc
  | send callId =>
    simp only [FiscalOp.step] at hc
    split at hc
    · rename_i x next h
      obtain ⟨caller, hfind, rfl, hsend⟩ := find_of_bind h
      rcases mem_perform hfind hc with hc | hphase
      · exact .inl hc
      · unfold FiscalPhase.send at hsend
        split at hsend <;> cases hsend
        cases (Option.some.inj hphase).symm.trans ht
    · exact .inl hc
  | reply callId r =>
    simp only [FiscalOp.step] at hc
    split at hc
    · rename_i next h
      obtain ⟨caller, hfind, rfl, hhear⟩ := find_of_bind h
      rcases mem_goOn w next hfind hc with ⟨phase, rfl, rfl⟩ | ⟨hold, -⟩
      · -- A call that has heard an answer has sent its request.
        obtain ⟨hbuilding, htask, -⟩ := hear_ok hhear
        rw [show phase = .built t from ht] at hbuilding htask
        cases hphase : caller.phase <;> rw [hphase] at hbuilding htask <;> try cases hbuilding
        all_goals try cases htask
        rw [hphase] at hhear
        cases hhear
      · exact .inl hold
    · exact .inl (mem_forget hc)
    · exact .inl hc
  | record callId invoiceId deliveryId now =>
    simp only [FiscalOp.step] at hc
    split at hc
    · rename_i x h
      obtain ⟨caller, hfind, rfl, -⟩ := find_of_bind h
      rcases mem_perform hfind hc with hc | hphase
      · exact .inl hc
      · cases hphase
    · exact .inl hc
  | die callId => exact .inl (mem_forget hc)

end Built

/-! ## What every draft keeps -/

namespace Carries

variable {Q : Uuid → Uuid → InvoiceDraft → Prop}

theorem start (floor : Floor) (registry : List String) (series : Table FiscalSeries)
    (issuers : Table Issuer) (splitItems : List SplitItem) :
    Carries Q (.start floor registry series issuers splitItems) :=
  ⟨fun _ hc => absurd hc List.not_mem_nil, fun _ hc => absurd hc List.not_mem_nil,
    fun _ hq => absurd hq List.not_mem_nil, fun _ hd => absurd hd List.not_mem_nil⟩

/-- A request that makes progress stores what it stored. -/
theorem progressed {s s' : FiscalDb} {id : Uuid} {status : FiscalStatus}
    (h : ∀ q ∈ s.requests, ∃ draft, q.Stores draft ∧ Q q.paymentId q.billId draft)
    (hq : ∃ q ∈ s.requests, q.id = id) (hp : Progressed s id status s') :
    ∀ q ∈ s'.requests, ∃ draft, q.Stores draft ∧ Q q.paymentId q.billId draft := by
  obtain ⟨q, hq, hid⟩ := hq
  obtain ⟨q', hsame, -, -, hrows⟩ := hp q (Table.find?_eq_some.mpr ⟨hq, hid⟩)
  intro r hr
  rcases (hrows r).mp hr with rfl | ⟨hr, -⟩
  · obtain ⟨draft, hstores, hQ⟩ := h q hq
    refine ⟨draft, hsame.draftJson.trans hstores, ?_⟩
    rw [hsame.paymentId, hsame.billId]
    exact hQ
  · exact h r hr

/-- The document that is written has the draft it is written from. -/
theorem persisted {s s' : FiscalDb} {invoiceId : Uuid} {now : Time} {i : Issuing}
    {result : Option IssuedAnswer} {d : FiscalDocument}
    (h : ∀ d ∈ s.documents, d.documentType = .invoice ∧ Q d.paymentId d.billId d.toInvoiceDraft)
    (hQ : Q i.paymentId i.billId i.draft) (hp : Persisted s invoiceId now i result d s') :
    ∀ d ∈ s'.documents, d.documentType = .invoice ∧ Q d.paymentId d.billId d.toInvoiceDraft := by
  obtain ⟨numbers, rfl, -⟩ := hp.row
  intro e he
  rcases (Table.mem_insert? hp.inserted).mp he with he | rfl
  · exact h e he
  · exact ⟨rfl, hQ⟩

/-- What `resolveUncertain` writes is what the request stores. -/
theorem late {read : ReadRequest} {i : Issuing} {draft : InvoiceDraft}
    (hstores : read.request.Stores draft) (hi : lateIssuing read = .ok i) :
    i.draft = draft ∧ i.paymentId = read.request.paymentId ∧ i.billId = read.request.billId := by
  unfold FiscalRequest.Stores at hstores
  unfold lateIssuing at hi
  rw [hstores] at hi
  simp only [Except.bind_eq_ok, Except.ofOption_eq_ok, Except.pure_eq_ok] at hi
  obtain ⟨_, hsome, revived, hrevived, rfl⟩ := hi
  obtain rfl := Option.some.inj hsome
  rw [reviveDraft_serialiseDraft] at hrevived
  exact ⟨(Option.some.inj hrevived).symm, rfl, rfl⟩

/-- The rows behind a write. -/
theorem wrote {c : FiscalCall} {fiscal : FiscalDb} {next : Option FiscalPhase} (h : Carries Q w)
    (hsound : w.Sound) (hc : c ∈ w.calls) (hw : Writes w.fiscal fiscal c.phase next) :
    (∀ q ∈ fiscal.requests, ∃ draft, q.Stores draft ∧ Q q.paymentId q.billId draft) ∧
      ∀ d ∈ fiscal.documents, d.documentType = .invoice ∧ Q d.paymentId d.billId d.toInvoiceDraft := by
  obtain ⟨callId, phase⟩ := c
  have htask : ∀ t, phase.task? = some t → ∃ q ∈ w.fiscal.requests, q.id = t.requestId := by
    intro t ht
    obtain ⟨q, hq, hid, -⟩ := hsound.find_task hc ht
    exact ⟨q, hq, hid⟩
  have hread : ∀ read, phase.read? = some read → ∃ q ∈ w.fiscal.requests, q.id = read.request.id := by
    intro read hread
    obtain ⟨q, hq, hsame, -⟩ := hsound.find_read hc hread
    exact ⟨q, hq, hsame.id⟩
  cases hw with
  | @requested t nonce hclash hins hdocuments =>
    refine ⟨fun q hq => ?_, hdocuments ▸ h.document⟩
    rcases (Table.mem_insert? hins).mp hq with hq | rfl
    · exact h.request q hq
    · exact ⟨t.prepared.draft, rfl, h.built _ hc t rfl⟩
  | sent hp hdocuments => exact ⟨progressed h.request (htask _ rfl) hp, hdocuments ▸ h.document⟩
  | unissued _ hp hdocuments => exact ⟨progressed h.request (htask _ rfl) hp, hdocuments ▸ h.document⟩
  | @issued _ t _ _ _ _ ht hp =>
    refine ⟨progressed h.request (htask t ht) hp.progressed, persisted h.document ?_ hp⟩
    refine h.built _ hc t ?_
    cases phase <;> cases ht <;> rfl
  | @issuedLate read answer i _ _ _ hi hp =>
    obtain ⟨draft, hstores, hQ⟩ := h.read _ hc read rfl
    obtain ⟨hdraft, hpayment, hbill⟩ := late hstores hi
    refine ⟨progressed h.request ?_ hp.progressed, persisted h.document ?_ hp⟩
    · rw [(lateIssuing_ok hi).1]
      exact hread read rfl
    · rw [hdraft, hpayment, hbill]
      exact hQ
  | failed hp hdocuments => exact ⟨progressed h.request (hread _ rfl) hp, hdocuments ▸ h.document⟩

/-- A call goes on with what it had. -/
theorem goes_on {s s' : FiscalDb} {phase next : FiscalPhase} (hw : Writes s s' phase (some next)) :
    next.building? = phase.building? ∧ next.read? = phase.read? := by
  cases hw <;> exact ⟨rfl, rfl⟩

/-- The calls behind a step of one of them, which goes on with what it had. -/
theorem calls {c : FiscalCall} {fiscal : FiscalDb} {next : Option FiscalPhase} (h : Carries Q w)
    (hfind : w.calls.find? c.callId = some c)
    (hnext : ∀ phase, next = some phase →
      phase.building? = c.phase.building? ∧ phase.read? = c.phase.read?)
    (hrequest : ∀ q ∈ fiscal.requests, ∃ draft, q.Stores draft ∧ Q q.paymentId q.billId draft)
    (hdocument : ∀ d ∈ fiscal.documents,
      d.documentType = .invoice ∧ Q d.paymentId d.billId d.toInvoiceDraft) :
    Carries Q (({ w with fiscal } : FiscalWorld).goOn c.callId next) := by
  have hc := Table.find?_mem hfind
  refine ⟨fun c' hc' t ht => ?_, fun c' hc' read hread => ?_, ?_, ?_⟩
  · rcases mem_goOn { w with fiscal } next hfind hc' with ⟨phase, rfl, rfl⟩ | ⟨hold, -⟩
    · exact h.built c hc t ((hnext phase rfl).1 ▸ ht)
    · exact h.built c' hold t ht
  · rcases mem_goOn { w with fiscal } next hfind hc' with ⟨phase, rfl, rfl⟩ | ⟨hold, -⟩
    · exact h.read c hc read ((hnext phase rfl).2 ▸ hread)
    · exact h.read c' hold read hread
  · rw [(goOn_rest { w with fiscal } c.callId next).1]
    exact hrequest
  · rw [(goOn_rest { w with fiscal } c.callId next).1]
    exact hdocument

/-- A step keeps what is true of every draft when it is true of the draft that it builds. -/
theorem step {op : FiscalOp} (h : Carries Q w) (hsound : w.Sound)
    (hop : ∀ args draft, op.builds? w = some (args, draft) → Q args.paymentId args.billId draft) :
    Carries Q (invoicing.step w op).1 := by
  have hs := op.steps w
  have hbuilt := fun c t => @FiscalOp.built_by w c t op
  show Carries Q (op.step w).1
  generalize (op.step w).1 = w' at hs hbuilt
  cases hs with
  | aside hcalls _ hrequests hdocuments _ =>
    exact ⟨hcalls ▸ h.built, hcalls ▸ h.read, hrequests ▸ h.request, hdocuments ▸ h.document⟩
  | @opened call calls ho hins =>
    have hmem : ∀ c ∈ calls, c ∈ w.calls ∨ c = call := fun c hc => (Table.mem_insert? hins).mp hc
    have hfresh := (Table.insert?_eq_some.mp hins).1
    have hnew : call ∈ calls := (Table.mem_insert? hins).mpr (.inr rfl)
    refine ⟨fun c hc t ht => ?_, fun c hc read hread => ?_, h.request, h.document⟩
    · rcases hmem c hc with hc | rfl
      · exact h.built c hc t ht
      · obtain ⟨callId, phase⟩ := c
        cases ho with
        | built hprepared =>
          obtain rfl := Option.some.inj ht
          rcases hbuilt _ _ hnew rfl with hold | hbuilds
          · exact absurd rfl (hfresh _ hold)
          · exact hop _ _ hbuilds
        | reading => cases ht
    · rcases hmem c hc with hc | rfl
      · exact h.read c hc read hread
      · obtain ⟨callId, phase⟩ := c
        cases ho with
        | built => cases hread
        | reading hread' =>
          obtain rfl := Option.some.inj hread
          exact h.request _ (Table.find?_mem (readRequest_ok hread').1)
  | ended => exact ⟨fun c hc => h.built c (mem_forget hc), fun c hc => h.read c (mem_forget hc), h.request,
      h.document⟩
  | @heard c r phase hop' hfind hhear =>
    obtain ⟨hbuilding, -, hread, -⟩ := hear_ok hhear
    have hgone : Carries Q (({ w with fiscal := w.fiscal } : FiscalWorld).goOn c.callId (some phase)) :=
      h.calls hfind (fun p hp => Option.some.inj hp ▸ ⟨hbuilding, hread⟩) h.request h.document
    exact hgone
  | @wrote c fiscal next hop' hrecord hfind hw =>
    obtain ⟨hrequest, hdocument⟩ := h.wrote hsound (Table.find?_mem hfind) hw
    exact h.calls hfind (fun p hp => goes_on (hp ▸ hw)) hrequest hdocument

/-- What is true of every draft that a run builds is true of every draft that is held behind it. -/
theorem run {ops : List FiscalOp} (h : Carries Q w) (hsound : w.Sound)
    (hops : invoicing.Every (fun w op => ∀ args draft, op.builds? w = some (args, draft) →
      Q args.paymentId args.billId draft) w ops) : Carries Q (invoicing.run w ops) :=
  (Machine.invariant (I := fun w => w.Sound ∧ Carries Q w)
    (fun _ op h hop => ⟨h.1.step op, h.2.step h.1 hop⟩) ⟨hsound, h⟩ hops).2

end Carries

/-- Every document of a run is the draft that one of its steps built for the same payment. -/
theorem FiscalWorld.provenance (floor : Floor) (registry : List String) (series : Table FiscalSeries)
    (issuers : Table Issuer) (splitItems : List SplitItem) (ops : List FiscalOp) :
    let w := FiscalWorld.start floor registry series issuers splitItems
    ∀ d ∈ (invoicing.run w ops).fiscal.documents, ∃ before op after args,
      ops = before ++ op :: after ∧
      op.builds? (invoicing.run w before) = some (args, d.toInvoiceDraft) ∧
      args.paymentId = d.paymentId ∧ args.billId = d.billId := by
  intro w d hd
  have hcarries : Carries (fun paymentId billId draft => ∃ before op after args,
      ops = before ++ op :: after ∧ op.builds? (invoicing.run w before) = some (args, draft) ∧
      args.paymentId = paymentId ∧ args.billId = billId) (invoicing.run w ops) := by
    refine (Carries.start floor registry series issuers splitItems).run
      (.start floor registry series issuers splitItems) (Machine.every_iff_forall.mpr ?_)
    exact fun before op after hops args draft hbuilds =>
      ⟨before, op, after, args, hops, hbuilds, rfl, rfl⟩
  exact (hcarries.document d hd).2

end Splite
