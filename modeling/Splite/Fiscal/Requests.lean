import Splite.Fiscal.Runs

/-!
# What every reachable state of the fiscal service satisfies

* `FiscalDb.Sound`: requests do not collide, a document has its request, an `ISSUED` request has its
  document.
* `FiscalCall.Sound`: the request of a call has the status that the call has left it in.
* `FiscalWorld.Sound.run`: both hold in every reachable state.
-/

namespace Splite

open Js (Json)

variable {s s' : FiscalDb} {q q' r : FiscalRequest} {w w' : FiscalWorld}

/-! ## Requests -/

namespace FiscalRequest.Same

variable (h : q'.Same q)

include h

theorem id : q'.id = q.id := by rw [h]

theorem paymentId : q'.paymentId = q.paymentId := by rw [h]

theorem billId : q'.billId = q.billId := by rw [h]

theorem provider : q'.provider = q.provider := by rw [h]

theorem draftJson : q'.draftJson = q.draftJson := by rw [h]

theorem restaurantId : q'.restaurantId = q.restaurantId := by rw [h]

theorem symm : q.Same q' := by
  have h' := h
  unfold FiscalRequest.Same at h' ⊢
  rw [h']

end FiscalRequest.Same

theorem requestClash_eq_none :
    s.requestClash q = none ↔ ∀ r ∈ s.requests, r.id ≠ q.id → q.clash r = none := by
  unfold FiscalDb.requestClash
  rw [List.findSome?_eq_none_iff]
  constructor
  · intro h r hr hne
    have hclash := h r hr
    rwa [if_neg hne] at hclash
  · intro h r hr
    by_cases hid : r.id = q.id
    · rw [if_pos hid]
    · rw [if_neg hid]
      exact h r hr hid

theorem request_clash_eq_none : q.clash r = none ↔
    ¬(q.paymentId = r.paymentId ∧ q.live ∧ r.live) ∧
      ¬(q.restaurantId = r.restaurantId ∧ q.idempotencyKey = r.idempotencyKey) := by
  unfold FiscalRequest.clash
  split_ifs with h₁ h₂
  · exact ⟨nofun, fun h => absurd h₁ h.1⟩
  · exact ⟨nofun, fun h => absurd h₂ h.2⟩
  · exact ⟨fun _ => ⟨h₁, h₂⟩, fun _ => rfl⟩

theorem request_clash_symm (h : q.clash r = none) : r.clash q = none := by
  obtain ⟨h₁, h₂⟩ := request_clash_eq_none.mp h
  exact request_clash_eq_none.mpr
    ⟨fun hc => h₁ ⟨hc.1.symm, hc.2.2, hc.2.1⟩, fun hc => h₂ ⟨hc.1.symm, hc.2.symm⟩⟩

theorem documentClash_eq_none {d : FiscalDocument} :
    s.documentClash d = none ↔ ∀ e ∈ s.documents, e.id ≠ d.id → d.clash e = none := by
  unfold FiscalDb.documentClash
  rw [List.findSome?_eq_none_iff]
  constructor
  · intro h e he hne
    have hclash := h e he
    rwa [if_neg hne] at hclash
  · intro h e he
    by_cases hid : e.id = d.id
    · rw [if_pos hid]
    · rw [if_neg hid]
      exact h e he hid

/-! ## The tables -/

structure FiscalDb.Sound (s : FiscalDb) : Prop where
  unclashed : ∀ q ∈ s.requests, ∀ r ∈ s.requests, q.id ≠ r.id → q.clash r = none
  document : ∀ d ∈ s.documents, ∃ q ∈ s.requests, q.id = d.requestId ∧
    q.paymentId = d.paymentId ∧ (q.status = .issued ∨ q.status = .failed)
  issued : ∀ q ∈ s.requests, q.status = .issued → ∃ d ∈ s.documents, d.requestId = q.id
  single : ∀ d ∈ s.documents, ∀ d' ∈ s.documents, d.requestId = d'.requestId → d = d'

/-- Two live requests of one payment are one. -/
theorem FiscalDb.Sound.live_unique (h : s.Sound) (hq : q ∈ s.requests) (hr : r ∈ s.requests)
    (hpay : q.paymentId = r.paymentId) (hlive : q.live) (hlive' : r.live) : q = r := by
  by_contra hne
  have hid : q.id ≠ r.id := fun hid => hne (Table.eq_of_key hq hr hid)
  exact (request_clash_eq_none.mp (h.unclashed q hq r hr hid)).1 ⟨hpay, hlive, hlive'⟩

theorem FiscalDb.Sound.congr (h : s.Sound) (hrequests : s'.requests = s.requests)
    (hdocuments : s'.documents = s.documents) : s'.Sound := by
  refine ⟨?_, ?_, ?_, ?_⟩
  · rw [hrequests]
    exact h.unclashed
  · rw [hrequests, hdocuments]
    exact h.document
  · rw [hrequests, hdocuments]
    exact h.issued
  · rw [hdocuments]
    exact h.single

/-- A new row beside rows that it does not collide with. -/
theorem unclashed_insert (h : ∀ q ∈ s.requests, ∀ r ∈ s.requests, q.id ≠ r.id → q.clash r = none)
    (hclash : s.requestClash q = none) {rows : FiscalRequest → Prop}
    (hrows : ∀ r, rows r → r = q ∨ (r ∈ s.requests ∧ r.id ≠ q.id)) :
    ∀ a, rows a → ∀ b, rows b → a.id ≠ b.id → a.clash b = none := by
  have hnew := requestClash_eq_none.mp hclash
  intro a ha b hb hne
  rcases hrows a ha with rfl | ⟨ha, hane⟩
  · rcases hrows b hb with rfl | ⟨hb, hbne⟩
    · exact absurd rfl hne
    · exact hnew b hb hbne
  · rcases hrows b hb with rfl | ⟨hb, hbne⟩
    · exact request_clash_symm (hnew a ha hane)
    · exact h a ha b hb hne

/-- The request of a call is inserted. -/
theorem FiscalDb.Sound.insert (h : s.Sound) (hclash : s.requestClash q = none)
    (hins : s.requests.insert? q = some s'.requests) (hdocuments : s'.documents = s.documents)
    (hstatus : q.status ≠ .issued) : s'.Sound := by
  have hfresh := (Table.insert?_eq_some.mp hins).1
  have hrows : ∀ r, r ∈ s'.requests → r = q ∨ (r ∈ s.requests ∧ r.id ≠ q.id) := fun r hr => by
    rcases (Table.mem_insert? hins).mp hr with hr | rfl
    · exact .inr ⟨hr, hfresh r hr⟩
    · exact .inl rfl
  refine ⟨unclashed_insert h.unclashed hclash hrows, fun d hd => ?_, fun r hr hissued => ?_, ?_⟩
  · rw [hdocuments] at hd
    obtain ⟨r, hr, hd⟩ := h.document d hd
    exact ⟨r, (Table.mem_insert? hins).mpr (.inl hr), hd⟩
  · rw [hdocuments]
    rcases hrows r hr with rfl | ⟨hr, -⟩
    · exact absurd hissued hstatus
    · exact h.issued r hr hissued
  · rw [hdocuments]
    exact h.single

/-- A request that is not live collides with no other. -/
theorem FiscalDb.Sound.unclashed_failed (h : s.Sound) (hq : q ∈ s.requests) (hsame : q'.Same q)
    (hfailed : q'.status = .failed) : s.requestClash q' = none := by
  refine requestClash_eq_none.mpr fun r hr hne => request_clash_eq_none.mpr ⟨fun hc => ?_, ?_⟩
  · exact hc.2.1 hfailed
  · rw [hsame]
    refine (request_clash_eq_none.mp (h.unclashed q hq r hr fun hid => hne ?_)).2
    rw [hsame.id, hid]

/-- A request that has no document, or is to have it no longer, makes progress. -/
theorem FiscalDb.Sound.progressed {status : FiscalStatus} (h : s.Sound) (hq : q ∈ s.requests)
    (hp : Progressed s q.id status s') (hdocuments : s'.documents = s.documents)
    (hstatus : status ≠ .issued)
    (hdocument : status ≠ .failed → q.status ≠ .issued ∧ q.status ≠ .failed) : s'.Sound := by
  obtain ⟨q', hsame, hst, hclash, hrows⟩ := hp q (Table.find?_eq_some.mpr ⟨hq, rfl⟩)
  refine ⟨unclashed_insert h.unclashed hclash fun r hr => ?_, fun d hd => ?_, fun r hr hissued => ?_,
    ?_⟩
  · rw [hsame.id]
    exact (hrows r).mp hr
  · rw [hdocuments] at hd
    obtain ⟨r, hr, hid, hpay, hend⟩ := h.document d hd
    by_cases hrq : r.id = q.id
    · obtain rfl : r = q := Table.eq_of_key hr hq hrq
      refine ⟨q', (hrows q').mpr (.inl rfl), hsame.id.trans hid, hsame.paymentId.trans hpay, .inr ?_⟩
      by_contra hne
      rw [hst] at hne
      obtain ⟨hnot, hnot'⟩ := hdocument hne
      exact hend.elim hnot hnot'
    · exact ⟨r, (hrows r).mpr (.inr ⟨hr, hrq⟩), hid, hpay, hend⟩
  · rw [hdocuments]
    rcases (hrows r).mp hr with rfl | ⟨hr, -⟩
    · exact absurd (hst.symm.trans hissued) hstatus
    · exact h.issued r hr hissued
  · rw [hdocuments]
    exact h.single

/-- The document of a request is written. -/
theorem FiscalDb.Sound.persisted {invoiceId : Uuid} {now : Time} {i : Issuing}
    {result : Option IssuedAnswer} {d : FiscalDocument} (h : s.Sound)
    (hp : Persisted s invoiceId now i result d s') (hq : q ∈ s.requests) (hid : q.id = i.requestId)
    (hpay : q.paymentId = i.paymentId) : s'.Sound := by
  obtain ⟨q', hsame, hst, hclash, hrows⟩ :=
    hp.progressed q (Table.find?_eq_some.mpr ⟨hq, hid⟩)
  obtain ⟨numbers, hd, -⟩ := hp.row
  have hmem : ∀ e, e ∈ s'.documents ↔ e ∈ s.documents ∨ e = d := fun e =>
    Table.mem_insert? hp.inserted
  have hfresh : ∀ e ∈ s.documents, d.requestId ≠ e.requestId := fun e he heq => by
    have hne : e.id ≠ d.id := (Table.insert?_eq_some.mp hp.inserted).1 e he
    have hnot := documentClash_eq_none.mp hp.unclashed e he hne
    rw [FiscalDocument.clash, if_pos heq] at hnot
    cases hnot
  have hdid : d.requestId = i.requestId := by rw [hd]; rfl
  refine ⟨unclashed_insert h.unclashed hclash fun r hr => ?_, fun e he => ?_, fun r hr hissued => ?_,
    fun e he e' he' heq => ?_⟩
  · rw [hsame.id, hid]
    exact (hrows r).mp hr
  · rcases (hmem e).mp he with he | rfl
    · obtain ⟨r, hr, hrid, hrpay, hend⟩ := h.document e he
      have hne : r.id ≠ i.requestId := fun heq => hfresh e he (by rw [hdid, ← heq, hrid])
      exact ⟨r, (hrows r).mpr (.inr ⟨hr, hne⟩), hrid, hrpay, hend⟩
    · refine ⟨q', (hrows q').mpr (.inl rfl), ?_, ?_, .inl hst⟩
      · rw [hsame.id, hid, hdid]
      · rw [hsame.paymentId, hpay, hd]
        rfl
  · rcases (hrows r).mp hr with rfl | ⟨hr, -⟩
    · exact ⟨d, (hmem d).mpr (.inr rfl), by rw [hdid, hsame.id, hid]⟩
    · obtain ⟨e, he, hrid⟩ := h.issued r hr hissued
      exact ⟨e, (hmem e).mpr (.inl he), hrid⟩
  · rcases (hmem e).mp he with he | rfl
    · rcases (hmem e').mp he' with he' | rfl
      · exact h.single e he e' he' heq
      · exact absurd heq.symm (hfresh e he)
    · rcases (hmem e').mp he' with he' | rfl
      · exact absurd heq (hfresh e' he')
      · rfl

/-! ## The calls -/

/-- The bill of a task and the one of a request that is read are there at the rate that was read, the
request of a task is in the status that the call has left it in, and one that is resolved is past it. -/
structure FiscalCall.Sound (requests : Table FiscalRequest) (db : Db) (registry : List String)
    (c : FiscalCall) : Prop where
  built : ∀ t ∈ c.phase.building?, ∃ b ∈ db.bills, b.id = t.args.billId ∧
    b.fxRateVesPerUnit = t.prepared.bill.fxRateVesPerUnit
  task : ∀ t ∈ c.phase.task?, ∃ q ∈ requests, q.status = c.phase.status ∧
    ∃ nonce, q.Same (t.args.row t.requestId nonce t.prepared.draft)
  known : c.phase.isAnswered → ∀ t ∈ c.phase.task?, t.args.provider ∈ registry
  read : ∀ read ∈ c.phase.read?, ∃ q ∈ requests, q.Same read.request ∧
    q.status ≠ .pending ∧ q.status ≠ .sent
  rate : ∀ read ∈ c.phase.read?, ∃ b ∈ db.bills, b.id = read.request.billId ∧
    b.fxRateVesPerUnit = read.fxRateVesPerUnit

structure FiscalWorld.Sound (w : FiscalWorld) : Prop where
  fiscal : w.fiscal.Sound
  call : ∀ c ∈ w.calls, c.Sound w.fiscal.requests w.floor.db w.registry
  distinct : ∀ c ∈ w.calls, ∀ c' ∈ w.calls, ∀ t ∈ c.phase.task?, ∀ t' ∈ c'.phase.task?,
    t.requestId = t'.requestId → c.callId = c'.callId
  billed : ∀ q ∈ w.fiscal.requests, ∃ b ∈ w.floor.db.bills, b.id = q.billId
  known : ∀ q ∈ w.fiscal.requests, q.status = .uncertain → q.provider ∈ w.registry

theorem FiscalWorld.Sound.start (floor : Floor) (registry : List String)
    (series : Table FiscalSeries) (issuers : Table Issuer) (splitItems : List SplitItem) :
    (FiscalWorld.start floor registry series issuers splitItems).Sound := by
  have hrequest : ∀ q : FiscalRequest, q ∉ (∅ : Table FiscalRequest) := fun _ => List.not_mem_nil
  have hdocument : ∀ d : FiscalDocument, d ∉ (∅ : Table FiscalDocument) := fun _ => List.not_mem_nil
  have hcall : ∀ c : FiscalCall, c ∉ (∅ : Table FiscalCall) := fun _ => List.not_mem_nil
  exact ⟨⟨fun q hq => absurd hq (hrequest q), fun d hd => absurd hd (hdocument d),
      fun q hq => absurd hq (hrequest q), fun d hd => absurd hd (hdocument d)⟩,
    fun c hc => absurd hc (hcall c), fun c hc => absurd hc (hcall c),
    fun q hq => absurd hq (hrequest q), fun q hq => absurd hq (hrequest q)⟩

section Calls

variable {c : FiscalCall} {requests requests' : Table FiscalRequest} {db db' : Db}
  {registry : List String}

theorem Db.KeepsBills.rate (h : db.KeepsBills db') {b : Bill} (hb : b ∈ db.bills) :
    ∃ b' ∈ db'.bills, b'.id = b.id ∧ b'.fxRateVesPerUnit = b.fxRateVesPerUnit := by
  obtain ⟨b', hb', hid, hfrozen⟩ := h b hb
  simp only [Bill.frozen, Prod.mk.injEq] at hfrozen
  exact ⟨b', hb', hid, hfrozen.2.2.2.1⟩

theorem FiscalCall.Sound.bills (h : c.Sound requests db registry) (hb : db.KeepsBills db') :
    c.Sound requests db' registry := by
  refine ⟨fun t ht => ?_, h.task, h.known, h.read, fun read hread => ?_⟩
  · obtain ⟨b, hmem, hid, hrate⟩ := h.built t ht
    obtain ⟨b', hmem', hid', hrate'⟩ := hb.rate hmem
    exact ⟨b', hmem', hid'.trans hid, hrate'.trans hrate⟩
  · obtain ⟨b, hmem, hid, hrate⟩ := h.rate read hread
    obtain ⟨b', hmem', hid', hrate'⟩ := hb.rate hmem
    exact ⟨b', hmem', hid'.trans hid, hrate'.trans hrate⟩

theorem FiscalCall.Sound.more (h : c.Sound requests db registry)
    (hsub : ∀ q ∈ requests, q ∈ requests') : c.Sound requests' db registry := by
  refine ⟨h.built, fun t ht => ?_, h.known, fun read hread => ?_, h.rate⟩
  · obtain ⟨q, hq, hrest⟩ := h.task t ht
    exact ⟨q, hsub q hq, hrest⟩
  · obtain ⟨q, hq, hrest⟩ := h.read read hread
    exact ⟨q, hsub q hq, hrest⟩

/-- Another call's request makes progress. -/
theorem FiscalCall.Sound.progressed {status : FiscalStatus} (h : c.Sound s.requests db registry)
    (hq : q ∈ s.requests) (hp : Progressed s q.id status s')
    (htask : ∀ t ∈ c.phase.task?, t.requestId ≠ q.id)
    (hstatus : (q.status = .pending ∨ q.status = .sent) ∨ status ≠ .pending ∧ status ≠ .sent) :
    c.Sound s'.requests db registry := by
  obtain ⟨q', hsame, hst, -, hrows⟩ := hp q (Table.find?_eq_some.mpr ⟨hq, rfl⟩)
  refine ⟨h.built, fun t ht => ?_, h.known, fun read hread => ?_, h.rate⟩
  · obtain ⟨r, hr, hrst, nonce, hrow⟩ := h.task t ht
    refine ⟨r, (hrows r).mpr (.inr ⟨hr, fun hid => htask t ht ?_⟩), hrst, nonce, hrow⟩
    rw [← hid, hrow.id]
    rfl
  · obtain ⟨r, hr, hrsame, hpending, hsent⟩ := h.read read hread
    by_cases hid : r.id = q.id
    · obtain rfl : r = q := Table.eq_of_key hr hq hid
      rcases hstatus with hstatus | ⟨hne, hne'⟩
      · exact absurd hstatus (not_or.mpr ⟨hpending, hsent⟩)
      · exact ⟨q', (hrows q').mpr (.inl rfl), hsame.trans hrsame, hst ▸ hne, hst ▸ hne'⟩
    · exact ⟨r, (hrows r).mpr (.inr ⟨hr, hid⟩), hrsame, hpending, hsent⟩

end Calls

/-! ## One step -/

theorem readRequest_ok {db : Db} {restaurantId requestId : Uuid} {read : ReadRequest}
    (h : readRequest db s restaurantId requestId = .ok read) :
    s.requests.find? requestId = some read.request ∧ read.request.restaurantId = restaurantId ∧
      ∃ b, db.bills.find? read.request.billId = some b ∧
        b.fxRateVesPerUnit = read.fxRateVesPerUnit := by
  unfold readRequest at h
  obtain ⟨request, hrequest, h⟩ := Option.bind_eq_some_iff.mp (Except.ofOption_eq_ok.mp h)
  obtain ⟨bill, hbill, h⟩ := Option.bind_eq_some_iff.mp h
  obtain rfl := Option.some.inj h
  obtain ⟨hfind, hrest⟩ := Option.filter_eq_some_iff.mp hrequest
  exact ⟨hfind, by simpa using hrest, bill, hbill, rfl⟩

theorem hear_ok {phase phase' : FiscalPhase} {registry : List String}
    {a : Except AdapterError AdapterReply} (h : phase.hear registry a = some (.ok (some phase'))) :
    phase'.building? = phase.building? ∧ phase'.task? = phase.task? ∧ phase'.read? = phase.read? ∧
      phase'.status = phase.status ∧
      (phase'.isAnswered → ∀ t ∈ phase'.task?, t.args.provider ∈ registry) := by
  unfold FiscalPhase.hear at h
  split at h
  · rename_i t
    split at h
    · cases h
    split at h
    · cases h
    rename_i hknown
    have hmem : ∀ t' ∈ some t, t'.args.provider ∈ registry := fun t' ht' =>
      Option.some.inj ht' ▸ not_not.mp hknown
    split at h <;> cases h <;> exact ⟨rfl, rfl, rfl, rfl, fun _ => hmem⟩
  · rename_i t
    split at h
    · cases h
    rename_i hknown
    cases h
    exact ⟨rfl, rfl, rfl, rfl, fun _ t' ht' => Option.some.inj ht' ▸ not_not.mp hknown⟩
  · split at h
    · cases h
    split at h <;> cases h
    exact ⟨rfl, rfl, rfl, rfl, nofun⟩
  · cases h

/-- The calls behind a step of one of them. -/
theorem mem_goOn (w : FiscalWorld) (next : Option FiscalPhase) {c c' : FiscalCall}
    (hfind : w.calls.find? c.callId = some c) (h : c' ∈ (w.goOn c.callId next).calls) :
    (∃ phase, next = some phase ∧ c' = { c with phase }) ∨ (c' ∈ w.calls ∧ c'.callId ≠ c.callId) := by
  cases next with
  | none =>
    obtain ⟨hc', hne⟩ := Table.mem_deleteWhere.mp h
    exact .inr ⟨hc', by simpa using hne⟩
  | some phase =>
    rcases (Table.mem_update_of_find (fun x => { x with phase }) (fun _ => rfl) hfind).mp h with
      rfl | hold
    · exact .inl ⟨phase, rfl, rfl⟩
    · exact .inr hold

theorem goOn_rest (w : FiscalWorld) (callId : Nat) (next : Option FiscalPhase) :
    (w.goOn callId next).fiscal = w.fiscal ∧ (w.goOn callId next).floor = w.floor ∧
      (w.goOn callId next).registry = w.registry := by
  cases next <;> exact ⟨rfl, rfl, rfl⟩

theorem FiscalWorld.Sound.aside (h : w.Sound) (hcalls : w'.calls = w.calls)
    (hregistry : w'.registry = w.registry) (hrequests : w'.fiscal.requests = w.fiscal.requests)
    (hdocuments : w'.fiscal.documents = w.fiscal.documents)
    (hbills : w.floor.db.KeepsBills w'.floor.db) : w'.Sound := by
  refine ⟨h.fiscal.congr hrequests hdocuments, ?_, ?_, ?_, ?_⟩
  · rw [hcalls, hregistry, hrequests]
    exact fun c hc => (h.call c hc).bills hbills
  · rw [hcalls]
    exact h.distinct
  · rw [hrequests]
    intro q hq
    obtain ⟨b, hb, hid⟩ := h.billed q hq
    obtain ⟨b', hb', hid', -⟩ := hbills b hb
    exact ⟨b', hb', hid'.trans hid⟩
  · rw [hrequests, hregistry]
    exact h.known

/-- A call begins without a request. -/
theorem Opens.sound {phase : FiscalPhase} (h : Opens w phase) (callId : Nat) :
    phase.task? = none ∧
      (⟨callId, phase⟩ : FiscalCall).Sound w.fiscal.requests w.floor.db w.registry := by
  cases h with
  | built hprepared =>
    obtain ⟨_, _, hp⟩ := prepareDraft_ok hprepared
    obtain ⟨hfind, -⟩ := bill?_eq_some.mp hp.found
    refine ⟨rfl, fun t ht => ?_, fun t ht => ?_, fun hanswered => ?_, fun t ht => ?_,
      fun t ht => ?_⟩
    · obtain rfl := Option.some.inj ht
      exact ⟨_, Table.find?_mem hfind, Table.find?_key hfind, rfl⟩
    · cases ht
    · cases hanswered
    · cases ht
    · cases ht
  | reading hread hstatus =>
    obtain ⟨hfind, -, b, hb, hrate⟩ := readRequest_ok hread
    refine ⟨rfl, fun t ht => ?_, fun t ht => ?_, fun hanswered => ?_, fun t ht => ?_,
      fun t ht => ?_⟩
    · cases ht
    · cases ht
    · cases hanswered
    · obtain rfl := Option.some.inj ht
      exact ⟨_, Table.find?_mem hfind, .refl _, hstatus ▸ nofun, hstatus ▸ nofun⟩
    · obtain rfl := Option.some.inj ht
      exact ⟨b, Table.find?_mem hb, Table.find?_key hb, hrate⟩

theorem FiscalWorld.Sound.opened (h : w.Sound) {call : FiscalCall} {calls : Table FiscalCall}
    (ho : Opens w call.phase) (hins : w.calls.insert? call = some calls) :
    ({ w with calls } : FiscalWorld).Sound := by
  obtain ⟨hnone, hcall⟩ := ho.sound call.callId
  have hmem : ∀ c ∈ calls, c ∈ w.calls ∨ c = call := fun c hc => (Table.mem_insert? hins).mp hc
  refine ⟨h.fiscal, fun c hc => ?_, fun c hc c' hc' t ht t' ht' heq => ?_, h.billed, h.known⟩
  · rcases hmem c hc with hc | rfl
    · exact h.call c hc
    · exact hcall
  · rcases hmem c hc with hc | rfl
    · rcases hmem c' hc' with hc' | rfl
      · exact h.distinct c hc c' hc' t ht t' ht' heq
      · rw [hnone] at ht'
        cases ht'
    · rw [hnone] at ht
      cases ht

theorem FiscalWorld.Sound.ended (h : w.Sound) (callId : Nat) : (w.forget callId).Sound :=
  ⟨h.fiscal, fun c hc => h.call c (Table.mem_deleteWhere.mp hc).1,
    fun c hc c' hc' => h.distinct c (Table.mem_deleteWhere.mp hc).1 c'
      (Table.mem_deleteWhere.mp hc').1, h.billed, h.known⟩

/-- A call goes on with what it had. -/
theorem FiscalWorld.Sound.heard (h : w.Sound) {c : FiscalCall} {phase : FiscalPhase}
    {a : Except AdapterError AdapterReply} (hfind : w.calls.find? c.callId = some c)
    (hhear : c.phase.hear w.registry a = some (.ok (some phase))) :
    (w.setPhase c.callId phase).Sound := by
  obtain ⟨hbuilding, htask, hread, hstatus, hknown⟩ := hear_ok hhear
  have hc := Table.find?_mem hfind
  have hmem : ∀ c' ∈ (w.setPhase c.callId phase).calls, c' = { c with phase } ∨
      (c' ∈ w.calls ∧ c'.callId ≠ c.callId) := fun c' hc' => by
    rcases mem_goOn w (some phase) hfind hc' with ⟨_, hp, rfl⟩ | hold
    · exact .inl (by rw [Option.some.inj hp])
    · exact .inr hold
  have hsame : ∀ c' ∈ (w.setPhase c.callId phase).calls, ∃ c₀ ∈ w.calls, c₀.callId = c'.callId ∧
      c'.phase.task? = c₀.phase.task? := fun c' hc' => by
    rcases hmem c' hc' with rfl | ⟨hc', -⟩
    · exact ⟨c, hc, rfl, htask⟩
    · exact ⟨c', hc', rfl, rfl⟩
  refine ⟨h.fiscal, fun c' hc' => ?_, fun c₁ h₁ c₂ h₂ t ht t' ht' heq => ?_, h.billed, h.known⟩
  · rcases hmem c' hc' with rfl | ⟨hc', -⟩
    · obtain ⟨hb, ht, -, hr, hrate⟩ := h.call c hc
      refine ⟨?_, ?_, hknown, ?_, ?_⟩
      · rw [show ({ c with phase } : FiscalCall).phase.building? = _ from hbuilding]
        exact hb
      · rw [show ({ c with phase } : FiscalCall).phase.task? = _ from htask,
          show ({ c with phase } : FiscalCall).phase.status = _ from hstatus]
        exact ht
      · rw [show ({ c with phase } : FiscalCall).phase.read? = _ from hread]
        exact hr
      · rw [show ({ c with phase } : FiscalCall).phase.read? = _ from hread]
        exact hrate
    · exact h.call c' hc'
  · obtain ⟨c₀, hc₀, hid₀, htask₀⟩ := hsame c₁ h₁
    obtain ⟨c₀', hc₀', hid₀', htask₀'⟩ := hsame c₂ h₂
    rw [← hid₀, ← hid₀']
    exact h.distinct c₀ hc₀ c₀' hc₀' t (htask₀ ▸ ht) t' (htask₀' ▸ ht') heq

/-- A call writes to its request, and to no request of a task of another call. -/
theorem FiscalWorld.Sound.progress (h : w.Sound) {c : FiscalCall} {fiscal : FiscalDb}
    {next : Option FiscalPhase} {status : FiscalStatus} (hfind : w.calls.find? c.callId = some c)
    (hfiscal : fiscal.Sound) (hq : q ∈ w.fiscal.requests)
    (hp : Progressed w.fiscal q.id status fiscal)
    (hother : ∀ c' ∈ w.calls, c'.callId ≠ c.callId → ∀ t ∈ c'.phase.task?, t.requestId ≠ q.id)
    (hstatus : (q.status = .pending ∨ q.status = .sent) ∨ status ≠ .pending ∧ status ≠ .sent)
    (huncertain : status = .uncertain → q.provider ∈ w.registry)
    (hnext : ∀ phase, next = some phase → phase.task? = c.phase.task? ∧
      ({ c with phase } : FiscalCall).Sound fiscal.requests w.floor.db w.registry) :
    (({ w with fiscal } : FiscalWorld).goOn c.callId next).Sound := by
  obtain ⟨q', hsame, hst, -, hrows⟩ := hp q (Table.find?_eq_some.mpr ⟨hq, rfl⟩)
  obtain ⟨hf, hfloor, hregistry⟩ := goOn_rest { w with fiscal } c.callId next
  have hc := Table.find?_mem hfind
  have hmem : ∀ c' ∈ (({ w with fiscal } : FiscalWorld).goOn c.callId next).calls,
      (∃ phase, next = some phase ∧ c' = { c with phase }) ∨
        (c' ∈ w.calls ∧ c'.callId ≠ c.callId) := fun c' hc' => mem_goOn { w with fiscal } next hfind hc'
  have hold : ∀ c' ∈ (({ w with fiscal } : FiscalWorld).goOn c.callId next).calls,
      ∃ c₀ ∈ w.calls, c₀.callId = c'.callId ∧ c'.phase.task? = c₀.phase.task? := fun c' hc' => by
    rcases hmem c' hc' with ⟨phase, hn, rfl⟩ | ⟨hc', -⟩
    · exact ⟨c, hc, rfl, (hnext phase hn).1⟩
    · exact ⟨c', hc', rfl, rfl⟩
  refine ⟨?_, ?_, fun c₁ h₁ c₂ h₂ t ht t' ht' heq => ?_, ?_, ?_⟩
  · rw [hf]
    exact hfiscal
  · rw [hf, hfloor, hregistry]
    intro c' hc'
    rcases hmem c' hc' with ⟨phase, hn, rfl⟩ | ⟨hc', hne⟩
    · exact (hnext phase hn).2
    · exact (h.call c' hc').progressed hq hp (hother c' hc' hne) hstatus
  · obtain ⟨c₀, hc₀, hid₀, htask₀⟩ := hold c₁ h₁
    obtain ⟨c₀', hc₀', hid₀', htask₀'⟩ := hold c₂ h₂
    rw [← hid₀, ← hid₀']
    exact h.distinct c₀ hc₀ c₀' hc₀' t (htask₀ ▸ ht) t' (htask₀' ▸ ht') heq
  · rw [hf, hfloor]
    intro r hr
    rcases (hrows r).mp hr with rfl | ⟨hr, -⟩
    · rw [hsame.billId]
      exact h.billed q hq
    · exact h.billed r hr
  · rw [hf, hregistry]
    intro r hr hru
    rcases (hrows r).mp hr with rfl | ⟨hr, -⟩
    · rw [hsame.provider]
      exact huncertain (hst.symm.trans hru)
    · exact h.known r hr hru

/-- A call commits its request. -/
theorem FiscalWorld.Sound.requested (h : w.Sound) {callId : Nat} {t : IssueTask}
    {fiscal : FiscalDb} {nonce : String}
    (hfind : w.calls.find? callId = some ⟨callId, .built t⟩)
    (hclash : w.fiscal.requestClash (t.args.row t.requestId nonce t.prepared.draft) = none)
    (hins : w.fiscal.requests.insert? (t.args.row t.requestId nonce t.prepared.draft) =
      some fiscal.requests) (hdocuments : fiscal.documents = w.fiscal.documents) :
    (({ w with fiscal } : FiscalWorld).setPhase callId (.requested t)).Sound := by
  have hc := h.call _ (Table.find?_mem hfind)
  have hfresh := (Table.insert?_eq_some.mp hins).1
  have hrow : t.args.row t.requestId nonce t.prepared.draft ∈ fiscal.requests :=
    (Table.mem_insert? hins).mpr (.inr rfl)
  have hmem : ∀ c' ∈ (({ w with fiscal } : FiscalWorld).setPhase callId (.requested t)).calls,
      c' = ⟨callId, .requested t⟩ ∨ (c' ∈ w.calls ∧ c'.callId ≠ callId) := fun c' hc' => by
    rcases mem_goOn { w with fiscal } (some (.requested t)) (c := ⟨callId, .built t⟩) hfind hc' with
      ⟨_, hp, rfl⟩ | hold
    · exact .inl (by rw [Option.some.inj hp])
    · exact .inr hold
  -- The task of a call that has its request is not the one that is inserted.
  have hnew : ∀ c' ∈ w.calls, ∀ t' ∈ c'.phase.task?, t'.requestId ≠ t.requestId := by
    intro c' hc' t' ht' heq
    obtain ⟨r, hr, -, _, hsame⟩ := (h.call c' hc').task t' ht'
    exact hfresh r hr (hsame.id.trans heq)
  refine ⟨h.fiscal.insert hclash hins hdocuments nofun, fun c' hc' => ?_,
    fun c₁ h₁ c₂ h₂ t₁ ht₁ t₂ ht₂ heq => ?_, fun r hr => ?_, fun r hr hru => ?_⟩
  · rcases hmem c' hc' with rfl | ⟨hc', -⟩
    · refine ⟨hc.built, fun t' ht' => ?_, fun hanswered => ?_, fun read hread => ?_,
        fun read hread => ?_⟩
      · obtain rfl := Option.some.inj ht'
        exact ⟨_, hrow, rfl, nonce, .refl _⟩
      · cases hanswered
      · cases hread
      · cases hread
    · exact (h.call c' hc').more fun r hr => (Table.mem_insert? hins).mpr (.inl hr)
  · rcases hmem c₁ h₁ with rfl | ⟨h₁, -⟩
    · rcases hmem c₂ h₂ with rfl | ⟨h₂, -⟩
      · rfl
      · obtain rfl := Option.some.inj ht₁
        exact absurd heq.symm (hnew c₂ h₂ t₂ ht₂)
    · rcases hmem c₂ h₂ with rfl | ⟨h₂, -⟩
      · obtain rfl := Option.some.inj ht₂
        exact absurd heq (hnew c₁ h₁ t₁ ht₁)
      · exact h.distinct c₁ h₁ c₂ h₂ t₁ ht₁ t₂ ht₂ heq
  · rcases (Table.mem_insert? hins).mp hr with hr | rfl
    · exact h.billed r hr
    · obtain ⟨b, hb, hid, -⟩ := hc.built t rfl
      exact ⟨b, hb, hid⟩
  · rcases (Table.mem_insert? hins).mp hr with hr | rfl
    · exact h.known r hr hru
    · cases hru

/-- The request of a task, which no other call is on. -/
theorem FiscalWorld.Sound.find_task (h : w.Sound) {c : FiscalCall} {t : IssueTask} (hc : c ∈ w.calls)
    (ht : c.phase.task? = some t) : ∃ q ∈ w.fiscal.requests, q.id = t.requestId ∧
      q.status = c.phase.status ∧ q.paymentId = t.args.paymentId ∧ q.provider = t.args.provider ∧
      q.draftJson = some (serialiseDraft t.prepared.draft) ∧ q.billId = t.args.billId ∧
      ∀ c' ∈ w.calls, c'.callId ≠ c.callId → ∀ t' ∈ c'.phase.task?, t'.requestId ≠ q.id := by
  obtain ⟨q, hq, hstatus, nonce, hsame⟩ := (h.call c hc).task t ht
  have hid : q.id = t.requestId := hsame.id
  refine ⟨q, hq, hid, hstatus, hsame.paymentId, hsame.provider, hsame.draftJson, hsame.billId,
    fun c' hc' hne t' ht' heq => hne ?_⟩
  exact h.distinct c' hc' c hc t' ht' t ht (heq.trans hid)

/-- The request that a call resolves, which no call issues any more. -/
theorem FiscalWorld.Sound.find_read (h : w.Sound) {c : FiscalCall} {read : ReadRequest}
    (hc : c ∈ w.calls) (hread : c.phase.read? = some read) :
    ∃ q ∈ w.fiscal.requests, q.Same read.request ∧ q.status ≠ .pending ∧ q.status ≠ .sent ∧
      ∀ c' ∈ w.calls, ∀ t' ∈ c'.phase.task?, t'.requestId ≠ q.id := by
  obtain ⟨q, hq, hsame, hpending, hsent⟩ := (h.call c hc).read read hread
  refine ⟨q, hq, hsame, hpending, hsent, fun c' hc' t' ht' heq => ?_⟩
  obtain ⟨r, hr, hid, hstatus, -⟩ := h.find_task hc' ht'
  obtain rfl : r = q := Table.eq_of_key hr hq (hid.trans heq)
  revert hstatus
  generalize c'.phase = phase
  cases phase <;> simp [FiscalPhase.status, hpending, hsent]

/-- What `lateIssuing` takes from the request. -/
theorem lateIssuing_ok {read : ReadRequest} {i : Issuing} (h : lateIssuing read = .ok i) :
    i.requestId = read.request.id ∧ i.paymentId = read.request.paymentId := by
  unfold lateIssuing at h
  simp only [Except.bind_eq_ok, Except.pure_eq_ok] at h
  obtain ⟨_, -, _, -, rfl⟩ := h
  exact ⟨rfl, rfl⟩

/-- The request is marked as `SENT`. -/
theorem FiscalWorld.Sound.sent (h : w.Sound) {callId : Nat} {t : IssueTask} {fiscal : FiscalDb}
    (hfind : w.calls.find? callId = some ⟨callId, .requested t⟩)
    (hp : Progressed w.fiscal t.requestId .sent fiscal)
    (hdocuments : fiscal.documents = w.fiscal.documents) :
    (({ w with fiscal } : FiscalWorld).goOn callId (some (.sent t))).Sound := by
  have hc := Table.find?_mem hfind
  obtain ⟨q, hq, hid, hstatus, -, -, -, -, hother⟩ := h.find_task hc rfl
  have hpending : q.status = .pending := hstatus
  rw [← hid] at hp
  have hfiscal : fiscal.Sound := by
    refine h.fiscal.progressed hq hp hdocuments (by decide) fun _ => ?_
    rw [hpending]
    decide
  refine h.progress hfind hfiscal hq hp hother (.inl (.inl hpending)) (fun h => by cases h)
    fun phase hn => ?_
  obtain rfl := Option.some.inj hn
  obtain ⟨q', hsame, hst, -, hrows⟩ := hp q (Table.find?_eq_some.mpr ⟨hq, rfl⟩)
  obtain ⟨r, hr, -, nonce, hrow⟩ := (h.call _ hc).task t rfl
  obtain rfl : r = q := Table.eq_of_key hr hq (hrow.id.trans hid.symm)
  refine ⟨rfl, (h.call _ hc).built, fun t' ht' => ?_, fun hanswered => ?_, fun read hread => ?_,
    fun read hread => ?_⟩
  · obtain rfl := Option.some.inj ht'
    exact ⟨q', (hrows q').mpr (.inl rfl), hst, nonce, hsame.trans hrow⟩
  · cases hanswered
  · cases hread
  · cases hread

/-- A call ends with what it writes. -/
theorem FiscalWorld.Sound.last (h : w.Sound) {c : FiscalCall} {fiscal : FiscalDb}
    {status : FiscalStatus} (hfind : w.calls.find? c.callId = some c) (hfiscal : fiscal.Sound)
    (hq : q ∈ w.fiscal.requests) (hp : Progressed w.fiscal q.id status fiscal)
    (hother : ∀ c' ∈ w.calls, c'.callId ≠ c.callId → ∀ t ∈ c'.phase.task?, t.requestId ≠ q.id)
    (hstatus : (q.status = .pending ∨ q.status = .sent) ∨ status ≠ .pending ∧ status ≠ .sent)
    (huncertain : status = .uncertain → q.provider ∈ w.registry) :
    (({ w with fiscal } : FiscalWorld).goOn c.callId none).Sound :=
  h.progress hfind hfiscal hq hp hother hstatus huncertain fun _ hn => by cases hn

theorem FiscalWorld.Sound.unissued (h : w.Sound) {callId : Nat} {t : IssueTask}
    {result : ProviderResult} {fiscal : FiscalDb} {status : FiscalStatus}
    (hfind : w.calls.find? callId = some ⟨callId, .answered t result⟩)
    (hstatus : status = .failed ∨ status = .uncertain)
    (hp : Progressed w.fiscal t.requestId status fiscal)
    (hdocuments : fiscal.documents = w.fiscal.documents) :
    (({ w with fiscal } : FiscalWorld).goOn callId none).Sound := by
  have hc := Table.find?_mem hfind
  obtain ⟨q, hq, hid, hsent, -, hprovider, -, -, hother⟩ := h.find_task hc rfl
  have hsent : q.status = .sent := hsent
  rw [← hid] at hp
  have hne : status ≠ .issued := by rcases hstatus with rfl | rfl <;> decide
  refine h.last hfind (h.fiscal.progressed hq hp hdocuments hne fun _ => ?_) hq hp hother
    (.inl (.inr hsent)) fun _ => ?_
  · rw [hsent]
    decide
  · rw [hprovider]
    exact (h.call _ hc).known rfl t rfl

theorem FiscalWorld.Sound.issued (h : w.Sound) {c : FiscalCall} {t : IssueTask}
    {fiscal : FiscalDb} {invoiceId : Uuid} {now : Time} {result : Option IssuedAnswer}
    {d : FiscalDocument} (hfind : w.calls.find? c.callId = some c) (htask : c.phase.task? = some t)
    (hp : Persisted w.fiscal invoiceId now t.issuing result d fiscal) :
    (({ w with fiscal } : FiscalWorld).goOn c.callId none).Sound := by
  obtain ⟨q, hq, hid, -, hpay, -, -, -, hother⟩ := h.find_task (Table.find?_mem hfind) htask
  have hprogress := hp.progressed
  rw [show t.issuing.requestId = q.id from hid.symm] at hprogress
  exact h.last hfind (h.fiscal.persisted hp hq hid hpay) hq hprogress hother (.inr (by decide))
    fun h => by cases h

theorem FiscalWorld.Sound.issuedLate (h : w.Sound) {callId : Nat} {read : ReadRequest}
    {answer : IssuedAnswer} {i : Issuing} {fiscal : FiscalDb} {invoiceId : Uuid} {now : Time}
    {d : FiscalDocument} (hfind : w.calls.find? callId = some ⟨callId, .learnt read (.issued answer)⟩)
    (hi : lateIssuing read = .ok i)
    (hp : Persisted w.fiscal invoiceId now i (some answer) d fiscal) :
    (({ w with fiscal } : FiscalWorld).goOn callId none).Sound := by
  obtain ⟨q, hq, hsame, -, -, hother⟩ := h.find_read (Table.find?_mem hfind) rfl
  obtain ⟨hid, hpay⟩ := lateIssuing_ok hi
  have hqid : q.id = i.requestId := hsame.id.trans hid.symm
  have hprogress := hp.progressed
  rw [← hqid] at hprogress
  have hfiscal := h.fiscal.persisted hp hq hqid (hsame.paymentId.trans hpay.symm)
  exact h.last (c := ⟨callId, _⟩) hfind hfiscal hq hprogress
    (fun c' hc' _ => hother c' hc') (.inr (by decide)) fun h => by cases h

theorem FiscalWorld.Sound.failed (h : w.Sound) {callId : Nat} {read : ReadRequest}
    {reason : Option String} {fiscal : FiscalDb}
    (hfind : w.calls.find? callId = some ⟨callId, .learnt read (.rejected reason)⟩)
    (hp : Progressed w.fiscal read.request.id .failed fiscal)
    (hdocuments : fiscal.documents = w.fiscal.documents) :
    (({ w with fiscal } : FiscalWorld).goOn callId none).Sound := by
  obtain ⟨q, hq, hsame, -, -, hother⟩ := h.find_read (Table.find?_mem hfind) rfl
  rw [← hsame.id] at hp
  exact h.last (c := ⟨callId, _⟩) hfind
    (h.fiscal.progressed hq hp hdocuments (by decide) fun hne => absurd rfl hne) hq hp
    (fun c' hc' _ => hother c' hc') (.inr (by decide)) fun h => by cases h

theorem FiscalWorld.Sound.wrote (h : w.Sound) {c : FiscalCall} {fiscal : FiscalDb}
    {next : Option FiscalPhase} (hfind : w.calls.find? c.callId = some c)
    (hw : Writes w.fiscal fiscal c.phase next) :
    (({ w with fiscal } : FiscalWorld).goOn c.callId next).Sound := by
  obtain ⟨callId, phase⟩ := c
  cases hw with
  | requested hclash hins hdocuments => exact h.requested hfind hclash hins hdocuments
  | sent hp hdocuments => exact h.sent hfind hp hdocuments
  | unissued hstatus hp hdocuments => exact h.unissued hfind hstatus hp hdocuments
  | issued htask hp => exact h.issued hfind htask hp
  | issuedLate hi hp => exact h.issuedLate hfind hi hp
  | failed hp hdocuments => exact h.failed hfind hp hdocuments

theorem FiscalWorld.Sound.steps {op : FiscalOp} (h : w.Sound) (hs : w.Steps op w') : w'.Sound := by
  cases hs with
  | aside hcalls hregistry hrequests hdocuments hbills =>
    exact h.aside hcalls hregistry hrequests hdocuments hbills
  | opened ho hins => exact h.opened ho hins
  | ended => exact h.ended _
  | heard _ hfind hhear => exact h.heard hfind hhear
  | wrote _ _ hfind hw => exact h.wrote hfind hw

theorem FiscalWorld.Sound.step (h : w.Sound) (op : FiscalOp) : (invoicing.step w op).1.Sound :=
  h.steps (op.steps w)

/-- Every reachable state is sound. -/
theorem FiscalWorld.Sound.run (h : w.Sound) (ops : List FiscalOp) : (invoicing.run w ops).Sound := by
  induction ops generalizing w with
  | nil => exact h
  | cons op ops ih => exact ih (h.step op)

end Splite
