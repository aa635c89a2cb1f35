import Splite.Ledger.Payments

/-!
# Every bill is an account

The account of a bill is paid with what its settled payments sum to, not with the figure that
`bills.amount_paid_ves` caches. `Refines` says of two states of the database that the accounts of
the second come from those of the first by steps of an account, and that the cache stays right.

* `Refines.credit`, `Refines.reprice`, `Refines.close`, `Refines.cancel`, `Refines.frame`: what
  refines.
* `Db.Sound.of_refines`: what refines a sound database is sound.
* `Effect`: what every transaction does to the accounts and to the charges that others have in
  flight, with a rule for each way of writing `payments`.
-/

namespace Splite

variable {s s' s'' : Db}

/-- The account that a bill is. -/
def Db.account (s : Db) (b : Bill) : Account Int where
  status := b.status
  due := b.totalDueVes
  paid := s.settled b.id
  forgiven := s.adjusted b.id

/-- `payment_ledger_drift` is empty. -/
def Db.Cached (s : Db) : Prop := ∀ b ∈ s.bills, b.amountPaidVes = s.settled b.id

/-- The cache is right, and every bill is a sound account. -/
structure Db.Sound (s : Db) : Prop where
  cached : s.Cached
  account : ∀ b ∈ s.bills, (s.account b).Sound

instance (s : Db) : Decidable s.Cached :=
  inferInstanceAs (Decidable (∀ b ∈ s.bills.rows, b.amountPaidVes = s.settled b.id))

/-- Bills come and go only as accounts do, and the cache follows. -/
def Refines (s s' : Db) : Prop :=
  s.Cached → s'.Cached ∧
    ∀ b' ∈ s'.bills, ∃ b ∈ s.bills, b.id = b'.id ∧ Account.Run (s.account b) (s'.account b')

theorem Refines.refl (s : Db) : Refines s s := fun h =>
  ⟨h, fun b hb => ⟨b, hb, rfl, .refl⟩⟩

theorem Refines.trans (h : Refines s s') (h' : Refines s' s'') : Refines s s'' := fun hc => by
  obtain ⟨hc', hrun⟩ := h hc
  obtain ⟨hc'', hrun'⟩ := h' hc'
  refine ⟨hc'', fun b'' hb'' => ?_⟩
  obtain ⟨b', hb', hid', hr'⟩ := hrun' b'' hb''
  obtain ⟨b, hb, hid, hr⟩ := hrun b' hb'
  exact ⟨b, hb, hid.trans hid', hr.trans hr'⟩

theorem Db.Sound.of_refines (h : s.Sound) (hr : Refines s s') : s'.Sound := by
  obtain ⟨hc, hrun⟩ := hr h.cached
  refine ⟨hc, fun b' hb' => ?_⟩
  obtain ⟨b, hb, -, hb'run⟩ := hrun b' hb'
  exact hb'run.sound (h.account b hb)

/-- Every bill has just been opened, and nothing was settled or adjusted yet. -/
structure Db.Opened (s : Db) : Prop where
  bills : ∀ b ∈ s.bills, b.status = .open ∧ b.amountPaidVes = 0 ∧ 0 ≤ b.totalDueVes
  payments : ∀ p ∈ s.payments, p.status.counted = false
  adjustments : s.adjustments = ∅

theorem Db.Opened.settled (h : s.Opened) (k : Uuid) : s.settled k = 0 := by
  have h0 : s.payments.total (fun p => if p.billId = k ∧ p.status.counted then p.amountVes else 0) =
      s.payments.total fun _ => 0 := Table.total_congr fun p hp => by simp [h.payments p hp]
  unfold Db.settled
  rw [h0]
  simp [Table.total]

theorem Db.Opened.adjusted (h : s.Opened) (k : Uuid) : s.adjusted k = 0 := by
  unfold Db.adjusted
  rw [h.adjustments]
  exact Table.total_empty

theorem Db.Opened.sound (h : s.Opened) : s.Sound := by
  refine ⟨fun b hb => by rw [(h.bills b hb).2.1, h.settled], fun b hb => ?_⟩
  obtain ⟨hopen, -, hdue⟩ := h.bills b hb
  have : s.account b = ⟨.open, b.totalDueVes, 0, 0⟩ := by
    simp [Db.account, hopen, h.settled, h.adjusted]
  rw [this]
  exact Account.sound_of_open hdue

/-! ## What payments sum to -/

/-- What a row adds to the settled sum of a bill. -/
def Payment.share (p : Payment) (billId : Uuid) : Int :=
  if p.billId = billId ∧ p.status.counted then p.amountVes else 0

theorem settled_eq (k : Uuid) : s.settled k = s.payments.total (·.share k) := rfl

theorem settled_insert {row : Payment} (h : s.payments.insert? row = some s'.payments) (k : Uuid) :
    s'.settled k = s.settled k + row.share k :=
  Table.total_insert h

theorem settled_update {id : Uuid} (f : Payment → Payment) (hf : ∀ p, (f p).id = p.id)
    {old : Payment} (hold : s.payments.find? id = some old)
    (h : s'.payments = s.payments.update id f hf) (k : Uuid) :
    s'.settled k = s.settled k + ((f old).share k - old.share k) := by
  rw [settled_eq, h, settled_eq]
  exact Table.total_update hold

theorem share_of_not_counted {p : Payment} (h : p.status.counted = false) (k : Uuid) :
    p.share k = 0 := by
  simp [Payment.share, h]

theorem share_of_counted {p : Payment} (h : p.status.counted) (k : Uuid) :
    p.share k = if k = p.billId then p.amountVes else 0 := by
  simp [Payment.share, h, eq_comm]

/-- A payment that settles adds its amount to its bill. -/
theorem settled_of_settles {id : Uuid} (f : Payment → Payment) (hf : ∀ p, (f p).id = p.id)
    {old : Payment} (hold : s.payments.find? id = some old)
    (h : s'.payments = s.payments.update id f hf) (hbill : (f old).billId = old.billId)
    (hamount : (f old).amountVes = old.amountVes) (hbefore : old.status.counted = false)
    (hafter : (f old).status.counted) (k : Uuid) :
    s'.settled k = s.settled k + if k = old.billId then old.amountVes else 0 := by
  rw [settled_update f hf hold h, share_of_counted hafter, share_of_not_counted hbefore, hbill, hamount,
    sub_zero]

/-! ## What refines -/

/-- Nothing that an account is made of changes. -/
theorem Refines.frame (hbills : s'.bills = s.bills) (hset : ∀ k, s'.settled k = s.settled k)
    (hadj : s'.adjustments = s.adjustments) : Refines s s' := by
  have hacc : ∀ b, s'.account b = s.account b := fun b => by
    simp [Db.account, hset, Db.adjusted, hadj]
  intro hc
  refine ⟨fun b hb => ?_, fun b hb => ⟨b, hbills ▸ hb, rfl, by rw [hacc]⟩⟩
  rw [hset, hc b (hbills ▸ hb)]

/-- One bill changes, by steps of its account; `paid` and `forgiven` are what its two sums gain. -/
theorem Refines.update {id : Uuid} {f : Bill → Bill} {hf : ∀ b, (f b).id = b.id} {bill : Bill}
    (paid forgiven : Int) (hbill : s.bills.find? id = some bill)
    (hbills : s'.bills = s.bills.update id f hf)
    (hset : ∀ k, s'.settled k = s.settled k + if k = id then paid else 0)
    (hadj : ∀ k, s'.adjusted k = s.adjusted k + if k = id then forgiven else 0)
    (hpaid : (f bill).amountPaidVes = bill.amountPaidVes + paid)
    (hrun : s.Cached → Account.Run (s.account bill)
      ⟨(f bill).status, (f bill).totalDueVes, s.settled id + paid, s.adjusted id + forgiven⟩) :
    Refines s s' := by
  intro hc
  obtain ⟨hmem, hid⟩ := Table.find?_eq_some.mp hbill
  have hid : bill.id = id := hid
  have hrows : ∀ b' ∈ s'.bills, (b' = f bill) ∨ (b' ∈ s.bills ∧ b'.id ≠ id) := fun b' hb' => by
    rw [hbills] at hb'
    obtain ⟨b, hb, hb'eq⟩ := Table.mem_update.mp hb'
    by_cases hk : b.id = id
    · left
      rw [hb'eq, if_pos (show Keyed.key b = id from hk), Table.eq_of_key hb hmem (hk.trans hid.symm)]
    · right
      rw [if_neg (show Keyed.key b ≠ id from hk)] at hb'eq
      exact ⟨hb'eq ▸ hb, hb'eq ▸ hk⟩
  refine ⟨fun b' hb' => ?_, fun b' hb' => ?_⟩
  · rcases hrows b' hb' with rfl | ⟨hb, hne⟩
    · rw [hf, hid, hset, if_pos rfl, hpaid, hc bill hmem, hid]
    · rw [hset, if_neg hne, add_zero, hc b' hb]
  · rcases hrows b' hb' with rfl | ⟨hb, hne⟩
    · refine ⟨bill, hmem, (hf bill).symm, ?_⟩
      have : s'.account (f bill) = ⟨(f bill).status, (f bill).totalDueVes, s.settled id + paid,
          s.adjusted id + forgiven⟩ := by
        simp [Db.account, hf, hid, hset, hadj]
      rw [this]
      exact hrun hc
    · have : s'.account b' = s.account b' := by
        simp [Db.account, hset, hadj, hne]
      exact ⟨b', hb, rfl, by rw [this]⟩

variable {id : Uuid} {bill : Bill}

theorem adjusted_congr (h : s'.adjustments = s.adjustments) (k : Uuid) :
    s'.adjusted k = s.adjusted k := by
  unfold Db.adjusted
  rw [h]

/-- `applyToBill`, and the payment that comes with it. -/
theorem Refines.credit {amount : Int} (hbill : s.bills.find? id = some bill)
    (hopen : bill.status = .open) (hpos : 0 < amount)
    (hle : bill.amountPaidVes + amount ≤ bill.totalDueVes)
    (hbills : s'.bills = s.bills.update id (Bill.applied (bill.amountPaidVes + amount)
      (if bill.amountPaidVes + amount = bill.totalDueVes then .closed else .open)) fun _ => rfl)
    (hset : ∀ k, s'.settled k = s.settled k + if k = id then amount else 0)
    (hadj : s'.adjustments = s.adjustments) : Refines s s' := by
  refine .update amount 0 hbill hbills hset (fun k => by simp [adjusted_congr hadj]) rfl
    fun hc => ?_
  obtain ⟨hmem, hid⟩ := Table.find?_eq_some.mp hbill
  have hid : bill.id = id := hid
  have hcache : bill.amountPaidVes = s.settled id := by rw [hc bill hmem, hid]
  have hstep := Account.Step.credit (s.account bill) amount hpos hopen
    (by simpa only [Db.account, hid, ← hcache] using hle)
  refine .single ?_
  simpa only [Db.account, Bill.applied, hid, ← hcache, add_zero] using hstep

/-- `recalculateTotals`. -/
theorem Refines.reprice (f : Bill → Bill) (hf : ∀ b, (f b).id = b.id)
    (hbill : s.bills.find? id = some bill) (hopen : bill.status = .open)
    (hle : bill.amountPaidVes ≤ (f bill).totalDueVes) (hstatus : (f bill).status = bill.status)
    (hpaid : (f bill).amountPaidVes = bill.amountPaidVes)
    (hbills : s'.bills = s.bills.update id f hf) (hpay : s'.payments = s.payments)
    (hadj : s'.adjustments = s.adjustments) : Refines s s' := by
  refine .update 0 0 hbill hbills (fun k => by simp [settled_eq, hpay])
    (fun k => by simp [adjusted_congr hadj]) (by simpa using hpaid) fun hc => ?_
  obtain ⟨hmem, hid⟩ := Table.find?_eq_some.mp hbill
  have hid : bill.id = id := hid
  have hcache : bill.amountPaidVes = s.settled id := by rw [hc bill hmem, hid]
  have hstep := Account.Step.reprice (s.account bill) (f bill).totalDueVes hopen
    (by simpa only [Db.account, hid, ← hcache] using hle)
  refine .single ?_
  simpa only [Db.account, hid, hstatus, add_zero] using hstep

/-- `POST /settle`: what is not paid is written off, if it is anything. -/
theorem Refines.close (hbill : s.bills.find? id = some bill) (hopen : bill.status = .open)
    (hbills : s'.bills = s.bills.update id (fun b => { b with status := .closed }) fun _ => rfl)
    (hpay : s'.payments = s.payments)
    (hadj : ∀ k, s'.adjusted k = s.adjusted k +
      if k = id then bill.totalDueVes - bill.amountPaidVes else 0) : Refines s s' := by
  refine .update 0 (bill.totalDueVes - bill.amountPaidVes) hbill hbills
    (fun k => by simp [settled_eq, hpay]) hadj (by simp) fun hc => ?_
  obtain ⟨hmem, hid⟩ := Table.find?_eq_some.mp hbill
  have hid : bill.id = id := hid
  have hcache : bill.amountPaidVes = s.settled id := by rw [hc bill hmem, hid]
  refine .single ?_
  rw [add_zero, hcache]
  simpa only [Db.account, hid] using Account.Step.settle (s.account bill) hopen

/-- `POST /void`. -/
theorem Refines.cancel (hbill : s.bills.find? id = some bill) (hopen : bill.status = .open)
    (hzero : bill.amountPaidVes = 0)
    (hbills : s'.bills = s.bills.update id (fun b => { b with status := .void }) fun _ => rfl)
    (hpay : s'.payments = s.payments) (hadj : s'.adjustments = s.adjustments) : Refines s s' := by
  refine .update 0 0 hbill hbills (fun k => by simp [settled_eq, hpay])
    (fun k => by simp [adjusted_congr hadj]) (by simp) fun hc => ?_
  obtain ⟨hmem, hid⟩ := Table.find?_eq_some.mp hbill
  have hid : bill.id = id := hid
  have hstep := Account.Step.cancel (s.account bill) hopen (by
    show s.settled bill.id = 0
    rw [← hc bill hmem, hzero])
  refine .single ?_
  simpa only [Db.account, hid, add_zero] using hstep

/-! ## What a transaction does -/

/-- A charge that was raised and whose reply has not come. -/
def Payment.InFlight (p : Payment) : Prop :=
  p.status = .pending ∧ p.paymentMethod = .c2p ∧ p.provider = some .mercantil

/-- A transaction refines the accounts, leaves every charge in flight as it is, except for the one
that it is about, and makes no payment pending again. -/
structure Effect (own : Option Uuid) (s s' : Db) : Prop where
  refines : Refines s s'
  inFlight : ∀ p ∈ s.payments, p.InFlight → own ≠ some p.id → p ∈ s'.payments
  started : ∀ p ∈ s.payments, p.status ≠ .pending →
    ∃ p' ∈ s'.payments, p'.id = p.id ∧ p'.status ≠ .pending

variable {own : Option Uuid}

theorem Effect.refl (own : Option Uuid) (s : Db) : Effect own s s :=
  ⟨.refl s, fun _ hp _ _ => hp, fun p hp hne => ⟨p, hp, rfl, hne⟩⟩

theorem Effect.trans (h : Effect own s s') (h' : Effect own s' s'') : Effect own s s'' := by
  refine ⟨h.refines.trans h'.refines, fun p hp hfl hne => ?_, fun p hp hne => ?_⟩
  · exact h'.inFlight p (h.inFlight p hp hfl hne) hfl hne
  · obtain ⟨p', hp', hid, hne'⟩ := h.started p hp hne
    obtain ⟨p'', hp'', hid', hne''⟩ := h'.started p' hp' hne'
    exact ⟨p'', hp'', hid'.trans hid, hne''⟩

/-- None of the three tables of an account is written. -/
theorem Effect.of_frame (hbills : s'.bills = s.bills) (hpay : s'.payments = s.payments)
    (hadj : s'.adjustments = s.adjustments) : Effect own s s' :=
  ⟨.frame hbills (fun k => by rw [settled_eq, hpay, settled_eq]) hadj,
    fun _ hp _ _ => hpay ▸ hp, fun p hp hne => ⟨p, hpay ▸ hp, rfl, hne⟩⟩

/-- `payments` is not written. -/
theorem Effect.of_payments_eq (hr : Refines s s') (hpay : s'.payments = s.payments) :
    Effect own s s' :=
  ⟨hr, fun _ hp _ _ => hpay ▸ hp, fun p hp hne => ⟨p, hpay ▸ hp, rfl, hne⟩⟩

theorem Effect.of_insert {row : Payment} (hr : Refines s s')
    (hins : s.payments.insert? row = some s'.payments) : Effect own s s' :=
  ⟨hr, fun _ hp _ _ => (Table.mem_insert? hins).mpr (.inl hp),
    fun p hp hne => ⟨p, (Table.mem_insert? hins).mpr (.inl hp), rfl, hne⟩⟩

/-- One row is updated: it is not in flight, or it is the transaction's own; and it does not become
pending. -/
theorem Effect.of_update (f : Payment → Payment) (hf : ∀ p, (f p).id = p.id) {old : Payment}
    (hr : Refines s s') (hold : s.payments.find? id = some old)
    (hpay : s'.payments = s.payments.update id f hf) (hown : ¬old.InFlight ∨ own = some id)
    (hstatus : old.status ≠ .pending → (f old).status ≠ .pending) : Effect own s s' := by
  obtain ⟨hmem, hid⟩ := Table.find?_eq_some.mp hold
  have hrow : ∀ p ∈ s.payments, p.id = id → p = old := fun p hp hk =>
    Table.eq_of_key hp hmem (hk.trans hid.symm)
  have hkeep : ∀ p ∈ s.payments, p.id ≠ id → p ∈ s'.payments := fun p hp hk => by
    rw [hpay, Table.mem_update]
    exact ⟨p, hp, by rw [if_neg (show Keyed.key p ≠ id from hk)]⟩
  refine ⟨hr, fun p hp hfl hne => hkeep p hp fun hk => ?_, fun p hp hne => ?_⟩
  · rw [hrow p hp hk] at hfl
    rcases hown with hnot | rfl
    · exact hnot hfl
    · exact hne (congrArg some hk.symm)
  · by_cases hk : p.id = id
    · obtain rfl := hrow p hp hk
      refine ⟨f p, ?_, hf p, hstatus hne⟩
      rw [hpay, Table.mem_update]
      exact ⟨p, hp, by rw [if_pos (show Keyed.key p = id from hk)]⟩
    · exact ⟨p, hkeep p hp hk, rfl, hne⟩

/-! ## The three moves of a payment -/

section Moves

variable {restaurantId paymentId billId : Uuid} {p : Payment}

theorem InFlight.status {p : Payment} (h : p.InFlight) : p.status = .pending := h.1

/-- A move into a status that settles nothing. -/
theorem move_effect {toStatus : PaymentStatus} {reason : Option String} {mode : OnShareRefusal}
    {m : Moved} (hto : toStatus = .inDoubt ∨ toStatus = .ambiguous ∨ toStatus = .failed)
    (hp : s.payments.find? paymentId = some p) (hown : ¬p.InFlight ∨ own = some paymentId)
    (h : (transitionPayment restaurantId paymentId toStatus reason mode).run s = .ok m s') :
    Effect own s s' := by
  obtain ⟨current, hcur, ⟨-, rfl⟩ | ⟨hallow, detached, transitions, shares, rfl⟩⟩ :=
    transitionPayment_ok h
  · exact .refl own _
  obtain ⟨hfind, -⟩ := payment?_eq_some.mp hcur
  obtain rfl : p = current := Option.some.inj (hp.symm.trans hfind)
  have hbefore : p.status.counted = false := by
    rcases hto with rfl | rfl | rfl <;> revert hallow <;> cases p.status <;> decide
  have hafter : (p.moved toStatus detached).status.counted = false := by
    rcases hto with rfl | rfl | rfl <;> rfl
  refine .of_update (Payment.moved toStatus detached) (fun _ => rfl)
    (.frame rfl (fun k => ?_) rfl) hfind rfl hown fun _ => ?_
  · rw [settled_update (Payment.moved toStatus detached) (fun _ => rfl) hfind rfl,
      share_of_not_counted hbefore, share_of_not_counted hafter]
    simp
  · rcases hto with rfl | rfl | rfl <;> nofun

/-- The reference of a payment is written, and nothing else of it. -/
theorem setReference_effect {reference : Option String} {r : Option Payment}
    (hp : s.payments.find? paymentId = some p) (hown : ¬p.InFlight ∨ own = some paymentId)
    (h : (setReference restaurantId paymentId reference).run s = .ok r s') :
    Effect own s s' ∧ ∃ reference', s'.payments.find? paymentId = some (p.withReference reference') := by
  rcases updatePayment_ok h with ⟨-, -, rfl⟩ | ⟨old, hold, -, -, -, -, -, rfl⟩
  · exact ⟨.refl own _, p.providerPaymentId, hp⟩
  obtain ⟨hfind, -⟩ := payment?_eq_some.mp hold
  obtain rfl : p = old := Option.some.inj (hp.symm.trans hfind)
  refine ⟨.of_update (Payment.withReference reference) (fun _ => rfl)
    (.frame rfl (fun k => ?_) rfl) hfind rfl hown id, reference, ?_⟩
  · rw [settled_update (Payment.withReference reference) (fun _ => rfl) hfind rfl]
    have hshare : (p.withReference reference).share k = p.share k := rfl
    omega
  · exact Table.find?_update_self (Payment.withReference reference) (fun _ => rfl) hp

/-- `applyToBill`, and the move of the payment into `SUCCEEDED`. -/
theorem settle_effect {a : Applied} {s₁ : Db} {reason : Option String} {mode : OnShareRefusal}
    {m : Moved} (hp : s.payments.find? paymentId = some p) (hown : ¬p.InFlight ∨ own = some paymentId)
    (hstatus : p.status = .pending ∨ p.status = .inDoubt)
    (happly : (applyToBill restaurantId p.billId p.amountVes).run s = .ok a s₁)
    (hmove : (transitionPayment restaurantId paymentId .succeeded reason mode).run s₁ = .ok m s') :
    Effect own s s' := by
  obtain ⟨hbill, -, hopen, hle, rfl⟩ := applyToBill_ok happly
  obtain ⟨current, hcur, hcase⟩ := transitionPayment_ok hmove
  obtain ⟨hfind, -⟩ := payment?_eq_some.mp hcur
  obtain rfl : p = current := Option.some.inj (hp.symm.trans hfind)
  have hbefore : p.status.counted = false := by rcases hstatus with h | h <;> rw [h] <;> rfl
  rcases hcase with ⟨heq, -⟩ | ⟨-, detached, transitions, shares, rfl⟩
  · -- A payment that had settled already would be credited for nothing.
    rw [heq] at hbefore
    cases hbefore
  refine .of_update (Payment.moved .succeeded detached) (fun _ => rfl)
    (.credit (bill?_eq_some.mp hbill).1 hopen p.amount_pos hle rfl (fun k => ?_) rfl)
    hfind rfl hown nofun
  exact settled_of_settles (Payment.moved .succeeded detached) (fun _ => rfl) hp rfl rfl rfl hbefore
    rfl k

end Moves

end Splite
