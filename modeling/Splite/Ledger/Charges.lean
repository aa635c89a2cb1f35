import Splite.Ledger.C2P

/-!
# What the transactions of C2P do to charges

A charge is a payment that Mercantil was asked for. Every transaction of `services/mercantilC2P.js`
is either quiet, and then no charge settles, or settles one charge, under a reference that no other
charge carries.

* `Keeps`: charges stay charges, and a settled one stays as it is.
* `Quiet`, `Settles`: the two kinds of transactions.
* `settleApproved_settles`, `settleResolution_settles`: the two transactions that settle.
-/

namespace Splite

open Mercantil (Match Movement canonicalReference)

variable {s s' s'' : Db} {restaurantId paymentId : Uuid} {p : Payment}

/-- A payment that Mercantil is asked for. -/
def Payment.IsCharge (p : Payment) : Prop := p.paymentMethod = .c2p ∧ p.provider = some .mercantil

instance (p : Payment) : Decidable p.IsCharge := inferInstanceAs (Decidable (_ ∧ _))

theorem Payment.InFlight.isCharge (h : p.InFlight) : p.IsCharge := h.2

theorem Payment.InFlight.not_succeeded (h : p.InFlight) : p.status ≠ .succeeded := by
  rw [h.1]
  nofun

/-- Charges stay charges, a settled one stays as it is, and every row of `c2p_charges` is the row of
a charge. -/
structure Keeps (s s' : Db) : Prop where
  payments : ∀ p ∈ s.payments, p.IsCharge →
    ∃ p' ∈ s'.payments, p'.id = p.id ∧ p'.IsCharge ∧ (p.status = .succeeded → p' = p)
  charges : ∀ c' ∈ s'.charges, (∃ c ∈ s.charges, c.paymentId = c'.paymentId) ∨
    ∃ p' ∈ s'.payments, p'.id = c'.paymentId ∧ p'.IsCharge

/-- No payment settles. -/
structure Quiet (s s' : Db) : Prop extends Keeps s s' where
  settled : ∀ p' ∈ s'.payments, p'.status = .succeeded → p' ∈ s.payments

/-- One charge settles, under a reference, if there is one, that no other charge carries. -/
structure Settles (paymentId : Uuid) (reference : Option String) (s s' : Db) : Prop
    extends Keeps s s' where
  before : ∀ p ∈ s.payments, p.id = paymentId → p.status ≠ .succeeded
  after : ∃ p' ∈ s'.payments, p'.id = paymentId ∧ p'.IsCharge ∧ p'.status = .succeeded ∧
    (reference.isSome → p'.providerPaymentId = reference)
  settled : ∀ p' ∈ s'.payments, p'.status = .succeeded → p' ∈ s.payments ∨ p'.id = paymentId
  free : ∀ q ∈ s.payments, q.id ≠ paymentId → q.IsCharge → reference.isSome →
    q.providerPaymentId ≠ reference

theorem Keeps.refl (s : Db) : Keeps s s :=
  ⟨fun p hp hc => ⟨p, hp, rfl, hc, fun _ => rfl⟩, fun c hc => .inl ⟨c, hc, rfl⟩⟩

theorem Keeps.trans (h : Keeps s s') (h' : Keeps s' s'') : Keeps s s'' := by
  refine ⟨fun p hp hc => ?_, fun c'' hc'' => ?_⟩
  · obtain ⟨p', hp', hid, hc', hsame⟩ := h.payments p hp hc
    obtain ⟨p'', hp'', hid', hc'', hsame'⟩ := h'.payments p' hp' hc'
    refine ⟨p'', hp'', hid'.trans hid, hc'', fun hs => ?_⟩
    obtain rfl := hsame hs
    exact hsame' hs
  · rcases h'.charges c'' hc'' with ⟨c', hc', hid'⟩ | hp
    · rcases h.charges c' hc' with ⟨c, hc, hid⟩ | ⟨p', hp', hid, hc⟩
      · exact .inl ⟨c, hc, hid.trans hid'⟩
      · obtain ⟨p'', hp'', hid'', hc'', -⟩ := h'.payments p' hp' hc
        exact .inr ⟨p'', hp'', hid''.trans (hid.trans hid'), hc''⟩
    · exact .inr hp

theorem Quiet.refl (s : Db) : Quiet s s := ⟨.refl s, fun _ hp _ => hp⟩

theorem Quiet.trans (h : Quiet s s') (h' : Quiet s' s'') : Quiet s s'' :=
  ⟨h.toKeeps.trans h'.toKeeps, fun p hp hs => h.settled p (h'.settled p hp hs) hs⟩

/-- Neither of the two tables is written, but for the time of the last resolution. -/
theorem Quiet.of_frame (hpay : s'.payments = s.payments)
    (hcharges : ∀ c' ∈ s'.charges, ∃ c ∈ s.charges, c.paymentId = c'.paymentId) : Quiet s s' :=
  ⟨⟨fun p hp hc => ⟨p, hpay ▸ hp, rfl, hc, fun _ => rfl⟩, fun c' hc' => .inl (hcharges c' hc')⟩,
    fun _ hp _ => hpay ▸ hp⟩

/-! ## One payment is updated -/

section Update

variable (f : Payment → Payment) (hf : ∀ p, (f p).id = p.id)

theorem mem_update_of_ne {q : Payment} (hpay : s'.payments = s.payments.update paymentId f hf)
    (hq : q ∈ s.payments) (hne : q.id ≠ paymentId) : q ∈ s'.payments := by
  rw [hpay, Table.mem_update]
  exact ⟨q, hq, (if_neg (show Keyed.key q ≠ paymentId from hne)).symm⟩

theorem mem_of_mem_update {q : Payment} (hp : s.payments.find? paymentId = some p)
    (hpay : s'.payments = s.payments.update paymentId f hf) (hq : q ∈ s'.payments) :
    q ∈ s.payments ∨ q = f p := by
  rw [hpay, Table.mem_update] at hq
  obtain ⟨q₀, hq₀, rfl⟩ := hq
  split
  · rename_i hkey
    obtain ⟨hmem, hid⟩ := Table.find?_eq_some.mp hp
    obtain rfl := Table.eq_of_key hq₀ hmem (hkey.trans hid.symm)
    exact .inr rfl
  · exact .inl hq₀

theorem Keeps.of_update (hp : s.payments.find? paymentId = some p)
    (hpay : s'.payments = s.payments.update paymentId f hf) (hcharges : s'.charges = s.charges)
    (hstatus : p.status ≠ .succeeded) (hcharge : p.IsCharge → (f p).IsCharge) : Keeps s s' := by
  refine ⟨fun q hq hc => ?_, fun c' hc' => .inl ⟨c', hcharges ▸ hc', rfl⟩⟩
  by_cases hid : q.id = paymentId
  · obtain rfl : q = p :=
      Table.eq_of_key hq (Table.find?_mem hp) (hid.trans (Table.find?_key hp).symm)
    refine ⟨f q, ?_, hf q, hcharge hc, fun hs => absurd hs hstatus⟩
    rw [hpay, Table.mem_update]
    exact ⟨q, hq, (if_pos (show Keyed.key q = paymentId from hid)).symm⟩
  · exact ⟨q, mem_update_of_ne f hf hpay hq hid, rfl, hc, fun _ => rfl⟩

theorem Quiet.of_update (hp : s.payments.find? paymentId = some p)
    (hpay : s'.payments = s.payments.update paymentId f hf) (hcharges : s'.charges = s.charges)
    (hstatus : p.status ≠ .succeeded) (hafter : (f p).status ≠ .succeeded)
    (hcharge : p.IsCharge → (f p).IsCharge) : Quiet s s' := by
  refine ⟨.of_update f hf hp hpay hcharges hstatus hcharge, fun q hq hs => ?_⟩
  rcases mem_of_mem_update f hf hp hpay hq with hq | rfl
  · exact hq
  · exact absurd hs hafter

end Update

/-! ## The statements -/

theorem touchCharge_quiet {now : Time} {u : Unit}
    (h : (touchCharge paymentId now).run s = .ok u s') :
    Quiet s s' ∧ s'.payments = s.payments ∧ s'.bills = s.bills := by
  obtain ⟨-, rfl⟩ := by simpa [touchCharge] using h
  refine ⟨.of_frame rfl fun c' hc' => ?_, rfl, rfl⟩
  obtain ⟨c, hc, rfl⟩ := List.mem_map.mp hc'
  refine ⟨c, hc, ?_⟩
  split <;> rfl

/-- A reference that is written belongs to no other payment of the provider. -/
theorem free_of_paymentClash {q : Payment} (h : s.paymentClash p = none) (hq : q ∈ s.payments)
    (hne : q.id ≠ p.id) (hprovider : p.provider = q.provider)
    (hsome : p.providerPaymentId.isSome) : q.providerPaymentId ≠ p.providerPaymentId := by
  have hclash := List.findSome?_eq_none_iff.mp h q hq
  rw [if_neg hne] at hclash
  unfold Payment.clash at hclash
  intro heq
  by_cases hkey : p.idempotencyKey.isSome ∧ p.restaurantId = q.restaurantId ∧
      p.idempotencyKey = q.idempotencyKey
  · rw [if_pos hkey] at hclash
    cases hclash
  · rw [if_neg hkey, if_pos ⟨hsome, hprovider, heq.symm⟩] at hclash
    cases hclash

/-- A row that is found for its restaurant takes the reference, when no other charge has it. -/
theorem setReference_quiet {reference : Option String} {r : Option Payment}
    (hp : s.payments.find? paymentId = some p) (hstatus : p.status ≠ .succeeded)
    (h : (setReference restaurantId paymentId reference).run s = .ok r s') :
    (p.restaurantId ≠ restaurantId ∧ s' = s) ∨
    (s'.payments.find? paymentId = some (p.withReference reference) ∧ Quiet s s' ∧
      s'.bills = s.bills ∧
      ∀ q ∈ s.payments, q.id ≠ paymentId → p.IsCharge → q.IsCharge → reference.isSome →
        q.providerPaymentId ≠ reference) := by
  rcases updatePayment_ok h with ⟨hnone, -, rfl⟩ | ⟨old, hold, -, -, -, -, hclash, rfl⟩
  · refine .inl ⟨fun hr => ?_, rfl⟩
    simp [Db.payment?, hp, hr] at hnone
  · obtain ⟨hfind, -⟩ := payment?_eq_some.mp hold
    obtain rfl : p = old := Option.some.inj (hp.symm.trans hfind)
    have hid : p.id = paymentId := Table.find?_key hp
    refine .inr ⟨Table.find?_update_self (Payment.withReference reference) (fun _ => rfl) hp,
      .of_update (Payment.withReference reference) (fun _ => rfl) hp rfl rfl hstatus hstatus id,
      rfl, fun q hq hne hcharge hcharge' hsome => ?_⟩
    exact free_of_paymentClash hclash hq (hne.trans_eq hid.symm)
      (hcharge.2.trans hcharge'.2.symm) hsome

theorem writeReference_quiet {reference : Option String} {u : Unit}
    (hp : s.payments.find? paymentId = some p) (hstatus : p.status ≠ .succeeded)
    (h : (writeReference restaurantId paymentId reference).run s = .ok u s') :
    (p.restaurantId ≠ restaurantId ∧ s' = s) ∨
    ∃ reference', s'.payments.find? paymentId = some (p.withReference reference') ∧ Quiet s s' ∧
      s'.bills = s.bills ∧ (reference.isSome → reference' = reference) ∧
      ∀ q ∈ s.payments, q.id ≠ paymentId → p.IsCharge → q.IsCharge → reference.isSome →
        q.providerPaymentId ≠ reference := by
  unfold writeReference at h
  split at h
  · simp only [Tx.bind_ok, Tx.pure_ok] at h
    obtain ⟨_, _, hset, -, rfl⟩ := h
    rcases setReference_quiet hp hstatus hset with hno | ⟨hp', hquiet, hbills, hfree⟩
    · exact .inl hno
    · exact .inr ⟨_, hp', hquiet, hbills, fun _ => rfl, hfree⟩
  · obtain ⟨-, rfl⟩ := Tx.pure_ok.mp h
    exact .inr ⟨p.providerPaymentId, hp, .refl _, rfl, nofun, fun _ _ _ _ _ hsome => by
      simp at hsome⟩

/-- A move into a status that settles nothing: the payment had not settled. -/
theorem move_quiet {toStatus : PaymentStatus} {reason : Option String} {mode : OnShareRefusal}
    {m : Moved} (hto : toStatus = .inDoubt ∨ toStatus = .ambiguous ∨ toStatus = .failed)
    (h : (transitionPayment restaurantId paymentId toStatus reason mode).run s = .ok m s') :
    Quiet s s' ∧ ∃ p, s.payments.find? paymentId = some p ∧ p.restaurantId = restaurantId ∧
      p.status ≠ .succeeded := by
  obtain ⟨current, hcur, hcase⟩ := transitionPayment_ok h
  obtain ⟨hfind, hrest⟩ := payment?_eq_some.mp hcur
  rcases hcase with ⟨hsame, rfl⟩ | ⟨hallow, detached, transitions, shares, rfl⟩
  · refine ⟨.refl _, current, hfind, hrest, ?_⟩
    rw [hsame]
    rcases hto with rfl | rfl | rfl <;> nofun
  · have hbefore : current.status ≠ .succeeded := by
      intro hs
      rw [hs] at hallow
      rcases hto with rfl | rfl | rfl <;> revert hallow <;> decide
    have hafter : toStatus ≠ .succeeded := by rcases hto with rfl | rfl | rfl <;> nofun
    exact ⟨.of_update (Payment.moved toStatus detached) (fun _ => rfl) hfind rfl rfl hbefore hafter id,
      current, hfind, hrest, hbefore⟩

/-! ## The transactions -/

theorem moveTo_quiet {toStatus : PaymentStatus} {reason : String} {m : Moved}
    (hto : toStatus = .inDoubt ∨ toStatus = .ambiguous ∨ toStatus = .failed)
    (h : (moveTo restaurantId paymentId toStatus reason).run s = .ok m s') : Quiet s s' :=
  (move_quiet hto (Tx.withTransaction_ok.mp h)).1

/-- A bill takes a payment of this amount. -/
def Db.Takes (s : Db) (restaurantId billId : Uuid) (amount : Int) : Prop :=
  ∃ bill ∈ s.bill? restaurantId billId, bill.status = .open ∧
    bill.amountPaidVes + amount ≤ bill.totalDueVes

instance (s : Db) (restaurantId billId : Uuid) (amount : Int) :
    Decidable (s.Takes restaurantId billId amount) :=
  match h : s.bill? restaurantId billId with
  | some bill => decidable_of_iff
      (bill.status = .open ∧ bill.amountPaidVes + amount ≤ bill.totalDueVes)
      ⟨fun hb => ⟨bill, h, hb⟩, fun ⟨_, hm, hb⟩ => Option.some.inj (h.symm.trans hm) ▸ hb⟩
  | none => isFalse fun ⟨_, hm, _⟩ => by simp [h] at hm

/-- The reference, the credit and the move of a payment, which both transactions that settle share:
the row took the reference only if it is the restaurant's, and without it nothing would move. -/
theorem settle_settles {reference reference' : Option String} {s₁ s₂ : Db} {a : Applied}
    {billId : Uuid} {amount : Int} {reason : Option String} {m : Moved}
    (hcharge : p.IsCharge) (hid : p.id = paymentId) (hp : s.payments.find? paymentId = some p)
    (hstatus : p.status ≠ .succeeded)
    (hp₁ : s₁.payments.find? paymentId = some (p.withReference reference')) (hquiet : Quiet s s₁)
    (hsome : reference.isSome → reference' = reference)
    (hfree : ∀ q ∈ s.payments, q.id ≠ paymentId → p.IsCharge → q.IsCharge → reference.isSome →
      q.providerPaymentId ≠ reference)
    (happly : (applyToBill restaurantId billId amount).run s₁ = .ok a s₂)
    (hmove : (transitionPayment restaurantId paymentId .succeeded reason).run s₂ = .ok m s') :
    Settles paymentId reference s s' ∧ s₁.Takes restaurantId billId amount := by
  obtain ⟨hbill, -, hopen, hle, rfl⟩ := applyToBill_ok happly
  obtain ⟨current, hcur, hcase⟩ := transitionPayment_ok hmove
  obtain ⟨hfind, -⟩ := payment?_eq_some.mp hcur
  obtain rfl : p.withReference reference' = current := Option.some.inj (hp₁.symm.trans hfind)
  refine ⟨?_, a.bill, hbill, hopen, hle⟩
  rcases hcase with ⟨heq, -⟩ | ⟨-, detached, transitions, shares, rfl⟩
  · exact absurd heq hstatus
  have hfind' := Table.find?_update_self (Payment.moved .succeeded detached) (fun _ => rfl) hp₁
  refine ⟨hquiet.toKeeps.trans (.of_update (Payment.moved .succeeded detached) (fun _ => rfl) hp₁
    rfl rfl hstatus id), fun q hq hq' => ?_, ⟨_, Table.find?_mem hfind', hid, hcharge, rfl, hsome⟩,
    fun q hq hs => ?_, fun q hq hne hc => hfree q hq hne hcharge hc⟩
  · obtain rfl : q = p := Table.eq_of_key hq (Table.find?_mem hp) (hq'.trans hid.symm)
    exact hstatus
  · rcases mem_of_mem_update (Payment.moved .succeeded detached) (fun _ => rfl) hp₁ rfl hq with
      hq | rfl
    · exact .inl (hquiet.settled q hq hs)
    · exact .inr hid

/-- An approval settles its charge, under its reference, when the bill takes the amount. -/
theorem settleApproved_settles {reference : Option String} {billId : Uuid} {amount : Int}
    {now : Time} {v : SettlementView} (hp : s.payments.find? paymentId = some p)
    (hcharge : p.IsCharge) (hstatus : p.status ≠ .succeeded)
    (h : (settleApproved restaurantId billId paymentId amount reference now).run s = .ok v s') :
    Settles paymentId reference s s' ∧ s.Takes restaurantId billId amount := by
  unfold settleApproved at h
  simp only [Tx.withTransaction_ok, Tx.bind_ok, Tx.pure_ok] at h
  obtain ⟨_, s₁, href, applied, s₂, happly, _, s₃, hmove, _, s₄, htouch, -, rfl⟩ := h
  have hid : p.id = paymentId := Table.find?_key hp
  obtain ⟨htouched, hpay, -⟩ := touchCharge_quiet htouch
  rcases writeReference_quiet hp hstatus href with ⟨hrest, rfl⟩ |
    ⟨reference', hp₁, hquiet, hbills, hsome, hfree⟩
  · -- Another restaurant's payment would not have moved.
    obtain ⟨-, -, -, -, rfl⟩ := applyToBill_ok happly
    obtain ⟨current, hcur, -⟩ := transitionPayment_ok hmove
    obtain ⟨hfind, hrest'⟩ := payment?_eq_some.mp hcur
    obtain rfl : p = current := Option.some.inj (hp.symm.trans hfind)
    exact absurd hrest' hrest
  · obtain ⟨hset, bill, hbill, htakes⟩ :=
      settle_settles hcharge hid hp hstatus hp₁ hquiet hsome hfree happly hmove
    refine ⟨⟨hset.toKeeps.trans htouched.toKeeps, hset.before, ?_, ?_, hset.free⟩, bill, ?_, htakes⟩
    · rw [hpay]
      exact hset.after
    · rw [hpay]
      exact hset.settled
    · simpa [Db.bill?, hbills] using hbill

theorem logParked_quiet {parking : Parking} {now : Time} {u : Unit}
    (h : (logParked restaurantId paymentId parking now).run s = .ok u s') : Quiet s s' := by
  unfold logParked at h
  split at h
  · simp only [Tx.bind_ok, logAttempt, Tx.run_modify] at h
    obtain ⟨_, s₁, htouch, ⟨-, rfl⟩⟩ := h
    exact (touchCharge_quiet htouch).1.trans (.of_frame rfl fun c hc => ⟨c, hc, rfl⟩)
  · obtain ⟨-, rfl⟩ := Tx.pure_ok.mp h
    exact .refl _

theorem parkUnappliable_quiet {parking : Parking} {now : Time} {u : Unit}
    (hp : s.payments.find? paymentId = some p)
    (h : (parkUnappliable restaurantId paymentId parking now).run s = .ok u s') : Quiet s s' := by
  unfold parkUnappliable at h
  simp only [Tx.withTransaction_ok, Tx.bind_ok] at h
  obtain ⟨_, s₁, href, _, s₂, hmove, hlog⟩ := h
  obtain ⟨-, reference', hp₁⟩ := writeReference_effect hp (.inr rfl) href
  obtain ⟨hmoved, current, hfind, -, hstatus⟩ := move_quiet (.inr (.inl rfl)) hmove
  -- The reference was written while the payment had not settled, or it would not move now.
  obtain rfl : p.withReference reference' = current := Option.some.inj (hp₁.symm.trans hfind)
  rcases writeReference_quiet hp hstatus href with ⟨-, rfl⟩ | ⟨-, -, hquiet, -⟩
  · exact hmoved.trans (logParked_quiet hlog)
  · exact (hquiet.trans hmoved).trans (logParked_quiet hlog)

theorem expireResolution_quiet {c : ChargeSnapshot} {now : Time} {actorUserId : Option Uuid}
    {u : Unit} (h : (expireResolution c now actorUserId).run s = .ok u s') : Quiet s s' := by
  unfold expireResolution at h
  simp only [Tx.withTransaction_ok, Tx.bind_ok, logAttempt, Tx.run_modify] at h
  obtain ⟨_, s₁, htouch, _, s₂, hmove, ⟨-, rfl⟩⟩ := h
  exact ((touchCharge_quiet htouch).1.trans (move_quiet (.inr (.inl rfl)) hmove).1).trans
    (.of_frame rfl fun c hc => ⟨c, hc, rfl⟩)

/-- A resolution settles its charge under the reference of the movement that it was matched to, when
the bill takes the amount; otherwise it is quiet. -/
theorem settleResolution_settles {c : ChargeSnapshot} {found : Match} {askedAt now : Time}
    {actorUserId : Option Uuid} {r : Resolution} (hp : s.payments.find? c.paymentId = some p)
    (hcharge : p.IsCharge)
    (h : (settleResolution c found askedAt now actorUserId).run s = .ok r s') :
    Quiet s s' ∨ ∃ movement, found = .matched movement ∧ p.status = .inDoubt ∧
      Settles c.paymentId (canonicalReference movement.reference) s s' ∧
      s.Takes c.restaurantId p.billId p.amountVes := by
  unfold settleResolution at h
  simp only [Tx.withTransaction_ok, Tx.bind_ok, Tx.run_get, Tx.orThrow_ok] at h
  obtain ⟨_, _, ⟨rfl, rfl⟩, locked, s₀, ⟨hlocked, rfl⟩, h⟩ := h
  obtain ⟨hfind, hrest⟩ := payment?_eq_some.mp hlocked
  obtain rfl : p = locked := Option.some.inj (hp.symm.trans hfind)
  have hid : p.id = c.paymentId := Table.find?_key hp
  split at h
  · simp only [Tx.bind_ok, logAttempt, Tx.run_modify, Tx.pure_ok] at h
    obtain ⟨_, _, ⟨-, rfl⟩, -, rfl⟩ := h
    exact .inl (.of_frame rfl fun c hc => ⟨c, hc, rfl⟩)
  rename_i hdoubt
  have hdoubt : p.status = .inDoubt := not_not.mp hdoubt
  have hstatus : p.status ≠ .succeeded := by simp [hdoubt]
  rw [Tx.bind_ok] at h
  obtain ⟨_, s₁, htouch, h⟩ := h
  obtain ⟨htouched, hpay, hbills⟩ := touchCharge_quiet htouch
  have hp₁ : s₁.payments.find? c.paymentId = some p := by rw [hpay, hp]
  cases found with
  | matched movement =>
    right
    simp only [Tx.bind_ok, logAttempt, Tx.run_modify, Tx.pure_ok] at h
    obtain ⟨_, s₂, href, applied, s₃, happly, _, s₄, hmove, _, _, ⟨-, rfl⟩, -, rfl⟩ := h
    rcases setReference_quiet hp₁ hstatus href with ⟨hrest', -⟩ | ⟨hp₂, hquiet, hbills', hfree⟩
    · exact absurd hrest hrest'
    obtain ⟨hset, bill, hbill, htakes⟩ := settle_settles hcharge hid hp hstatus hp₂
      (htouched.trans hquiet) (fun _ => rfl) (fun q hq => hfree q (hpay ▸ hq)) happly hmove
    refine ⟨movement, rfl, hdoubt, ⟨⟨hset.payments, hset.charges⟩, hset.before, hset.after,
      hset.settled, hset.free⟩, bill, ?_, htakes⟩
    simpa [Db.bill?, hbills, hbills'] using hbill
  | ambiguous candidates reason =>
    simp only [Tx.bind_ok, logAttempt, Tx.run_modify, Tx.pure_ok] at h
    obtain ⟨_, s₂, hmove, _, _, ⟨-, rfl⟩, -, rfl⟩ := h
    exact .inl ((htouched.trans (move_quiet (.inr (.inl rfl)) hmove).1).trans
      (.of_frame rfl fun c hc => ⟨c, hc, rfl⟩))
  | noMatch =>
    dsimp only at h
    split at h
    · simp only [Tx.bind_ok, logAttempt, Tx.run_modify, Tx.pure_ok] at h
      obtain ⟨_, _, ⟨-, rfl⟩, -, rfl⟩ := h
      exact .inl (htouched.trans (.of_frame rfl fun c hc => ⟨c, hc, rfl⟩))
    · simp only [Tx.bind_ok, logAttempt, Tx.run_modify, Tx.pure_ok] at h
      obtain ⟨_, s₂, hmove, _, _, ⟨-, rfl⟩, -, rfl⟩ := h
      exact .inl ((htouched.trans (move_quiet (.inr (.inr rfl)) hmove).1).trans
        (.of_frame rfl fun c hc => ⟨c, hc, rfl⟩))

/-- A new charge has not settled. -/
theorem submitCharge_quiet {now : Time} {r : ChargeRequest} {row : Payment}
    (h : (submitCharge paymentId now r).run s = .ok row s') : Quiet s s' := by
  unfold submitCharge at h
  simp only [Tx.bind_ok, Tx.orThrow_ok, Tx.withTransaction_ok, Tx.pure_ok] at h
  obtain ⟨amount, _, ⟨-, rfl⟩, tip, _, ⟨-, rfl⟩, bill, s₁, hlock, created, s₂, hrec, _, s₃, hins, rfl,
    rfl⟩ := h
  obtain ⟨-, -, -, rfl⟩ := lockPayableBill_ok hlock
  obtain ⟨hrow, -, payments, transitions, shares, hpay, rfl⟩ := recordPayment_ok hrec
  obtain ⟨charges, hcharges, rfl⟩ := insertCharge_ok hins
  have hcreated : row ∈ payments := (Table.mem_insert? hpay).mpr (.inr rfl)
  refine ⟨⟨fun q hq hc => ⟨q, (Table.mem_insert? hpay).mpr (.inl hq), rfl, hc, fun _ => rfl⟩,
    fun c hc => ?_⟩, fun q hq hs => ?_⟩
  · rcases (Table.mem_insert? hcharges).mp hc with hc | rfl
    · exact .inl ⟨c, hc, rfl⟩
    · exact .inr ⟨row, hcreated, rfl, hrow.paymentMethod, hrow.provider⟩
  · rcases (Table.mem_insert? hpay).mp hq with hq | rfl
    · exact hq
    · rw [hrow.status] at hs
      cases hs

theorem readCharge_charge {c : ChargeSnapshot}
    (h : (readCharge restaurantId paymentId).run s = .ok c s') :
    ∃ charge ∈ s.charges, charge.paymentId = c.paymentId := by
  unfold readCharge at h
  simp only [Tx.bind_ok, Tx.run_get, Tx.orThrow_ok, Tx.pure_ok] at h
  obtain ⟨_, _, ⟨rfl, rfl⟩, p, _, ⟨hp, rfl⟩, charge, _, ⟨hcharge, rfl⟩, rfl, rfl⟩ := h
  exact ⟨charge, Table.find?_mem hcharge, Table.find?_key hcharge⟩

end Splite
