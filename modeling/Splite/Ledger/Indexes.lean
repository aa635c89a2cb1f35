import Splite.Ledger.Charges
import Splite.Ledger.Steady

/-!
# What the unique indexes of `payments` let through

No two payments collide on an index, whatever the ledger does, so a move of a payment that its
status allows is never refused for the sake of another one.

* `Db.Unclashed`, `Traced`: no two rows collide; no payment or charge is lost, and a payment moves
  only to one of `OUTCOMES`.
* `ledger_traced`: every transaction is traced.
* `transitionPayment_commits`, `setReference_commits`: the writes of an outcome go through.
-/

namespace Splite

variable {s s' s'' : Db} {restaurantId billId paymentId : Uuid} {p q : Payment}

/-- No two payments collide on a unique index. -/
def Db.Unclashed (s : Db) : Prop :=
  ∀ p ∈ s.payments, ∀ q ∈ s.payments, q.id ≠ p.id → p.clash q = none

instance (s : Db) : Decidable s.Unclashed :=
  inferInstanceAs (Decidable (∀ p ∈ s.payments.rows, ∀ q ∈ s.payments.rows,
    q.id ≠ p.id → p.clash q = none))

theorem paymentClash_eq_none :
    s.paymentClash p = none ↔ ∀ q ∈ s.payments, q.id ≠ p.id → p.clash q = none := by
  unfold Db.paymentClash
  rw [List.findSome?_eq_none_iff]
  constructor
  · intro h q hq hne
    have hclash := h q hq
    rwa [if_neg hne] at hclash
  · intro h q hq
    by_cases hid : q.id = p.id
    · rw [if_pos hid]
    · rw [if_neg hid]
      exact h q hq hid

theorem clash_eq_none : p.clash q = none ↔
    ¬(p.idempotencyKey.isSome ∧ p.restaurantId = q.restaurantId ∧
      p.idempotencyKey = q.idempotencyKey) ∧
    ¬(p.providerPaymentId.isSome ∧ p.provider = q.provider ∧
      p.providerPaymentId = q.providerPaymentId) ∧
    ¬(p.declaredReference.isSome ∧ p.restaurantId = q.restaurantId ∧
      p.declaredReference = q.declaredReference ∧
      p.status ∉ [.failed, .cancelled] ∧ q.status ∉ [.failed, .cancelled]) := by
  unfold Payment.clash
  split_ifs with h₁ h₂ h₃
  · exact ⟨nofun, fun h => absurd h₁ h.1⟩
  · exact ⟨nofun, fun h => absurd h₂ h.2.1⟩
  · exact ⟨nofun, fun h => absurd h₃ h.2.2⟩
  · exact ⟨fun _ => ⟨h₁, h₂, h₃⟩, fun _ => rfl⟩

theorem clash_symm (h : p.clash q = none) : q.clash p = none := by
  obtain ⟨h₁, h₂, h₃⟩ := clash_eq_none.mp h
  refine clash_eq_none.mpr ⟨fun hc => h₁ ?_, fun hc => h₂ ?_, fun hc => h₃ ?_⟩
  · exact ⟨hc.2.2 ▸ hc.1, hc.2.1.symm, hc.2.2.symm⟩
  · exact ⟨hc.2.2 ▸ hc.1, hc.2.1.symm, hc.2.2.symm⟩
  · exact ⟨hc.2.2.1 ▸ hc.1, hc.2.1.symm, hc.2.2.1.symm, hc.2.2.2.2, hc.2.2.2.1⟩

/-- A payment that may move holds its references already, so it does not collide when it does. -/
theorem clash_moved {toStatus : PaymentStatus} (detached : Bool)
    (hallow : toStatus ∈ p.status.ALLOWED_TRANSITIONS) (h : p.clash q = none) :
    (p.moved toStatus detached).clash q = none := by
  obtain ⟨h₁, h₂, h₃⟩ := clash_eq_none.mp h
  have hlive : p.status ∉ [PaymentStatus.failed, .cancelled] := by
    revert hallow
    cases p.status <;> simp [PaymentStatus.ALLOWED_TRANSITIONS]
  exact clash_eq_none.mpr ⟨h₁, h₂, fun hc => h₃ ⟨hc.1, hc.2.1, hc.2.2.1, hlive, hc.2.2.2.2⟩⟩

/-- A reference that no other payment of the provider carries collides with none. -/
theorem clash_withReference {reference : Option String} (h : p.clash q = none)
    (hfree : reference.isSome → p.provider = q.provider → reference ≠ q.providerPaymentId) :
    (p.withReference reference).clash q = none := by
  obtain ⟨h₁, -, h₃⟩ := clash_eq_none.mp h
  exact clash_eq_none.mpr ⟨h₁, fun hc => hfree hc.1 hc.2.1 hc.2.2, h₃⟩

theorem Db.Unclashed.of_insert {row : Payment} (h : s.Unclashed)
    (hins : s.payments.insert? row = some s'.payments) (hclash : s.paymentClash row = none) :
    s'.Unclashed := by
  intro p hp q hq hne
  rcases (Table.mem_insert? hins).mp hp with hp | rfl
  · rcases (Table.mem_insert? hins).mp hq with hq | rfl
    · exact h p hp q hq hne
    · exact clash_symm (paymentClash_eq_none.mp hclash p hp (Ne.symm hne))
  · rcases (Table.mem_insert? hins).mp hq with hq | rfl
    · exact paymentClash_eq_none.mp hclash q hq hne
    · exact absurd rfl hne

theorem Db.Unclashed.of_update (h : s.Unclashed) (f : Payment → Payment)
    (hf : ∀ p, (f p).id = p.id) (hp : s.payments.find? paymentId = some p)
    (hpay : s'.payments = s.payments.update paymentId f hf)
    (hclash : ∀ q ∈ s.payments, q.id ≠ p.id → (f p).clash q = none) : s'.Unclashed := by
  have hid : p.id = paymentId := Table.find?_key hp
  have hrows : ∀ r ∈ s'.payments, r = f p ∨ (r ∈ s.payments ∧ r.id ≠ p.id) := by
    intro r hr
    rw [hpay] at hr
    rw [hid]
    exact (Table.mem_update_of_find f hf hp).mp hr
  intro a ha b hb hne
  rcases hrows a ha with rfl | ⟨ha, hane⟩
  · rcases hrows b hb with rfl | ⟨hb, hbne⟩
    · exact absurd rfl hne
    · exact hclash b hb hbne
  · rcases hrows b hb with rfl | ⟨hb, -⟩
    · exact clash_symm (hclash a ha hane)
    · exact h a ha b hb hne

/-! ## What the ledger keeps -/

/-- No payment and no charge is lost, a payment keeps its idempotency key and moves only to an outcome,
and no two payments come to collide. -/
structure Traced (s s' : Db) : Prop where
  unclashed : s.Unclashed → s'.Unclashed
  payments : ∀ p ∈ s.payments, ∃ p' ∈ s'.payments, p'.id = p.id ∧
    p'.restaurantId = p.restaurantId ∧ p'.provider = p.provider ∧
    p'.idempotencyKey = p.idempotencyKey ∧ (p'.status = p.status ∨ p'.status ∈ OUTCOMES)
  charges : s.charges.rows.map C2PCharge.paymentId ⊆ s'.charges.rows.map C2PCharge.paymentId

theorem Traced.of_payments (hpay : s'.payments = s.payments)
    (hcharges : s.charges.rows.map C2PCharge.paymentId ⊆ s'.charges.rows.map C2PCharge.paymentId) :
    Traced s s' := by
  refine ⟨fun h => ?_, fun p hp => ⟨p, hpay ▸ hp, rfl, rfl, rfl, rfl, .inl rfl⟩, hcharges⟩
  unfold Db.Unclashed
  rw [hpay]
  exact h

instance : Std.Refl Traced := ⟨fun _ => .of_payments rfl (List.Subset.refl _)⟩

instance : IsTrans Db Traced := ⟨fun s s' s'' h h' => by
  refine ⟨fun hs => h'.unclashed (h.unclashed hs), fun p hp => ?_, List.Subset.trans h.charges h'.charges⟩
  obtain ⟨p', hp', hid, hrest, hprov, hkey, hstatus⟩ := h.payments p hp
  obtain ⟨p'', hp'', hid', hrest', hprov', hkey', hstatus'⟩ := h'.payments p' hp'
  refine ⟨p'', hp'', hid'.trans hid, hrest'.trans hrest, hprov'.trans hprov, hkey'.trans hkey, ?_⟩
  rcases hstatus' with hsame | hmoved
  · rw [hsame]
    exact hstatus
  · exact .inr hmoved⟩

theorem Traced.of_update (f : Payment → Payment) (hf : ∀ p, (f p).id = p.id)
    (hp : s.payments.find? paymentId = some p)
    (hpay : s'.payments = s.payments.update paymentId f hf) (hcharges : s'.charges = s.charges)
    (hrest : (f p).restaurantId = p.restaurantId) (hprov : (f p).provider = p.provider)
    (hkey : (f p).idempotencyKey = p.idempotencyKey)
    (hstatus : (f p).status = p.status ∨ (f p).status ∈ OUTCOMES)
    (hclash : s.Unclashed → ∀ q ∈ s.payments, q.id ≠ p.id → (f p).clash q = none) :
    Traced s s' := by
  refine ⟨fun h => h.of_update f hf hp hpay (hclash h), fun q hq => ?_, hcharges ▸ List.Subset.refl _⟩
  have hmem : ∀ r, r ∈ s'.payments ↔ r = f p ∨ (r ∈ s.payments ∧ r.id ≠ paymentId) := fun r => by
    rw [hpay]
    exact Table.mem_update_of_find f hf hp
  by_cases hid : q.id = paymentId
  · obtain rfl : q = p :=
      Table.eq_of_key hq (Table.find?_mem hp) (hid.trans (Table.find?_key hp).symm)
    exact ⟨f q, (hmem _).mpr (.inl rfl), hf q, hrest, hprov, hkey, hstatus⟩
  · exact ⟨q, (hmem q).mpr (.inr ⟨hq, hid⟩), rfl, rfl, rfl, rfl, .inl rfl⟩

theorem traced_transitionPayment {toStatus : PaymentStatus} {reason : Option String}
    {mode : OnShareRefusal} (hto : toStatus ∈ OUTCOMES) :
    Tx.Keeps Traced (transitionPayment restaurantId paymentId toStatus reason mode) := by
  intro s m s' hrun
  obtain ⟨current, hcur, ⟨-, rfl⟩ | ⟨hallow, detached, transitions, shares, rfl⟩⟩ :=
    transitionPayment_ok hrun
  · exact refl_of Traced _
  · obtain ⟨hfind, -⟩ := payment?_eq_some.mp hcur
    exact .of_update (Payment.moved toStatus detached) (fun _ => rfl) hfind rfl rfl rfl rfl rfl (.inr hto)
      fun h q hq hne => clash_moved detached hallow (h current (Table.find?_mem hfind) q hq hne)

theorem statements_traced : StatementsKeep Traced where
  frame _ _ h := .of_payments h.payments h.charges
  recordPayment _ _ _ _ s row s' hrun := by
    obtain ⟨-, hclash, payments, transitions, shares, hins, rfl⟩ := recordPayment_ok hrun
    exact ⟨fun h => h.of_insert hins hclash,
      fun p hp => ⟨p, (Table.mem_insert? hins).mpr (.inl hp), rfl, rfl, rfl, rfl, .inl rfl⟩,
      List.Subset.refl _⟩
  transitionPayment _ _ _ _ hto := traced_transitionPayment hto
  setReference _ _ reference s r s' hrun := by
    rcases updatePayment_ok hrun with ⟨-, -, rfl⟩ | ⟨old, hold, -, -, -, -, hclash, rfl⟩
    · exact refl_of Traced _
    · obtain ⟨hfind, -⟩ := payment?_eq_some.mp hold
      exact .of_update (Payment.withReference reference) (fun _ => rfl) hfind rfl rfl rfl rfl rfl (.inl rfl)
        fun _ => paymentClash_eq_none.mp hclash
  applyToBill _ _ _ s a s' hrun := by
    obtain ⟨-, -, -, -, rfl⟩ := applyToBill_ok hrun
    exact .of_payments rfl (List.Subset.refl _)
  endBill _ _ _ s u s' hrun := by
    obtain ⟨rfl, -⟩ := updateBill_ok hrun
    exact .of_payments rfl (List.Subset.refl _)

theorem ledger_traced : LedgerKeeps Traced :=
  statements_traced.ledgerKeeps (fun _ _ h => h) fun _ _ _ _ =>
    statements_traced.confirmClaim fun _ _ => traced_transitionPayment (by decide)

theorem Edits.traced (h : Edits restaurantId billId s s') : Traced s s' := by
  obtain ⟨bill, items, updated, -, -, hrec⟩ := h
  obtain ⟨-, splits, -, rfl⟩ := recalculateTotals_ok hrec
  exact .of_payments rfl (List.Subset.refl _)

/-- Every step of the ledger: an edit, or one of the other transactions. -/
theorem traced_step (w : World) (op : LedgerOp) : Traced w.db (op.step w).1.db := by
  cases hedit : op.isEdit with
  | false => exact ledger_traced.step w op hedit
  | true =>
    cases op with
    | addItem => exact transact_keeps (atomic_tx _) fun _ _ _ h => (addItem_ok h).traced
    | updateQuantity => exact transact_keeps (atomic_tx _) fun _ _ _ h => (updateQuantity_ok h).traced
    | removeItem => exact transact_keeps (atomic_tx _) fun _ _ _ h => (removeItem_ok h).traced
    | _ => cases hedit

/-! ## Writes that go through -/

/-- An update that breaks no constraint is made. -/
theorem updatePayment_commits {f : Payment → Payment} (hf : ∀ p, (f p).id = p.id)
    (hp : s.payment? restaurantId paymentId = some p)
    (hfixed : (f p).amountVes = p.amountVes ∧ (f p).tipVes = p.tipVes ∧ (f p).billId = p.billId)
    (hstatus : (f p).status = p.status ∨ (f p).status ∈ p.status.ALLOWED_TRANSITIONS)
    (hprov : (f p).providerPaymentId = none ∨ (f p).provider.isSome)
    (hclash : s.paymentClash (f p) = none) :
    (updatePayment restaurantId paymentId f hf).run s =
      .ok (some (f p)) { s with payments := s.payments.update paymentId f hf } := by
  unfold updatePayment
  rw [Tx.bind_of_ok Tx.run_get, hp]
  simp only
  rw [Tx.bind_of_ok (Tx.require_pass hfixed), Tx.bind_of_ok (Tx.require_pass hstatus),
    Tx.bind_of_ok (Tx.require_pass hprov), hclash]
  rfl

/-- A payment moves as its status allows; no share is asked where nothing is settled. -/
theorem transitionPayment_commits {toStatus : PaymentStatus} (reason : Option String)
    (h : s.Unclashed) (hp : s.payment? restaurantId paymentId = some p) (hprov : p.provider.isSome)
    (hne : p.status ≠ toStatus) (hallow : toStatus ∈ p.status.ALLOWED_TRANSITIONS)
    (hto : toStatus ∉ SETTLED_STATUSES) :
    ∃ m transitions, (transitionPayment restaurantId paymentId toStatus reason).run s = .ok m { s with
      payments := s.payments.update paymentId (fun p => { p with status := toStatus }) fun _ => rfl
      transitions } := by
  obtain ⟨hfind, -⟩ := payment?_eq_some.mp hp
  have hclash : s.paymentClash { p with status := toStatus } = none :=
    paymentClash_eq_none.mpr fun q hq hne =>
      clash_moved false hallow (h p (Table.find?_mem hfind) q hq hne)
  have hup := updatePayment_commits (f := fun p => { p with status := toStatus }) (fun _ => rfl) hp
    ⟨rfl, rfl, rfl⟩ (.inr hallow) (.inr hprov) hclash
  refine ⟨{ payment := { p with status := toStatus } },
    s.transitions ++ [⟨paymentId, restaurantId, some p.status, toStatus, reason⟩], ?_⟩
  unfold transitionPayment
  rw [Tx.bind_of_ok Tx.run_get, Tx.bind_of_ok (Tx.orThrow_ok.mpr ⟨hp, rfl⟩), if_neg hne,
    Tx.bind_of_ok (Tx.require_pass hallow), Tx.bind_of_ok hup]
  have hnone : p.splitParticipantId.filter (fun _ => decide (toStatus ∈ SETTLED_STATUSES)) = none := by
    rw [Option.filter_eq_none_iff]
    intro _ _
    simpa using hto
  unfold settleShare
  simp only [hnone, appendTransition]
  rfl

end Splite
