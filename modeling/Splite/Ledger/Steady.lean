import Splite.Ledger.Edits
import Splite.Ledger.Runs

/-!
# What the ledger leaves of a bill

No transaction other than an edit changes a line, a figure or a frozen rate of a bill: it moves what
is paid and the status, and a bill that it leaves open with a payment is not paid in full.

* `StatementsKeep.ledgerKeeps`: a relation that the statements of the ledger keep is kept by its
  transactions.
* `LedgerKeeps.step`: a relation that every transaction other than an edit keeps is kept by every step
  of the ledger other than an edit.
* `ledger_steady`: `Steady` is such a relation.
-/

namespace Splite

open Mercantil (ChargeError ChargeResult Match Movement)

/-! ## Relations that the ledger keeps -/

def LedgerOp.isEdit : LedgerOp → Bool
  | .addItem .. | .updateQuantity .. | .removeItem .. => true
  | _ => false

/-- The statuses that the ledger moves a payment to. -/
def OUTCOMES : List PaymentStatus := [.inDoubt, .ambiguous, .succeeded, .failed]

/-- Every transaction of the ledger other than an edit keeps `R`. -/
structure LedgerKeeps (R : Db → Db → Prop) : Prop where
  processSplitPayment : ∀ paymentId now p, Tx.Keeps R (processSplitPayment paymentId now p)
  declareClaim : ∀ paymentId now c, Tx.Keeps R (declareClaim paymentId now c)
  confirmClaim : ∀ restaurantId claimId via movement,
    Tx.Keeps R (confirmClaim restaurantId claimId via movement)
  rejectClaim : ∀ restaurantId claimId reason, Tx.Keeps R (rejectClaim restaurantId claimId reason)
  settleFromWebhook : ∀ provider parsed, Tx.Keeps R (settleFromWebhook provider parsed)
  settleBill : ∀ adjustmentId restaurantId billId body,
    Tx.Keeps R (settleBill adjustmentId restaurantId billId body)
  voidBill : ∀ restaurantId billId, Tx.Keeps R (voidBill restaurantId billId)
  submitCharge : ∀ paymentId now r, Tx.Keeps R (submitCharge paymentId now r)
  moveTo : ∀ restaurantId paymentId toStatus reason, toStatus ∈ OUTCOMES →
    Tx.Keeps R (moveTo restaurantId paymentId toStatus reason)
  settleApproved : ∀ restaurantId billId paymentId amount reference now,
    Tx.Keeps R (settleApproved restaurantId billId paymentId amount reference now)
  parkUnappliable : ∀ restaurantId paymentId parking now,
    Tx.Keeps R (parkUnappliable restaurantId paymentId parking now)
  expireResolution : ∀ c now actor, Tx.Keeps R (expireResolution c now actor)
  settleResolution : ∀ c found askedAt now actor,
    Tx.Keeps R (settleResolution c found askedAt now actor)

section Step

variable {R : Db → Db → Prop} [Std.Refl R] {α : Type} {x : Tx Err Db α} {w : World}

theorem transact_keeps (hatomic : Tx.Atomic x) (hx : Tx.Keeps R x) : R w.db (w.transact x).1.db := by
  unfold World.transact
  cases hrun : x.run w.db with
  | ok a db => exact hx _ _ _ hrun
  | error err db =>
    obtain rfl := hatomic _ _ _ hrun
    exact refl_of R _

theorem exec_keeps {s : Db} (hatomic : Tx.Atomic x) (hx : Tx.Keeps R x) : R s (x.exec s) := by
  cases hrun : x.run s with
  | ok a db =>
    rw [Tx.exec_of_ok hrun]
    exact hx _ _ _ hrun
  | error err db =>
    rw [hatomic.exec_of_error hrun]
    exact refl_of R _

theorem LedgerKeeps.afterReply (h : LedgerKeeps R) (c : ChargeCall) (now : Time)
    (reply : Except ChargeError ChargeResult) : R w.db (w.afterReply c now reply).1.db := by
  unfold World.afterReply
  split
  · exact exec_keeps (atomic_tx _) (h.moveTo _ _ _ _ (by decide))
  · exact transact_keeps (w := w.dropCharge c.paymentId) (atomic_tx _) (h.moveTo _ _ _ _ (by decide))
  · exact transact_keeps (w := w.dropCharge c.paymentId) (atomic_tx _) (h.moveTo _ _ _ _ (by decide))
  · simp only
    split
    · rename_i hrun
      exact h.settleApproved _ _ _ _ _ _ _ _ _ hrun
    · rename_i hrun
      obtain rfl := atomic_tx _ _ _ _ hrun
      exact refl_of R _

theorem LedgerKeeps.afterDecision (h : LedgerKeeps R) (c : ResolveCall) (found : Match) (now : Time) :
    R w.db (w.afterDecision c found now).1.db := by
  unfold World.afterDecision
  split
  · rename_i hrun
    exact h.settleResolution _ _ _ _ _ _ _ _ hrun
  · rename_i hrun
    obtain rfl := atomic_tx _ _ _ _ hrun
    split
    · exact refl_of R _
    · exact refl_of R _

/-- What every transaction keeps, every step keeps: one case for each operation. -/
theorem LedgerKeeps.step (h : LedgerKeeps R) (w : World) (op : LedgerOp) (hop : op.isEdit = false) :
    R w.db (op.step w).1.db := by
  cases op with
  | processSplitPayment paymentId now p =>
    exact transact_keeps (atomic_processSplitPayment paymentId now p) (h.processSplitPayment _ _ _)
  | declareClaim paymentId now c =>
    exact transact_keeps (atomic_declareClaim paymentId now c) (h.declareClaim _ _ _)
  | confirmClaim restaurantId claimId via bankMovementId =>
    exact transact_keeps (atomic_tx _) (h.confirmClaim _ _ _ _)
  | rejectClaim restaurantId claimId reason =>
    exact transact_keeps (atomic_tx _) (h.rejectClaim _ _ _)
  | settleFromWebhook providerCode parsed =>
    exact transact_keeps (settleFromWebhook_atomic providerCode parsed) (h.settleFromWebhook _ _)
  | addItem itemId restaurantId billId productId quantity => simp [LedgerOp.isEdit] at hop
  | updateQuantity restaurantId billId itemId quantity => simp [LedgerOp.isEdit] at hop
  | removeItem restaurantId billId itemId => simp [LedgerOp.isEdit] at hop
  | settleBill adjustmentId restaurantId billId body =>
    exact transact_keeps (atomic_tx _) (h.settleBill _ _ _ _)
  | voidBill restaurantId billId => exact transact_keeps voidBill_atomic (h.voidBill _ _)
  | submitCharge paymentId now r =>
    simp only [LedgerOp.step]
    split
    · rename_i hrun
      exact h.submitCharge _ _ _ _ _ _ hrun
    · rename_i hrun
      obtain rfl := atomic_submitCharge paymentId now r _ _ _ hrun
      exact refl_of R _
  | bankReplies paymentId now reply =>
    simp only [LedgerOp.step]
    split
    · exact h.afterReply _ now reply
    · exact refl_of R _
  | parkCharge paymentId now =>
    simp only [LedgerOp.step]
    split
    · exact exec_keeps (atomic_tx _) (h.parkUnappliable _ _ _ _)
    · exact refl_of R _
  | resolveCharge callId now restaurantId paymentId actorUserId =>
    simp only [LedgerOp.step]
    split
    · split
      · exact refl_of R _
      · exact refl_of R _
    · exact refl_of R _
  | expireResolution callId now =>
    simp only [LedgerOp.step]
    split
    · exact transact_keeps (w := w.dropResolve callId) (atomic_tx _) (h.expireResolution _ _ _)
    · exact refl_of R _
  | bankShows callId movements =>
    simp only [LedgerOp.step]
    split
    · exact refl_of R _
    · exact refl_of R _
  | bankUnreachable callId =>
    simp only [LedgerOp.step]
    split
    · exact refl_of R _
    · exact refl_of R _
  | settleResolution callId now =>
    simp only [LedgerOp.step]
    split
    · exact h.afterDecision _ _ now
    · exact refl_of R _
  | parkResolution callId now =>
    simp only [LedgerOp.step]
    split
    · exact exec_keeps (atomic_tx _) (h.parkUnappliable _ _ _ _)
    · exact refl_of R _

end Step

/-! ## Statements that keep a relation -/

/-- Bills, items, payments with their transitions, and splits are as they were, and so are the charges that
there were, but for the time of their last resolution. -/
structure Aside (s s' : Db) : Prop where
  bills : s'.bills = s.bills
  items : s'.items = s.items
  payments : s'.payments = s.payments
  transitions : s'.transitions = s.transitions
  splits : s'.splits = s.splits
  shares : s'.shares = s.shares
  charges : s.charges.rows.map C2PCharge.paymentId ⊆ s'.charges.rows.map C2PCharge.paymentId

/-- Every statement of the ledger keeps `R`; the ones that write only beside the ledger keep it as
`frame`. -/
structure StatementsKeep (R : Db → Db → Prop) : Prop where
  frame : ∀ s s' : Db, Aside s s' → R s s'
  recordPayment : ∀ paymentId now p, p.status = .pending ∨ p.status = .succeeded →
    Tx.Keeps R (recordPayment paymentId now p)
  transitionPayment : ∀ restaurantId paymentId toStatus reason, toStatus ∈ OUTCOMES →
    Tx.Keeps R (transitionPayment restaurantId paymentId toStatus reason)
  setReference : ∀ restaurantId paymentId reference,
    Tx.Keeps R (setReference restaurantId paymentId reference)
  applyToBill : ∀ restaurantId billId amount, Tx.Keeps R (applyToBill restaurantId billId amount)
  endBill : ∀ billId (status : BillStatus), status ≠ .open →
    Tx.Keeps R (updateBill billId (fun b => { b with status }) fun _ => rfl)

section Locks

variable {R : Db → Db → Prop} [Std.Refl R] {restaurantId billId : Uuid}

theorem lockPayableBill_keeps {amount : Int} :
    Tx.Keeps R (lockPayableBill restaurantId billId amount) := fun s _ s' h => by
  obtain ⟨-, -, -, rfl⟩ := lockPayableBill_ok h
  exact refl_of R _

theorem lockPendingClaim_keeps {claimId : Uuid} :
    Tx.Keeps R (lockPendingClaim restaurantId claimId) := fun s _ s' h => by
  obtain ⟨-, -, -, -, rfl⟩ := lockPendingClaim_ok h
  exact refl_of R _

end Locks

namespace StatementsKeep

variable {R : Db → Db → Prop} (h : StatementsKeep R) {restaurantId billId paymentId : Uuid}

include h

theorem insertCharge {charge : C2PCharge} : Tx.Keeps R (Splite.insertCharge charge) :=
  fun s _ s' hrun => by
    obtain ⟨charges, hins, rfl⟩ := insertCharge_ok hrun
    refine h.frame _ _ ⟨rfl, rfl, rfl, rfl, rfl, rfl, fun id hid => ?_⟩
    obtain ⟨c, hc, rfl⟩ := List.mem_map.mp hid
    exact List.mem_map_of_mem ((Table.mem_insert? hins).mpr (.inl hc))

theorem insertAdjustment {a : BillAdjustment} : Tx.Keeps R (Splite.insertAdjustment a) :=
  fun s _ s' hrun => by
    obtain ⟨adjustments, -, rfl⟩ := insertAdjustment_ok hrun
    exact h.frame _ _ ⟨rfl, rfl, rfl, rfl, rfl, rfl, List.Subset.refl _⟩

theorem useBackingMovement {claimId : Uuid} {movement : Option Uuid} {via : ConfirmedVia} :
    Tx.Keeps R (Splite.useBackingMovement restaurantId claimId movement via) := fun s _ s' hrun => by
  obtain ⟨movements, rfl⟩ := useBackingMovement_ok hrun
  exact h.frame _ _ ⟨rfl, rfl, rfl, rfl, rfl, rfl, List.Subset.refl _⟩

theorem claimEvent {provider : Provider} {parsed : ParsedDelivery} {outcome : DeliveryOutcome} :
    Tx.Keeps R (Splite.claimEvent provider parsed outcome) := fun s _ s' hrun => by
  obtain ⟨events, rfl⟩ := claimEvent_ok hrun
  exact h.frame _ _ ⟨rfl, rfl, rfl, rfl, rfl, rfl, List.Subset.refl _⟩

theorem logAttempt {attempt : ResolutionAttempt} : Tx.Keeps R (Splite.logAttempt attempt) :=
  fun s _ s' hrun => by
    obtain ⟨-, rfl⟩ := by simpa [Splite.logAttempt] using hrun
    exact h.frame _ _ ⟨rfl, rfl, rfl, rfl, rfl, rfl, List.Subset.refl _⟩

theorem touchCharge {now : Time} : Tx.Keeps R (Splite.touchCharge paymentId now) :=
  fun s _ s' hrun => by
    obtain ⟨charges, hids, rfl⟩ := touchCharge_ok hrun
    exact h.frame _ _ ⟨rfl, rfl, rfl, rfl, rfl, rfl, hids ▸ List.Subset.refl _⟩

variable [Std.Refl R] [IsTrans Db R]

theorem writeReference {reference : Option String} :
    Tx.Keeps R (Splite.writeReference restaurantId paymentId reference) := by
  unfold Splite.writeReference
  split
  · exact (h.setReference _ _ _).bind fun _ => .pure _
  · exact .pure _

theorem logParked {parking : Parking} {now : Time} :
    Tx.Keeps R (Splite.logParked restaurantId paymentId parking now) := by
  unfold Splite.logParked
  split
  · exact h.touchCharge.bind fun _ => h.logAttempt
  · exact .pure _

theorem actOnDelivery {provider : Provider} {parsed : ParsedDelivery} {payment : Payment} :
    Tx.Keeps R (Splite.actOnDelivery provider parsed payment) := by
  unfold Splite.actOnDelivery
  split
  · exact .pure _
  split
  · exact (h.transitionPayment _ _ _ _ (by decide)).bind fun _ => .pure _
  split
  · exact .pure _
  · exact (h.applyToBill _ _ _).bind fun _ =>
      (h.transitionPayment _ _ _ _ (by decide)).bind fun _ => .pure _

theorem settleDelivery {provider : Provider} {parsed : ParsedDelivery} :
    Tx.Keeps R (Splite.settleDelivery provider parsed) := by
  refine .withTransaction (Tx.Keeps.get.bind fun s => Tx.Keeps.orThrow.bind fun payment => ?_)
  split
  · exact .pure _
  · exact h.actOnDelivery.bind fun _ => h.claimEvent.bind fun _ => .pure _

theorem settleFromWebhook {provider : Provider} {parsed : ParsedDelivery} :
    Tx.Keeps R (Splite.settleFromWebhook provider parsed) := by
  refine Tx.Keeps.require.bind fun _ => h.settleDelivery.rescue (atomic_tx _) fun err => ?_
  split
  · exact .pure _
  · exact .throw err

theorem settleBill {adjustmentId : Uuid} {body : SettleRequest} :
    Tx.Keeps R (Splite.settleBill adjustmentId restaurantId billId body) := by
  refine .withTransaction <| Tx.Keeps.get.bind fun s => Tx.Keeps.orThrow.bind fun bill =>
    Tx.Keeps.require.bind fun _ => ?_
  have hclose := h.endBill bill.id .closed nofun
  simp only
  split
  · exact h.insertAdjustment.bind fun _ => hclose.bind fun _ => .pure _
  · exact hclose.bind fun _ => .pure _

theorem voidBill : Tx.Keeps R (Splite.voidBill restaurantId billId) := by
  refine Tx.Keeps.get.bind fun s => ?_
  split
  · exact (h.endBill _ .void nofun).bind fun _ => .pure _
  · refine Tx.Keeps.orThrow.bind fun existing => ?_
    split
    · exact .throw _
    · exact .throw _

theorem settleResolution {c : ChargeSnapshot} {found : Match} {askedAt now : Time}
    {actor : Option Uuid} : Tx.Keeps R (Splite.settleResolution c found askedAt now actor) := by
  refine .withTransaction <| Tx.Keeps.get.bind fun s => Tx.Keeps.orThrow.bind fun locked => ?_
  split
  · exact h.logAttempt.bind fun _ => .pure _
  refine h.touchCharge.bind fun _ => ?_
  split
  · exact (h.setReference _ _ _).bind fun _ => (h.applyToBill _ _ _).bind fun _ =>
      (h.transitionPayment _ _ _ _ (by decide)).bind fun _ => h.logAttempt.bind fun _ => .pure _
  · exact (h.transitionPayment _ _ _ _ (by decide)).bind fun _ => h.logAttempt.bind fun _ => .pure _
  · split
    · exact h.logAttempt.bind fun _ => .pure _
    · exact (h.transitionPayment _ _ _ _ (by decide)).bind fun _ => h.logAttempt.bind fun _ => .pure _

theorem confirmClaim {claimId : Uuid} {via : ConfirmedVia} {movement : Option Uuid}
    (hmove : ∀ paymentId reason, Tx.Keeps R
      (Splite.transitionPayment restaurantId paymentId .succeeded reason .detach)) :
    Tx.Keeps R (Splite.confirmClaim restaurantId claimId via movement) :=
  .withTransaction <| lockPendingClaim_keeps.bind fun _ => (h.applyToBill _ _ _).bind fun _ =>
    (hmove _ _).bind fun _ => h.useBackingMovement.bind fun _ => .pure _

/-- What the statements keep, the transactions keep; `confirmClaim` may take a share from its
payment, so what it keeps comes by itself. -/
theorem ledgerKeeps {R' : Db → Db → Prop} (hR : ∀ s s', R s s' → R' s s')
    (hconfirm : ∀ restaurantId claimId via movement,
      Tx.Keeps R' (Splite.confirmClaim restaurantId claimId via movement)) : LedgerKeeps R' where
  processSplitPayment _ _ _ := .mono hR <| Tx.Keeps.orThrow.bind fun _ =>
    Tx.Keeps.orThrow.bind fun _ => .withTransaction <| (h.applyToBill _ _ _).bind fun _ =>
      (h.recordPayment _ _ _ (.inr rfl)).bind fun _ => .pure _
  declareClaim _ _ _ := .mono hR <| Tx.Keeps.orThrow.bind fun _ => .mapError <| .withTransaction <|
    lockPayableBill_keeps.bind fun _ => h.recordPayment _ _ _ (.inl rfl)
  confirmClaim := hconfirm
  rejectClaim _ _ _ := .mono hR <| .withTransaction <| lockPendingClaim_keeps.bind fun _ =>
    h.transitionPayment _ _ _ _ (by decide)
  settleFromWebhook _ _ := .mono hR h.settleFromWebhook
  settleBill _ _ _ _ := .mono hR h.settleBill
  voidBill _ _ := .mono hR h.voidBill
  submitCharge _ _ _ := .mono hR <| Tx.Keeps.orThrow.bind fun _ => Tx.Keeps.orThrow.bind fun _ =>
    .withTransaction <| lockPayableBill_keeps.bind fun _ =>
      (h.recordPayment _ _ _ (.inl rfl)).bind fun _ => h.insertCharge.bind fun _ => .pure _
  moveTo _ _ _ _ hto := .mono hR <| .withTransaction (h.transitionPayment _ _ _ _ hto)
  settleApproved _ _ _ _ _ _ := .mono hR <| .withTransaction <| h.writeReference.bind fun _ =>
    (h.applyToBill _ _ _).bind fun _ => (h.transitionPayment _ _ _ _ (by decide)).bind fun _ =>
      h.touchCharge.bind fun _ => .pure _
  parkUnappliable _ _ _ _ := .mono hR <| .withTransaction <| h.writeReference.bind fun _ =>
    (h.transitionPayment _ _ _ _ (by decide)).bind fun _ => h.logParked
  expireResolution _ _ _ := .mono hR <| .withTransaction <| h.touchCharge.bind fun _ =>
    (h.transitionPayment _ _ _ _ (by decide)).bind fun _ => h.logAttempt
  settleResolution _ _ _ _ _ := .mono hR h.settleResolution

end StatementsKeep

/-! ## Bills that only payments and their end change -/

/-- The bill is the same but for its status and what is paid; a bill that is open was open, and is
not paid in full unless nothing happened to it. -/
structure Bill.Moves (b b' : Bill) : Prop where
  same : b' = { b with status := b'.status, amountPaidVes := b'.amountPaidVes }
  opened : b'.status = .open → b.status = .open ∧ (b' = b ∨ b'.amountPaidVes < b'.totalDueVes)
  checked : b.violated = none → b'.violated = none

theorem Bill.Moves.refl (b : Bill) : b.Moves b := ⟨rfl, fun h => ⟨h, .inl rfl⟩, fun h => h⟩

theorem Bill.Moves.trans {b b' b'' : Bill} (h : b.Moves b') (h' : b'.Moves b'') : b.Moves b'' := by
  refine ⟨?_, fun hopen => ?_, fun hv => h'.checked (h.checked hv)⟩
  · rw [h'.same, h.same]
  · obtain ⟨hopen', hcase'⟩ := h'.opened hopen
    obtain ⟨hopen₀, hcase⟩ := h.opened hopen'
    refine ⟨hopen₀, ?_⟩
    rcases hcase' with rfl | hlt
    · exact hcase
    · exact .inr hlt

/-- No line, figure or frozen rate changes, and bills move only as payments and their end move
them. -/
structure Steady (s s' : Db) : Prop where
  items : s'.items = s.items
  ids : s'.bills.rows.map Bill.id = s.bills.rows.map Bill.id
  bills : ∀ b' ∈ s'.bills, ∃ b ∈ s.bills, b.Moves b'

instance : Std.Refl Steady := ⟨fun _ => ⟨rfl, rfl, fun b hb => ⟨b, hb, .refl b⟩⟩⟩

instance : IsTrans Db Steady := ⟨fun s s' s'' h h' => by
  refine ⟨h'.items.trans h.items, h'.ids.trans h.ids, fun b'' hb'' => ?_⟩
  obtain ⟨b', hb', hmoves'⟩ := h'.bills b'' hb''
  obtain ⟨b, hb, hmoves⟩ := h.bills b' hb'
  exact ⟨b, hb, hmoves.trans hmoves'⟩⟩

variable {s s' : Db} {restaurantId billId paymentId : Uuid}

theorem Steady.of_frame (hbills : s'.bills = s.bills) (hitems : s'.items = s.items) : Steady s s' :=
  ⟨hitems, by rw [hbills], fun b hb => ⟨b, hbills ▸ hb, .refl b⟩⟩

/-- One bill moves. -/
theorem Steady.of_update (f : Bill → Bill) (hf : ∀ b, (f b).id = b.id) {bill : Bill}
    (hbill : s.bills.find? billId = some bill) (hbills : s'.bills = s.bills.update billId f hf)
    (hitems : s'.items = s.items) (hmoves : bill.Moves (f bill)) : Steady s s' := by
  refine ⟨hitems, ?_, fun b' hb' => ?_⟩
  · rw [hbills]
    exact Table.keys_updateWhere
  rw [hbills, Table.mem_update_of_find f hf hbill] at hb'
  rcases hb' with rfl | ⟨hb', -⟩
  · exact ⟨bill, Table.find?_mem hbill, hmoves⟩
  · exact ⟨b', hb', .refl b'⟩

/-! ### The statements -/

theorem steady_updatePayment {f : Payment → Payment} {hf : ∀ p, (f p).id = p.id} :
    Tx.Keeps Steady (updatePayment restaurantId paymentId f hf) := fun s r s' h => by
  rcases updatePayment_ok h with ⟨-, -, rfl⟩ | ⟨_, -, -, -, -, -, -, rfl⟩
  · exact refl_of Steady _
  · exact .of_frame rfl rfl

theorem steady_recordPayment {now : Time} {p : NewPayment} :
    Tx.Keeps Steady (recordPayment paymentId now p) := fun s r s' h => by
  obtain ⟨-, -, payments, transitions, shares, -, rfl⟩ := recordPayment_ok h
  exact .of_frame rfl rfl

theorem steady_transitionPayment {toStatus : PaymentStatus} {reason : Option String}
    {mode : OnShareRefusal} :
    Tx.Keeps Steady (transitionPayment restaurantId paymentId toStatus reason mode) :=
  fun s r s' h => by
    obtain ⟨current, -, ⟨-, rfl⟩ | ⟨-, detached, transitions, shares, rfl⟩⟩ := transitionPayment_ok h
    · exact refl_of Steady _
    · exact .of_frame rfl rfl

/-- What `applyToBill` writes has passed the checks of the row. -/
theorem applyToBill_checked {amount : Int} {a : Applied}
    (h : (applyToBill restaurantId billId amount).run s = .ok a s') :
    (Bill.applied a.newAmountPaid a.newStatus a.bill).violated = none := by
  unfold applyToBill at h
  simp only [Tx.bind_ok, Tx.run_get, Tx.orThrow_ok, Tx.require_ok, Tx.pure_ok] at h
  obtain ⟨_, _, ⟨rfl, rfl⟩, bill, _, ⟨hbill, rfl⟩, _, _, ⟨hopen, rfl⟩, _, _, ⟨hle, rfl⟩, _, _,
    hup, rfl, rfl⟩ := h
  obtain ⟨hfind, -⟩ := bill?_eq_some.mp hbill
  obtain rfl : bill.id = billId := Table.find?_key hfind
  exact (updateBill_ok hup).2 bill hfind

theorem applyToBill_figures {amount : Int} {a : Applied}
    (h : (applyToBill restaurantId billId amount).run s = .ok a s') :
    a.newAmountPaid = a.bill.amountPaidVes + amount ∧
      a.newStatus = if a.newAmountPaid = a.bill.totalDueVes then .closed else .open := by
  unfold applyToBill at h
  simp only [Tx.bind_ok, Tx.pure_ok] at h
  obtain ⟨_, _, -, bill, _, -, _, _, -, _, _, -, _, _, -, rfl, -⟩ := h
  exact ⟨rfl, rfl⟩

/-- An open bill takes the amount, and closes with the last of it. -/
theorem steady_applyToBill {amount : Int} :
    Tx.Keeps Steady (applyToBill restaurantId billId amount) := fun s a s' h => by
  have hchecked := applyToBill_checked h
  obtain ⟨hpaid, hstatus⟩ := applyToBill_figures h
  obtain ⟨hbill, -, hopen, hle, rfl⟩ := applyToBill_ok h
  rw [← hpaid, ← hstatus]
  refine .of_update (Bill.applied a.newAmountPaid a.newStatus) (fun _ => rfl)
    (bill?_eq_some.mp hbill).1 rfl rfl ⟨rfl, fun h => ⟨hopen, .inr ?_⟩, fun _ => hchecked⟩
  have hne : a.newAmountPaid ≠ a.bill.totalDueVes := fun he => by
    rw [if_pos he] at hstatus
    rw [show (Bill.applied a.newAmountPaid a.newStatus a.bill).status = a.newStatus from rfl,
      hstatus] at h
    cases h
  show a.newAmountPaid < a.bill.totalDueVes
  omega

/-- A bill ends. -/
theorem steady_updateBill (f : Bill → Bill) (hf : ∀ b, (f b).id = b.id)
    (hsame : ∀ b, f b = { b with status := (f b).status }) (hend : ∀ b, (f b).status ≠ .open) :
    Tx.Keeps Steady (updateBill billId f hf) := fun s _ s' h => by
  obtain ⟨rfl, hchecked⟩ := updateBill_ok h
  cases hbill : s.bills.find? billId with
  | none =>
    rw [Table.update_of_none hbill]
    exact refl_of Steady s
  | some bill =>
    refine .of_update f hf hbill rfl rfl ⟨?_, fun hopen => absurd hopen (hend bill),
      fun _ => hchecked bill hbill⟩
    rw [hsame bill]

/-- Of what the ledger does, nothing but payments and their end moves a bill. -/
theorem statements_steady : StatementsKeep Steady where
  frame _ _ h := .of_frame h.bills h.items
  recordPayment _ _ _ _ := steady_recordPayment
  transitionPayment _ _ _ _ _ := steady_transitionPayment
  setReference _ _ _ := steady_updatePayment
  applyToBill _ _ _ := steady_applyToBill
  endBill _ status hend := steady_updateBill (fun b => { b with status }) (fun _ => rfl)
    (fun _ => rfl) fun _ => hend

theorem ledger_steady : LedgerKeeps Steady :=
  statements_steady.ledgerKeeps (fun _ _ h => h) fun _ _ _ _ =>
    statements_steady.confirmClaim fun _ _ => steady_transitionPayment

end Splite
