import Splite.Ledger.Accounts

/-!
# Paying, settling and voiding a bill (`services/locks.js`, `routes/bills.js`)

* `processSplitPayment_effect`, `settleBill_effect`, `voidBill_effect`: the credit of an account,
  its end with the rest written off, its end with nothing paid.
-/

namespace Splite

/-- `toPaymentAmount(value)`; the value is `none` where `BigInt` refuses it or it is not exact. -/
def toPaymentAmount (value : Option Int) : Option Int := value.filter (0 < ·)

/-- `toTipAmount(value)`; no tip is a tip of zero. -/
def toTipAmount (value : Option Int) : Option Int := value.filter (0 ≤ ·)

/-- `settlementView(bill, { totalDue, newAmountPaid, newStatus })`, but for the amounts in USD. -/
structure SettlementView where
  id : Uuid
  status : BillStatus
  currency : Currency
  totalDue : Int
  amountPaid : Int
  remaining : Int
  displayCurrency : Currency
  fxRate : Option Int
  fxSource : Option String
  deriving DecidableEq, Repr

def settlementView (applied : Applied) : SettlementView where
  id := applied.bill.id
  status := applied.newStatus
  currency := .ves
  totalDue := applied.totalDue
  amountPaid := applied.newAmountPaid
  remaining := applied.totalDue - applied.newAmountPaid
  displayCurrency := applied.bill.currency
  fxRate := applied.bill.fxRateVesPerUnit
  fxSource := applied.bill.fxRateSource

/-- The argument of `processSplitPayment`. -/
structure SplitPayment where
  restaurantId : Uuid
  billId : Uuid
  amountPaidMinorUnits : Option Int
  idempotencyKey : Option String := none
  paymentMethod : PaymentMethod := .splite
  splitParticipantId : Option Uuid := none
  tipVes : Option Int := some 0

/-- What a payment that settled is answered with. -/
structure PaymentReceipt where
  settlement : SettlementView
  paymentId : Uuid
  shareDetached : Option Code
  tipVes : Int
  totalChargedVes : Int

/-- `processSplitPayment({ … })`. -/
def processSplitPayment (paymentId : Uuid) (now : Time) (p : SplitPayment) :
    Tx Err Db PaymentReceipt := do
  let amount ← Tx.orThrow (toPaymentAmount p.amountPaidMinorUnits)
    (.api .invalidAmount "Invalid payment amount" [])
  let tip ← Tx.orThrow (toTipAmount p.tipVes) (.api .invalidAmount "Invalid tip amount" [])
  Tx.withTransaction do
    let applied ← applyToBill p.restaurantId p.billId amount
    let payment ← recordPayment paymentId now
      { restaurantId := p.restaurantId, billId := applied.bill.id, amountVes := amount,
        status := .succeeded, paymentMethod := p.paymentMethod,
        idempotencyKey := p.idempotencyKey, splitParticipantId := p.splitParticipantId,
        tipVes := tip }
    return {
      settlement := settlementView applied, paymentId := payment.id, shareDetached := none,
      tipVes := payment.tipVes, totalChargedVes := amount + payment.tipVes }

/-- `INSERT INTO bill_adjustments …`. -/
def insertAdjustment (a : BillAdjustment) : Tx Err Db Unit := do
  let s ← get
  Tx.require (0 < a.amountVes) (.checkViolation "bill_adjustments_amount_ves_check")
  let adjustments ← Tx.orThrow (s.adjustments.insert? a) (.uniqueViolation "bill_adjustments_pkey")
  Tx.require (∀ r ∈ s.adjustments.rows, r.billId ≠ a.billId)
    (.uniqueViolation "bill_adjustments_bill_idx")
  set { s with adjustments }

/-- The body of `POST /:id/settle`. -/
structure SettleRequest where
  reason : AdjustmentReason
  note : Option String
  userId : Uuid

/-- `POST /:id/settle`. -/
def settleBill (adjustmentId restaurantId billId : Uuid) (body : SettleRequest) :
    Tx Err Db (Option BillAdjustment) := Tx.withTransaction do
  let s ← get
  let bill ← Tx.orThrow (s.bill? restaurantId billId) (.api .billNotFound "Bill not found" [])
  Tx.require (bill.status = .open)
    (.api .billNotOpen ("A " ++ BillStatus.text bill.status ++ " bill cannot be settled")
      [("status", BillStatus.text bill.status)])
  let shortfall := bill.totalDueVes - bill.amountPaidVes
  if 0 < shortfall then
    let adjustment : BillAdjustment :=
      { id := adjustmentId, restaurantId, billId := bill.id, amountVes := shortfall,
        reason := body.reason, note := body.note, createdBy := some body.userId }
    insertAdjustment adjustment
    updateBill bill.id (fun b => { b with status := .closed }) fun _ => rfl
    return some adjustment
  else
    updateBill bill.id (fun b => { b with status := .closed }) fun _ => rfl
    return none

/-- `POST /:id/void`: one `UPDATE` with its conditions, and the reason why it matched no row. -/
def voidBill (restaurantId billId : Uuid) : Tx Err Db Bill := do
  let s ← get
  match (s.bill? restaurantId billId).filter fun b => b.status = .open ∧ b.amountPaidVes = 0 with
  | some bill =>
    updateBill bill.id (fun b => { b with status := .void }) fun _ => rfl
    return { bill with status := .void }
  | none =>
    let existing ← Tx.orThrow (s.bill? restaurantId billId)
      (.api .billNotFound "Bill not found" [])
    if existing.amountPaidVes ≠ 0 then
      throw (.api .billHasPayments "A bill with payments applied cannot be voided" [])
    else
      throw (.api .billNotOpen ("A " ++ BillStatus.text existing.status ++ " bill cannot be voided")
        [("status", BillStatus.text existing.status)])

/-! ## What they do to accounts -/

section Effects

variable {s s' : Db} {restaurantId billId : Uuid}

theorem processSplitPayment_effect {paymentId : Uuid} {now : Time} {p : SplitPayment}
    {r : PaymentReceipt} (h : (processSplitPayment paymentId now p).run s = .ok r s') :
    Effect none s s' := by
  unfold processSplitPayment at h
  simp only [Tx.bind_ok, Tx.orThrow_ok, Tx.withTransaction_ok, Tx.pure_ok] at h
  obtain ⟨amount, _, ⟨-, rfl⟩, tip, _, ⟨-, rfl⟩, applied, s₁, happly, payment, s₂, hrec, -, rfl⟩ := h
  obtain ⟨hbill, hid, hopen, hle, rfl⟩ := applyToBill_ok happly
  obtain ⟨hrow, -, payments, transitions, shares, hins, rfl⟩ := recordPayment_ok hrec
  have hpos := payment.amount_pos
  rw [hrow.amountVes] at hpos
  have hset : ∀ k, payment.share k = if k = p.billId then amount else 0 := fun k => by
    rw [share_of_counted (by rw [hrow.status]; rfl), hrow.billId, hrow.amountVes, hid]
  refine .of_insert (.credit (bill?_eq_some.mp hbill).1 hopen hpos hle rfl (fun k => ?_) rfl) hins
  rw [← hset]
  exact settled_insert hins k

theorem insertAdjustment_ok {a : BillAdjustment} {u : Unit}
    (h : (insertAdjustment a).run s = .ok u s') :
    ∃ adjustments, s.adjustments.insert? a = some adjustments ∧ s' = { s with adjustments } := by
  unfold insertAdjustment at h
  simp only [Tx.bind_ok, Tx.run_get, Tx.require_ok, Tx.orThrow_ok, Tx.run_set] at h
  obtain ⟨_, _, ⟨rfl, rfl⟩, _, _, ⟨-, rfl⟩, adjustments, _, ⟨hins, rfl⟩, _, _, ⟨-, rfl⟩, ⟨-, rfl⟩⟩ := h
  exact ⟨adjustments, hins, rfl⟩

theorem settleBill_effect {adjustmentId : Uuid} {body : SettleRequest} {r : Option BillAdjustment}
    (h : (settleBill adjustmentId restaurantId billId body).run s = .ok r s') :
    Effect none s s' := by
  unfold settleBill at h
  simp only [Tx.withTransaction_ok, Tx.bind_ok, Tx.run_get, Tx.orThrow_ok, Tx.require_ok] at h
  obtain ⟨_, _, ⟨rfl, rfl⟩, bill, _, ⟨hbill, rfl⟩, _, _, ⟨hopen, rfl⟩, h⟩ := h
  obtain ⟨hfind, -⟩ := bill?_eq_some.mp hbill
  obtain rfl : bill.id = billId := Table.find?_key hfind
  split at h
  · simp only [Tx.bind_ok, Tx.pure_ok] at h
    obtain ⟨_, _, hadjust, _, _, hup, -, rfl⟩ := h
    obtain ⟨adjustments, hins, rfl⟩ := insertAdjustment_ok hadjust
    obtain ⟨rfl, -⟩ := updateBill_ok hup
    refine .of_payments_eq (.close hfind hopen rfl rfl fun k => ?_) rfl
    refine (Table.total_insert hins).trans ?_
    simp [Db.adjusted, eq_comm]
  · rename_i hshort
    simp only [Tx.bind_ok, Tx.pure_ok] at h
    obtain ⟨_, _, hup, -, rfl⟩ := h
    obtain ⟨rfl, hcheck⟩ := updateBill_ok hup
    -- The check of the row says that no more is paid than is due, so nothing is left to write off.
    have hle : bill.amountPaidVes ≤ bill.totalDueVes := Bill.paid_le_of_checked (hcheck bill hfind)
    have hzero : bill.totalDueVes - bill.amountPaidVes = 0 := by omega
    exact .of_payments_eq (.close hfind hopen rfl rfl fun k => by simp [hzero, Db.adjusted]) rfl

theorem voidBill_effect {r : Bill} (h : (voidBill restaurantId billId).run s = .ok r s') :
    Effect none s s' := by
  unfold voidBill at h
  rw [Tx.bind_of_ok Tx.run_get] at h
  split at h
  · rename_i bill hfilter
    obtain ⟨hbill, hcond⟩ := Option.filter_eq_some_iff.mp hfilter
    obtain ⟨hopen, hzero⟩ : bill.status = .open ∧ bill.amountPaidVes = 0 := by simpa using hcond
    obtain ⟨hfind, -⟩ := bill?_eq_some.mp hbill
    obtain rfl : bill.id = billId := Table.find?_key hfind
    simp only [Tx.bind_ok, Tx.pure_ok] at h
    obtain ⟨_, _, hup, -, rfl⟩ := h
    obtain ⟨rfl, -⟩ := updateBill_ok hup
    exact .of_payments_eq (.cancel hfind hopen hzero rfl rfl rfl) rfl
  · simp only [Tx.bind_ok, Tx.orThrow_ok] at h
    obtain ⟨existing, _, ⟨-, rfl⟩, h⟩ := h
    split at h <;> simp at h

/-- The one statement of `POST /void` is refused as a whole. -/
theorem voidBill_atomic : Tx.Atomic (voidBill restaurantId billId) := fun s e s' h => by
  unfold voidBill at h
  rw [Tx.bind_of_ok Tx.run_get] at h
  split at h
  · simp only [updateBill, Tx.bind_error, Tx.bind_ok, Tx.run_get, Tx.run_set, Tx.run_pure,
      Tx.forbid_error, Tx.forbid_ok, reduceCtorEq, and_false, exists_false, or_false,
      EStateM.Result.ok.injEq, false_or] at h
    obtain ⟨_, _, ⟨-, rfl⟩, -, rfl⟩ := h
    rfl
  · rcases Tx.bind_error.mp h with h | ⟨existing, s₁, h, hthrow⟩
    · exact (Tx.orThrow_error.mp h).2.2
    · obtain ⟨-, rfl⟩ := Tx.orThrow_ok.mp h
      split at hthrow <;> exact Tx.atomic_throw _ _ _ _ hthrow

end Effects

end Splite
