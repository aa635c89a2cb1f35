import Splite.Ledger.Bills
import Splite.Mercantil.Matcher

/-!
# Declared payments (`services/paymentClaims.js`)

A diner declares a payment, and staff or a bank movement confirms it, or staff rejects it.

* `declareClaim_effect`: a declaration moves no money.
* `confirmClaim_effect`: a confirmation credits the bill with the amount that was declared.
* `rejectClaim_effect`: a rejection moves no money either.
-/

namespace Splite

/-- The lock on a bill that a payment is about to be written for, and the two checks that
`declareClaim` and `createC2PPayment` make of it. -/
def lockPayableBill (restaurantId billId : Uuid) (amount : Int) : Tx Err Db Bill := do
  let s ← get
  let bill ← Tx.orThrow (s.bill? restaurantId billId) (.api .billNotFound "Bill not found" [])
  Tx.require (bill.status = .open)
    (.api .billNotOpen "Bill is not open" [("status", BillStatus.text bill.status)])
  let remaining := bill.totalDueVes - bill.amountPaidVes
  Tx.require (amount ≤ remaining)
    (.api .paymentExceedsBalance "Payment exceeds remaining bill balance"
      [("remainingVes", toString remaining)])
  return bill

/-- `normaliseReference(value)`. -/
def normaliseReference (value : Option String) : String := Mercantil.digitsOnly (value.getD "")

/-- The argument of `declareClaim`. -/
structure ClaimRequest where
  restaurantId : Uuid
  billId : Uuid
  amountVes : Option Int
  reference : Option String
  splitParticipantId : Option Uuid := none
  tipVes : Int := 0

/-- The `catch` of `declareClaim`. -/
def asReferenceUsed : Err → Err
  | .uniqueViolation "payments_declared_reference_idx" =>
    .api .paymentReferenceAlreadyUsed
      "That reference has already been used to declare a payment" []
  | err => err

/-- `declareClaim({ … })`. -/
def declareClaim (paymentId : Uuid) (now : Time) (c : ClaimRequest) : Tx Err Db Payment := do
  let amount ← Tx.orThrow (toPaymentAmount c.amountVes)
    (.api .invalidAmount "Invalid payment amount" [])
  let declaredReference := normaliseReference c.reference
  Tx.mapError asReferenceUsed <| Tx.withTransaction do
    let _ ← lockPayableBill c.restaurantId c.billId amount
    recordPayment paymentId now
      { restaurantId := c.restaurantId, billId := c.billId, amountVes := amount, status := .pending,
        paymentMethod := .pagoMovil,
        declaredReference := if declaredReference = "" then none else some declaredReference,
        tipVes := c.tipVes, splitParticipantId := c.splitParticipantId,
        reason := some "Declared by payer, awaiting verification" }

/-- The claim that staff names, as it is locked, if it is still waiting. -/
def lockPendingClaim (restaurantId claimId : Uuid) : Tx Err Db Payment := do
  let s ← get
  let claim ← Tx.orThrow
    ((s.payment? restaurantId claimId).filter (·.paymentMethod = .pagoMovil))
    (.api .paymentClaimNotFound "Payment claim not found" [])
  Tx.require (claim.status = .pending)
    (.api .paymentClaimNotPending "That claim has already been resolved"
      [("status", claim.status.text)])
  return claim

/-- Who confirms a claim. -/
inductive ConfirmedVia where
  | staff
  | bank
  deriving DecidableEq, Repr

/-- The movement that backs a claim: the one that the caller names, or else the one that the bank
has matched with the claim. -/
def Db.backingMovement? (s : Db) (restaurantId claimId : Uuid) (bankMovementId : Option Uuid) :
    Option Uuid :=
  bankMovementId.or (((s.bankMatches.find? claimId).filter fun m =>
    m.restaurantId = restaurantId ∧ m.outcome = "MATCHED").bind (·.movementId))

/-- `UPDATE bank_movements SET matched_payment_id = $1 WHERE … AND matched_payment_id IS NULL`, and
the check of its row count. -/
def markMovement (restaurantId claimId movementId : Uuid) (via : ConfirmedVia) :
    Tx Err Db Unit := do
  let s ← get
  let free := (s.movements.find? movementId).filter fun m =>
    m.restaurantId = restaurantId ∧ m.matchedPaymentId = none
  Tx.require (via = .bank → free.isSome)
    (.api .bankMovementAlreadyUsed "That bank movement already backs another claim" [])
  Tx.require (free.isSome → ∀ m ∈ s.movements.rows, m.matchedPaymentId ≠ some claimId)
    (.uniqueViolation "bank_movements_matched_idx")
  set { s with
    movements := s.movements.updateWhere
      (fun m => m.id = movementId ∧ m.restaurantId = restaurantId ∧ m.matchedPaymentId = none)
      (fun m => { m with matchedPaymentId := some claimId }) fun _ => rfl }

/-- The end of `confirmClaim`: the movement, if there is one. -/
def useBackingMovement (restaurantId claimId : Uuid) (bankMovementId : Option Uuid)
    (via : ConfirmedVia) : Tx Err Db Unit := do
  let s ← get
  match s.backingMovement? restaurantId claimId bankMovementId with
  | some movementId => markMovement restaurantId claimId movementId via
  | none => pure ()

/-- `confirmClaim({ restaurantId, claimId, actor, via, bankMovementId })`. -/
def confirmClaim (restaurantId claimId : Uuid) (via : ConfirmedVia)
    (bankMovementId : Option Uuid) : Tx Err Db PaymentReceipt := Tx.withTransaction do
  let claim ← lockPendingClaim restaurantId claimId
  let applied ← applyToBill restaurantId claim.billId claim.amountVes
  let settled ← transitionPayment restaurantId claim.id .succeeded
    (some (match via with
      | .bank => "Matched to a movement reported by the restaurant bank connection"
      | .staff => "Verified against the restaurant bank account by staff")) .detach
  useBackingMovement restaurantId claim.id bankMovementId via
  return {
    settlement := settlementView applied, paymentId := claim.id,
    shareDetached := settled.shareDetached, tipVes := claim.tipVes,
    totalChargedVes := claim.amountVes + claim.tipVes }

/-- `rejectClaim({ restaurantId, claimId, reason, actor })`. -/
def rejectClaim (restaurantId claimId : Uuid) (reason : Option String) : Tx Err Db Moved :=
  Tx.withTransaction do
    let claim ← lockPendingClaim restaurantId claimId
    transitionPayment restaurantId claim.id .failed
      (some (reason.getD "Not found in the restaurant bank account"))

/-! ## What they do to accounts -/

section Effects

variable {s s' : Db} {restaurantId billId : Uuid}

theorem lockPayableBill_ok {amount : Int} {bill : Bill}
    (h : (lockPayableBill restaurantId billId amount).run s = .ok bill s') :
    s.bill? restaurantId billId = some bill ∧ bill.status = .open ∧
      amount ≤ bill.totalDueVes - bill.amountPaidVes ∧ s' = s := by
  unfold lockPayableBill at h
  simp only [Tx.bind_ok, Tx.run_get, Tx.orThrow_ok, Tx.require_ok, Tx.pure_ok] at h
  obtain ⟨_, _, ⟨rfl, rfl⟩, _, _, ⟨hbill, rfl⟩, _, _, ⟨hopen, rfl⟩, _, _, ⟨hle, rfl⟩, rfl, rfl⟩ := h
  exact ⟨hbill, hopen, hle, rfl⟩

theorem lockPendingClaim_ok {claimId : Uuid} {claim : Payment}
    (h : (lockPendingClaim restaurantId claimId).run s = .ok claim s') :
    s.payments.find? claimId = some claim ∧ claim.id = claimId ∧ claim.status = .pending ∧
      claim.paymentMethod = .pagoMovil ∧ s' = s := by
  unfold lockPendingClaim at h
  simp only [Tx.bind_ok, Tx.run_get, Tx.orThrow_ok, Tx.require_ok, Tx.pure_ok,
    Option.filter_eq_some_iff, decide_eq_true_eq] at h
  obtain ⟨_, _, ⟨rfl, rfl⟩, _, _, ⟨⟨hclaim, hmethod⟩, rfl⟩, _, _, ⟨hpending, rfl⟩, rfl, rfl⟩ := h
  obtain ⟨hfind, -⟩ := payment?_eq_some.mp hclaim
  exact ⟨hfind, Table.find?_key hfind, hpending, hmethod, rfl⟩

/-- A payment that is written without settling. -/
theorem recordPayment_effect {own : Option Uuid} {id : Uuid} {now : Time} {p : NewPayment}
    {row : Payment} (hstatus : p.status.counted = false)
    (h : (recordPayment id now p).run s = .ok row s') : Effect own s s' := by
  obtain ⟨hrow, -, payments, transitions, shares, hins, rfl⟩ := recordPayment_ok h
  refine .of_insert (.frame rfl (fun k => ?_) rfl) hins
  have hshare := share_of_not_counted (p := row) (by rw [hrow.status, hstatus]) k
  rw [settled_insert hins k, hshare, add_zero]

theorem declareClaim_effect {paymentId : Uuid} {now : Time} {c : ClaimRequest} {row : Payment}
    (h : (declareClaim paymentId now c).run s = .ok row s') : Effect none s s' := by
  unfold declareClaim at h
  simp only [Tx.bind_ok, Tx.orThrow_ok, Tx.mapError_ok, Tx.withTransaction_ok] at h
  obtain ⟨amount, _, ⟨-, rfl⟩, bill, s₁, hlock, hrec⟩ := h
  obtain ⟨-, -, -, rfl⟩ := lockPayableBill_ok hlock
  exact recordPayment_effect rfl hrec

theorem useBackingMovement_ok {claimId : Uuid} {bankMovementId : Option Uuid} {via : ConfirmedVia}
    {u : Unit} (h : (useBackingMovement restaurantId claimId bankMovementId via).run s = .ok u s') :
    ∃ movements, s' = { s with movements } := by
  unfold useBackingMovement at h
  rw [Tx.bind_of_ok Tx.run_get] at h
  split at h
  · simp only [markMovement, Tx.bind_ok, Tx.run_get, Tx.require_ok, Tx.run_set] at h
    obtain ⟨_, _, ⟨rfl, rfl⟩, _, _, ⟨-, rfl⟩, _, _, ⟨-, rfl⟩, ⟨-, rfl⟩⟩ := h
    exact ⟨_, rfl⟩
  · exact ⟨s.movements, (Tx.pure_ok.mp h).2⟩

theorem confirmClaim_effect {claimId : Uuid} {via : ConfirmedVia} {bankMovementId : Option Uuid}
    {r : PaymentReceipt}
    (h : (confirmClaim restaurantId claimId via bankMovementId).run s = .ok r s') :
    Effect none s s' := by
  unfold confirmClaim at h
  simp only [Tx.withTransaction_ok, Tx.bind_ok, Tx.pure_ok] at h
  obtain ⟨claim, _, hlock, applied, s₁, happly, moved, s₂, hmove, _, s₃, huse, -, rfl⟩ := h
  obtain ⟨hfind, rfl, hpending, hmethod, rfl⟩ := lockPendingClaim_ok hlock
  have hnot : ¬claim.InFlight := fun hfl => by
    have := hfl.2.1
    rw [hmethod] at this
    cases this
  obtain ⟨movements, rfl⟩ := useBackingMovement_ok huse
  exact (settle_effect hfind (.inl hnot) (.inl hpending) happly hmove).trans (.of_frame rfl rfl rfl)

theorem rejectClaim_effect {claimId : Uuid} {reason : Option String} {r : Moved}
    (h : (rejectClaim restaurantId claimId reason).run s = .ok r s') : Effect none s s' := by
  unfold rejectClaim at h
  simp only [Tx.withTransaction_ok, Tx.bind_ok] at h
  obtain ⟨claim, _, hlock, hmove⟩ := h
  obtain ⟨hfind, rfl, hpending, hmethod, rfl⟩ := lockPendingClaim_ok hlock
  have hnot : ¬claim.InFlight := fun hfl => by
    have := hfl.2.1
    rw [hmethod] at this
    cases this
  exact move_effect (.inr (.inr rfl)) hfind (.inl hnot) hmove

end Effects

end Splite
