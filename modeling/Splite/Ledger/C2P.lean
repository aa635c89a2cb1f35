import Splite.Ledger.Claims
import Splite.Mercantil.Charge

/-!
# Charges by Mercantil (`services/mercantilC2P.js`)

`createC2PPayment` and `resolveC2PPayment` ask the bank between two transactions, so each is given
as its transactions, in order. A charge is submitted, and its reply is followed by one of three
transactions; a charge in doubt is read, matched against the movements that the bank shows, and
moved under its lock.

* `submitCharge_effect`: a charge is written `PENDING`, under an id that no payment has.
* `settleApproved_effect`, `moveTo_effect`, `parkUnappliable_effect`: what follows the reply is about
  the charge's own payment.
* `settleResolution_effect`, `expireResolution_effect`: what follows a resolution finds no charge in
  flight.
-/

namespace Splite

open Mercantil (Verdict Movement Match canonicalReference matchInDoubtPayment)

def RESOLUTION_WINDOW_MAX_MS : Nat := 6 * 60 * 60 * 1000

def SETTLEMENT_WINDOW_MINUTES : Nat := 15

/-- `hex(uuid)`: the 32 digits of a UUID. -/
def hex (uuid : Uuid) : List Char :=
  let digits := (Nat.toDigits 16 uuid).map Char.toUpper
  List.replicate (32 - digits.length) '0' ++ digits

/-- `buildInvoiceNumber({ restaurantId, paymentId })`. -/
def buildInvoiceNumber (restaurantId paymentId : Uuid) : String :=
  String.ofList ("SPL-".toList ++ (hex restaurantId).take 8 ++ ['-'] ++ hex paymentId)

/-- `lastFour(phone)`. -/
def lastFour (phone : String) : String :=
  let digits := (Mercantil.digitsOnly phone).toList
  let last := digits.drop (digits.length - 4)
  String.ofList (List.replicate (4 - last.length) '0' ++ last)

/-- `referenceFor(result)`. -/
def referenceFor (providerPaymentId bankReference : Option String) : Option String :=
  (bankReference.bind canonicalReference).or (providerPaymentId.bind canonicalReference)

/-- `logAttempt(client, { … })`. -/
def logAttempt (attempt : ResolutionAttempt) : Tx Err Db Unit :=
  modify fun s => { s with attempts := s.attempts ++ [attempt] }

/-- `asReferenceConflict(err, reference)`. -/
def asReferenceConflict (reference : Option String) : Err → Err
  | .uniqueViolation "payments_provider_reference_idx" =>
    .api .paymentReferenceAlreadyUsed "That bank movement has already settled another payment"
      [("reference", reference.getD "null")]
  | err => err

/-! ## Raising a charge -/

/-- The argument of `createC2PPayment`. -/
structure ChargeRequest where
  restaurantId : Uuid
  billId : Uuid
  amountVes : Option Int
  payer : Mercantil.Payer
  idempotencyKey : Option String := none
  splitParticipantId : Option Uuid := none
  tipVes : Option Int := some 0

/-- `INSERT INTO c2p_charges …`. -/
def insertCharge (charge : C2PCharge) : Tx Err Db Unit := do
  let s ← get
  let charges ← Tx.orThrow (s.charges.insert? charge) (.uniqueViolation "c2p_charges_pkey")
  Tx.require (∀ c ∈ s.charges.rows,
      ¬(c.restaurantId = charge.restaurantId ∧ c.invoiceNumber = charge.invoiceNumber))
    (.uniqueViolation "c2p_charges_invoice_unique")
  set { s with charges }

/-- `createC2PPayment`, up to the commit that comes before the bank is asked. -/
def submitCharge (paymentId : Uuid) (now : Time) (r : ChargeRequest) : Tx Err Db Payment := do
  let amount ← Tx.orThrow (toPaymentAmount r.amountVes)
    (.api .invalidAmount "Invalid payment amount" [])
  let tip ← Tx.orThrow (toTipAmount r.tipVes) (.api .invalidAmount "Invalid tip amount" [])
  Tx.withTransaction do
    let _ ← lockPayableBill r.restaurantId r.billId amount
    let created ← recordPayment paymentId now
      { restaurantId := r.restaurantId, billId := r.billId, amountVes := amount, status := .pending,
        paymentMethod := .c2p, provider := some .mercantil, idempotencyKey := r.idempotencyKey,
        splitParticipantId := r.splitParticipantId, tipVes := tip,
        reason := some "C2P charge submitted to Mercantil" }
    insertCharge
      { paymentId := created.id, restaurantId := r.restaurantId,
        invoiceNumber := buildInvoiceNumber r.restaurantId created.id,
        payerBankCode := r.payer.bankCode, payerPhoneLast4 := lastFour r.payer.phone,
        lastResolutionAt := none }
    return created

/-- `moveTo(payment, restaurantId, toStatus, reason)`. -/
def moveTo (restaurantId paymentId : Uuid) (toStatus : PaymentStatus) (reason : String) :
    Tx Err Db Moved :=
  Tx.withTransaction (transitionPayment restaurantId paymentId toStatus (some reason))

/-- `if (reference) UPDATE payments SET provider_payment_id = …`. -/
def writeReference (restaurantId paymentId : Uuid) (reference : Option String) : Tx Err Db Unit :=
  match reference with
  | some reference => do
    let _ ← setReference restaurantId paymentId (some reference)
  | none => pure ()

/-- The transaction that follows an approval. -/
def settleApproved (restaurantId billId paymentId : Uuid) (amount : Int)
    (reference : Option String) (now : Time) : Tx Err Db SettlementView := Tx.withTransaction do
  writeReference restaurantId paymentId reference
  let applied ← applyToBill restaurantId billId amount
  let _ ← transitionPayment restaurantId paymentId .succeeded (some "Confirmed by Mercantil")
  touchCharge paymentId now
  return settlementView applied

/-- What `parkUnappliable` is called with, besides the payment. -/
structure Parking where
  reference : Option String
  err : Err
  /-- The user of a resolution that is parked; `none` for a charge that was just approved. -/
  attempt : Option (Option Uuid)
  deriving DecidableEq, Repr

/-- `conflict`, the error as a client would read it. -/
def Parking.conflict (p : Parking) : Err := asReferenceConflict p.reference p.err

/-- `reason`. -/
def Parking.reason (p : Parking) : String :=
  match p.conflict with
  | .api _ message _ => message
  | _ => "Bank confirmed the debit but it could not be applied to the bill"

/-- The attempt of a resolution that is parked. -/
def logParked (restaurantId paymentId : Uuid) (parking : Parking) (now : Time) : Tx Err Db Unit :=
  match parking.attempt with
  | some actorUserId => do
    touchCharge paymentId now
    logAttempt ⟨paymentId, restaurantId, "UNAPPLIABLE", parking.reference.toList,
      some parking.reason, actorUserId⟩
  | none => pure ()

/-- The transaction of `parkUnappliable({ … })`. -/
def parkUnappliable (restaurantId paymentId : Uuid) (parking : Parking) (now : Time) :
    Tx Err Db Unit := Tx.withTransaction do
  -- A reference that another payment owns would collide with it once more.
  writeReference restaurantId paymentId
    (if parking.conflict.apiCode = some .paymentReferenceAlreadyUsed then none
      else parking.reference)
  let _ ← transitionPayment restaurantId paymentId .ambiguous (some parking.reason)
  logParked restaurantId paymentId parking now

/-! ## Resolving a charge in doubt -/

/-- What `resolveC2PPayment` reads first, and what it goes on with until it is done. -/
structure ChargeSnapshot where
  restaurantId : Uuid
  paymentId : Uuid
  status : PaymentStatus
  billId : Uuid
  amountVes : Int
  tipVes : Int
  createdAt : Time
  invoiceNumber : String
  payerPhoneLast4 : String
  deriving DecidableEq, Repr

/-- The first query of `resolveC2PPayment`. -/
def readCharge (restaurantId paymentId : Uuid) : Tx Err Db ChargeSnapshot := do
  let s ← get
  let p ← Tx.orThrow (s.payment? restaurantId paymentId)
    (.api .paymentClaimNotFound "C2P charge not found" [])
  let c ← Tx.orThrow (s.charges.find? paymentId)
    (.api .paymentClaimNotFound "C2P charge not found" [])
  return {
    restaurantId, paymentId, status := p.status, billId := p.billId, amountVes := p.amountVes,
    tipVes := p.tipVes, createdAt := p.createdAt, invoiceNumber := c.invoiceNumber,
    payerPhoneLast4 := c.payerPhoneLast4 }

/-- The charge is older than what the bank can be asked about. -/
def ChargeSnapshot.Expired (c : ChargeSnapshot) (now : Time) : Prop :=
  c.createdAt + RESOLUTION_WINDOW_MAX_MS < now

instance (c : ChargeSnapshot) (now : Time) : Decidable (c.Expired now) :=
  inferInstanceAs (Decidable (_ < _))

/-- `chargedVes`. -/
def ChargeSnapshot.chargedVes (c : ChargeSnapshot) : Int := c.amountVes + c.tipVes

/-- The reason of a charge that has expired. -/
def expiredReason : String :=
  "Charge is older than the bank search window; it cannot be resolved automatically"

/-- The transaction of a charge that has expired. -/
def expireResolution (c : ChargeSnapshot) (now : Time) (actorUserId : Option Uuid) :
    Tx Err Db Unit := Tx.withTransaction do
  touchCharge c.paymentId now
  let _ ← transitionPayment c.restaurantId c.paymentId .ambiguous (some expiredReason)
  logAttempt ⟨c.paymentId, c.restaurantId, "WINDOW_EXPIRED", [], some expiredReason, actorUserId⟩

/-- The references among the movements that payments of this provider carry already. -/
def Db.consumedReferences (s : Db) (movements : List Movement) : List String :=
  let references := movements.filterMap fun m => canonicalReference m.reference
  (s.payments.rows.filter fun p =>
    p.provider = some .mercantil ∧ ∃ r ∈ p.providerPaymentId, r ∈ references).filterMap fun p =>
      p.providerPaymentId.bind canonicalReference

/-- What `resolveC2PPayment` answers with, once it is under the lock. -/
inductive Resolution where
  | alreadyResolved (status : PaymentStatus)
  | settled (bankReference : Option String) (settlement : SettlementView)
  | ambiguous (reason : String) (candidates : List (Option String))
  | stillInDoubt
  | failed

/-- The attempt that `resolveC2PPayment` logs. -/
def ChargeSnapshot.attempt (c : ChargeSnapshot) (actorUserId : Option Uuid) (outcome : String)
    (candidates : List (Option String)) (reason : Option String) : ResolutionAttempt :=
  ⟨c.paymentId, c.restaurantId, outcome, candidates.filterMap id, reason, actorUserId⟩

/-- The last transaction of `resolveC2PPayment`; the age of the charge is the one that it had when
the charge was read, at `askedAt`. -/
def settleResolution (c : ChargeSnapshot) (found : Match) (askedAt now : Time)
    (actorUserId : Option Uuid) : Tx Err Db Resolution := Tx.withTransaction do
  let s ← get
  let locked ← Tx.orThrow (s.payment? c.restaurantId c.paymentId)
    (.error "Cannot read properties of undefined (reading 'status')")
  if locked.status ≠ .inDoubt then
    logAttempt (c.attempt actorUserId "ALREADY_RESOLVED" []
      (some ("Resolved as " ++ locked.status.text ++ " while the bank was being queried")))
    return .alreadyResolved locked.status
  else
    touchCharge c.paymentId now
    match found with
    | .matched movement =>
      let reference := canonicalReference movement.reference
      let _ ← setReference c.restaurantId c.paymentId reference
      let applied ← applyToBill c.restaurantId locked.billId locked.amountVes
      let _ ← transitionPayment c.restaurantId c.paymentId .succeeded
        (some "Matched to a bank movement on amount and payer phone")
      logAttempt (c.attempt actorUserId "MATCHED" [reference] none)
      return .settled reference (settlementView applied)
    | .ambiguous candidates reason =>
      let _ ← transitionPayment c.restaurantId c.paymentId .ambiguous (some reason)
      logAttempt (c.attempt actorUserId "AMBIGUOUS" candidates (some reason))
      return .ambiguous reason candidates
    | .noMatch =>
      if askedAt < c.createdAt + SETTLEMENT_WINDOW_MINUTES * 60000 then
        logAttempt (c.attempt actorUserId "PENDING_WINDOW" []
          (some "Still inside the settlement window"))
        return .stillInDoubt
      else
        let _ ← transitionPayment c.restaurantId c.paymentId .failed
          (some "No matching movement after the settlement window")
        logAttempt (c.attempt actorUserId "NO_MATCH" []
          (some "No matching movement after the settlement window"))
        return .failed

/-- `UNAPPLIABLE_CODES`. -/
def UNAPPLIABLE_CODES : List Code :=
  [.billNotFound, .billNotOpen, .paymentExceedsBalance, .splitStale, .splitNotActive,
    .splitShareOverpaid, .splitShareNotFound]

/-- The reference of the movement that was matched. -/
def matchedReference : Match → Option String
  | .matched movement => canonicalReference movement.reference
  | _ => none

/-- The `catch` around the last transaction: the error is answered with, or the charge is parked. -/
def unappliable (found : Match) (err : Err) (actorUserId : Option Uuid) : Option Parking :=
  match found with
  | .matched _ =>
    if ∃ code ∈ (asReferenceConflict (matchedReference found) err).apiCode,
        code ∈ UNAPPLIABLE_CODES then
      some ⟨matchedReference found, err, some actorUserId⟩
    else none
  | _ => none

/-! ## What they do to accounts -/

section Effects

variable {s s' : Db} {restaurantId paymentId : Uuid} {own : Option Uuid} {p : Payment}

theorem insertCharge_ok {charge : C2PCharge} {u : Unit}
    (h : (insertCharge charge).run s = .ok u s') :
    ∃ charges, s.charges.insert? charge = some charges ∧ s' = { s with charges } := by
  unfold insertCharge at h
  simp only [Tx.bind_ok, Tx.run_get, Tx.orThrow_ok, Tx.require_ok, Tx.run_set] at h
  obtain ⟨_, _, ⟨rfl, rfl⟩, charges, _, ⟨hins, rfl⟩, _, _, ⟨-, rfl⟩, ⟨-, rfl⟩⟩ := h
  exact ⟨charges, hins, rfl⟩

theorem submitCharge_effect {now : Time} {r : ChargeRequest} {row : Payment}
    (h : (submitCharge paymentId now r).run s = .ok row s') :
    Effect none s s' ∧ row ∈ s'.payments ∧ (∀ q ∈ s.payments, q.id ≠ row.id) ∧ row.InFlight ∧
      row.restaurantId = r.restaurantId ∧ row.billId = r.billId := by
  unfold submitCharge at h
  simp only [Tx.bind_ok, Tx.orThrow_ok, Tx.withTransaction_ok, Tx.pure_ok] at h
  obtain ⟨amount, _, ⟨-, rfl⟩, tip, _, ⟨-, rfl⟩, bill, s₁, hlock, created, s₂, hrec, _, s₃, hins, rfl,
    rfl⟩ := h
  obtain ⟨-, -, -, rfl⟩ := lockPayableBill_ok hlock
  have heff : Effect none s₁ s₂ := recordPayment_effect rfl hrec
  obtain ⟨hrow, -, payments, transitions, shares, hpay, rfl⟩ := recordPayment_ok hrec
  obtain ⟨charges, -, rfl⟩ := insertCharge_ok hins
  refine ⟨heff.trans (.of_frame rfl rfl rfl), (Table.mem_insert? hpay).mpr (.inr rfl),
    (Table.insert?_eq_some.mp hpay).1, ?_, hrow.restaurantId, hrow.billId⟩
  exact ⟨hrow.status, hrow.paymentMethod, hrow.provider⟩

theorem moveTo_effect {toStatus : PaymentStatus} {reason : String} {m : Moved}
    (hto : toStatus = .inDoubt ∨ toStatus = .ambiguous ∨ toStatus = .failed)
    (hp : s.payments.find? paymentId = some p) (hown : ¬p.InFlight ∨ own = some paymentId)
    (h : (moveTo restaurantId paymentId toStatus reason).run s = .ok m s') : Effect own s s' :=
  move_effect hto hp hown (Tx.withTransaction_ok.mp h)

theorem touchCharge_ok {now : Time} {u : Unit} (h : (touchCharge paymentId now).run s = .ok u s') :
    ∃ charges : Table C2PCharge,
      charges.rows.map C2PCharge.paymentId = s.charges.rows.map C2PCharge.paymentId ∧
      s' = { s with charges } := by
  obtain ⟨-, rfl⟩ := by simpa [touchCharge] using h
  exact ⟨_, Table.keys_updateWhere, rfl⟩

theorem writeReference_effect {reference : Option String} {u : Unit}
    (hp : s.payments.find? paymentId = some p) (hown : ¬p.InFlight ∨ own = some paymentId)
    (h : (writeReference restaurantId paymentId reference).run s = .ok u s') :
    Effect own s s' ∧ ∃ reference', s'.payments.find? paymentId = some (p.withReference reference') := by
  unfold writeReference at h
  split at h
  · simp only [Tx.bind_ok, Tx.pure_ok] at h
    obtain ⟨_, _, hset, -, rfl⟩ := h
    exact setReference_effect hp hown hset
  · obtain ⟨-, rfl⟩ := Tx.pure_ok.mp h
    exact ⟨.refl own _, p.providerPaymentId, hp⟩

/-- An approval credits the bill with what the payment was recorded with. -/
theorem settleApproved_effect {reference : Option String} {now : Time} {v : SettlementView}
    (hp : s.payments.find? paymentId = some p) (hpending : p.status = .pending)
    (h : (settleApproved restaurantId p.billId paymentId p.amountVes reference now).run s =
      .ok v s') : Effect (some paymentId) s s' := by
  unfold settleApproved at h
  simp only [Tx.withTransaction_ok, Tx.bind_ok, Tx.pure_ok] at h
  obtain ⟨_, s₁, href, applied, s₂, happly, _, s₃, hmove, _, s₄, htouch, -, rfl⟩ := h
  obtain ⟨charges, -, rfl⟩ := touchCharge_ok htouch
  obtain ⟨heff, reference', hp₁⟩ := writeReference_effect hp (.inr rfl) href
  have hsettle : Effect (some paymentId) s₁ s₃ :=
    settle_effect hp₁ (.inr rfl) (.inl hpending) happly hmove
  exact (heff.trans hsettle).trans (.of_frame rfl rfl rfl)

theorem logParked_ok {parking : Parking} {now : Time} {u : Unit}
    (h : (logParked restaurantId paymentId parking now).run s = .ok u s') :
    ∃ charges attempts, s' = { s with charges, attempts } := by
  unfold logParked at h
  split at h
  · simp only [Tx.bind_ok, logAttempt, Tx.run_modify] at h
    obtain ⟨_, s₁, htouch, ⟨rfl, rfl⟩⟩ := h
    obtain ⟨charges, -, rfl⟩ := touchCharge_ok htouch
    exact ⟨charges, _, rfl⟩
  · exact ⟨s.charges, s.attempts, (Tx.pure_ok.mp h).2⟩

theorem parkUnappliable_effect {parking : Parking} {now : Time} {u : Unit}
    (hp : s.payments.find? paymentId = some p) (hown : ¬p.InFlight ∨ own = some paymentId)
    (h : (parkUnappliable restaurantId paymentId parking now).run s = .ok u s') :
    Effect own s s' := by
  unfold parkUnappliable at h
  simp only [Tx.withTransaction_ok, Tx.bind_ok] at h
  obtain ⟨_, s₁, href, _, s₂, hmove, hlog⟩ := h
  obtain ⟨heff, reference', hp₁⟩ := writeReference_effect hp hown href
  obtain ⟨charges, attempts, rfl⟩ := logParked_ok hlog
  have hmove' : Effect own s₁ s₂ := move_effect (.inr (.inl rfl)) hp₁ hown hmove
  exact (heff.trans hmove').trans (.of_frame rfl rfl rfl)

theorem readCharge_ok {c : ChargeSnapshot}
    (h : (readCharge restaurantId paymentId).run s = .ok c s') :
    s' = s ∧ c.paymentId = paymentId ∧ c.restaurantId = restaurantId ∧
      ∃ p, s.payment? restaurantId paymentId = some p ∧ c.status = p.status ∧
        c.billId = p.billId ∧ c.amountVes = p.amountVes ∧ c.tipVes = p.tipVes := by
  unfold readCharge at h
  simp only [Tx.bind_ok, Tx.run_get, Tx.orThrow_ok, Tx.pure_ok] at h
  obtain ⟨_, _, ⟨rfl, rfl⟩, p, _, ⟨hp, rfl⟩, charge, _, ⟨-, rfl⟩, rfl, rfl⟩ := h
  exact ⟨rfl, rfl, rfl, p, hp, rfl, rfl, rfl, rfl⟩

theorem expireResolution_effect {c : ChargeSnapshot} {now : Time} {actorUserId : Option Uuid}
    {u : Unit} (hp : s.payments.find? c.paymentId = some p) (hnot : ¬p.InFlight)
    (h : (expireResolution c now actorUserId).run s = .ok u s') : Effect own s s' := by
  unfold expireResolution at h
  simp only [Tx.withTransaction_ok, Tx.bind_ok, logAttempt, Tx.run_modify] at h
  obtain ⟨_, s₁, htouch, _, s₂, hmove, ⟨-, rfl⟩⟩ := h
  obtain ⟨charges, -, rfl⟩ := touchCharge_ok htouch
  have hbefore : Effect own s { s with charges } := .of_frame rfl rfl rfl
  have hmove' : Effect own { s with charges } s₂ :=
    move_effect (.inr (.inl rfl)) hp (.inl hnot) hmove
  exact (hbefore.trans hmove').trans (.of_frame rfl rfl rfl)

/-- A resolution credits the bill of the charge, moves the charge without settling it, or finds that
another one came first. -/
theorem settleResolution_effect {c : ChargeSnapshot} {found : Match} {askedAt now : Time}
    {actorUserId : Option Uuid} {r : Resolution}
    (h : (settleResolution c found askedAt now actorUserId).run s = .ok r s') :
    Effect none s s' := by
  unfold settleResolution at h
  simp only [Tx.withTransaction_ok, Tx.bind_ok, Tx.run_get, Tx.orThrow_ok] at h
  obtain ⟨_, _, ⟨rfl, rfl⟩, locked, s₀, ⟨hlocked, rfl⟩, h⟩ := h
  obtain ⟨hfind, -⟩ := payment?_eq_some.mp hlocked
  split at h
  · simp only [Tx.bind_ok, logAttempt, Tx.run_modify, Tx.pure_ok] at h
    obtain ⟨_, _, ⟨-, rfl⟩, -, rfl⟩ := h
    exact .of_frame rfl rfl rfl
  rename_i hdoubt
  have hdoubt : locked.status = .inDoubt := not_not.mp hdoubt
  have hnot : ¬locked.InFlight := fun hfl => by
    rw [hfl.1] at hdoubt
    cases hdoubt
  rw [Tx.bind_ok] at h
  obtain ⟨_, s₁, htouch, h⟩ := h
  obtain ⟨charges, -, rfl⟩ := touchCharge_ok htouch
  have hbefore : Effect none s₀ { s₀ with charges } := .of_frame rfl rfl rfl
  refine hbefore.trans ?_
  cases found with
  | matched movement =>
    simp only [Tx.bind_ok, logAttempt, Tx.run_modify, Tx.pure_ok] at h
    obtain ⟨_, s₁, href, applied, s₂, happly, _, s₃, hmove, _, _, ⟨-, rfl⟩, -, rfl⟩ := h
    have hfind₁ : ({ s₀ with charges } : Db).payments.find? c.paymentId = some locked := hfind
    obtain ⟨heff, reference', hp₁⟩ := setReference_effect hfind₁ (.inl hnot) href
    have hsettle : Effect none s₁ s₃ :=
      settle_effect hp₁ (.inl hnot) (.inr hdoubt) happly hmove
    exact (heff.trans hsettle).trans (.of_frame rfl rfl rfl)
  | ambiguous candidates reason =>
    simp only [Tx.bind_ok, logAttempt, Tx.run_modify, Tx.pure_ok] at h
    obtain ⟨_, s₁, hmove, _, _, ⟨-, rfl⟩, -, rfl⟩ := h
    have hmove' : Effect none { s₀ with charges } s₁ :=
      move_effect (.inr (.inl rfl)) hfind (.inl hnot) hmove
    exact hmove'.trans (.of_frame rfl rfl rfl)
  | noMatch =>
    dsimp only at h
    split at h
    · simp only [Tx.bind_ok, logAttempt, Tx.run_modify, Tx.pure_ok] at h
      obtain ⟨_, _, ⟨-, rfl⟩, -, rfl⟩ := h
      exact .of_frame rfl rfl rfl
    · simp only [Tx.bind_ok, logAttempt, Tx.run_modify, Tx.pure_ok] at h
      obtain ⟨_, s₁, hmove, _, _, ⟨-, rfl⟩, -, rfl⟩ := h
      have hmove' : Effect none { s₀ with charges } s₁ :=
        move_effect (.inr (.inr rfl)) hfind (.inl hnot) hmove
      exact hmove'.trans (.of_frame rfl rfl rfl)

end Effects

end Splite
