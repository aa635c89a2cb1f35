import Splite.Basic
import Splite.Lib.Account
import Splite.Lib.Table
import Splite.Lib.Tx

/-!
# The database of the ledger (`migrations/`)

The tables that bills, payments and splits are kept in, and the statements that write them, with
the checks, unique indexes, foreign keys and triggers that refuse a statement.

* `updatePayment_ok`: no `UPDATE` changes what a payment settles, and its status only moves along
  `ALLOWED_TRANSITIONS`.
* `insertPayment_ok`, `updateBill_ok`, `updateShare_ok`: what the other statements write.
* `Db.settled`, `Db.adjusted`: the two sums that a bill is checked against.
-/

namespace Splite

inductive Currency where
  | ves
  | usd
  | eur
  deriving DecidableEq, Repr

/-- `bills.status`. -/
abbrev BillStatus := Account.Status

/-- `payments.status`. -/
inductive PaymentStatus where
  | pending
  | inDoubt
  | ambiguous
  | succeeded
  | failed
  | cancelled
  | refunded
  | partiallyRefunded
  deriving DecidableEq, Repr

def BillStatus.text : BillStatus → String
  | .open => "OPEN"
  | .closed => "CLOSED"
  | .void => "VOID"

def PaymentStatus.text : PaymentStatus → String
  | .pending => "PENDING"
  | .inDoubt => "IN_DOUBT"
  | .ambiguous => "AMBIGUOUS"
  | .succeeded => "SUCCEEDED"
  | .failed => "FAILED"
  | .cancelled => "CANCELLED"
  | .refunded => "REFUNDED"
  | .partiallyRefunded => "PARTIALLY_REFUNDED"

/-- The statuses that `payment_ledger_drift` counts. -/
def PaymentStatus.counted : PaymentStatus → Bool
  | .succeeded | .partiallyRefunded => true
  | _ => false

/-- `ALLOWED_TRANSITIONS`, and the trigger `payments_guard_transition`, which repeats it. -/
def PaymentStatus.ALLOWED_TRANSITIONS : PaymentStatus → List PaymentStatus
  | .pending => [.inDoubt, .ambiguous, .succeeded, .failed, .cancelled]
  | .inDoubt => [.ambiguous, .succeeded, .failed]
  | .ambiguous => [.succeeded, .failed]
  | .succeeded => [.partiallyRefunded, .refunded]
  | .partiallyRefunded => [.partiallyRefunded, .refunded]
  | .failed | .cancelled | .refunded => []

inductive PaymentMethod where
  | cash
  | card
  | transfer
  | pagoMovil
  | c2p
  | splite
  | other
  deriving DecidableEq, Repr

/-- `payments.provider`, and the path segment of a webhook. -/
inductive Provider where
  | splite
  | mercantil
  deriving DecidableEq, Repr

inductive SplitMode where
  | full
  | equal
  | items
  | custom
  deriving DecidableEq, Repr

inductive SplitStatus where
  | active
  | stale
  | void
  deriving DecidableEq, Repr

def SplitStatus.text : SplitStatus → String
  | .active => "ACTIVE"
  | .stale => "STALE"
  | .void => "VOID"

inductive TaxCategory where
  | taxable
  | exempt
  | exonerated
  | nonTaxable
  deriving DecidableEq, Repr

inductive AdjustmentReason where
  | discount
  | comp
  | writeOff
  deriving DecidableEq, Repr

/-! ## Rows -/

/-- A row of `bills`; the rate is times 10^8. -/
structure Bill where
  id : Uuid
  restaurantId : Uuid
  status : BillStatus
  currency : Currency
  subtotalMinor : Int
  vatBps : Int
  vatMinor : Int
  serviceChargeBps : Int
  serviceChargeMinor : Int
  totalDue : Int
  totalDueVes : Int
  amountPaidVes : Int
  fxRateVesPerUnit : Option Int
  fxRateSource : Option String
  deriving DecidableEq, Repr

/-- The first `CHECK` that a row breaks. -/
def Bill.violated (b : Bill) : Option String :=
  if b.totalDueVes < 0 then some "bills_total_due_ves_check"
  else if b.amountPaidVes < 0 then some "bills_amount_paid_ves_check"
  else if b.totalDueVes < b.amountPaidVes then some "bills_amount_paid_ves_within_total"
  else if b.subtotalMinor < 0 ∨ b.serviceChargeMinor < 0 ∨ b.vatMinor < 0 then
    some "bills_charges_non_negative"
  else if b.totalDue ≠ b.subtotalMinor + b.serviceChargeMinor + b.vatMinor then
    some "bills_total_is_sum_of_parts"
  else none

theorem Bill.paid_le_of_checked {b : Bill} (h : b.violated = none) :
    b.amountPaidVes ≤ b.totalDueVes := by
  grind [Bill.violated]

theorem Bill.nonneg_of_checked {b : Bill} (h : b.violated = none) :
    0 ≤ b.subtotalMinor ∧ 0 ≤ b.amountPaidVes := by
  grind [Bill.violated]

/-- A row of `menu_products`. -/
structure Product where
  id : Uuid
  restaurantId : Uuid
  name : String
  priceMinorUnits : Int
  currency : Currency
  active : Bool
  taxCategory : TaxCategory
  vatBps : Option Int
  deriving DecidableEq, Repr

/-- A row of `bill_items`. -/
structure BillItem where
  id : Uuid
  restaurantId : Uuid
  billId : Uuid
  productId : Option Uuid
  nameSnapshot : String
  unitPriceMinor : Int
  currency : Currency
  quantity : Int
  taxCategory : TaxCategory
  vatBps : Option Int
  deriving DecidableEq, Repr

/-- The generated column `subtotal_minor`. -/
def BillItem.subtotalMinor (i : BillItem) : Int := i.unitPriceMinor * i.quantity

def BillItem.violated (i : BillItem) : Option String :=
  if i.unitPriceMinor < 0 then some "bill_items_unit_price_minor_check"
  else if i.quantity ≤ 0 ∨ 999 < i.quantity then some "bill_items_quantity_check"
  else none

theorem BillItem.priced {i : BillItem} (h : i.violated = none) :
    0 ≤ i.unitPriceMinor ∧ 0 < i.quantity := by
  grind [BillItem.violated]

theorem BillItem.subtotal_nonneg {i : BillItem} (h : i.violated = none) : 0 ≤ i.subtotalMinor :=
  mul_nonneg (BillItem.priced h).1 (BillItem.priced h).2.le

/-- A row of `payments`, whose amount is positive and whose tip is not negative. -/
structure Payment where
  id : Uuid
  restaurantId : Uuid
  billId : Uuid
  amountVes : Int
  tipVes : Int
  status : PaymentStatus
  paymentMethod : PaymentMethod
  provider : Option Provider
  providerPaymentId : Option String
  declaredReference : Option String
  idempotencyKey : Option String
  splitParticipantId : Option Uuid
  createdAt : Time
  amount_pos : 0 < amountVes
  tip_nonneg : 0 ≤ tipVes
  deriving DecidableEq, Repr

/-- The unique index on which two different rows collide. -/
def Payment.clash (p q : Payment) : Option String :=
  if p.idempotencyKey.isSome ∧ p.restaurantId = q.restaurantId ∧
      p.idempotencyKey = q.idempotencyKey then
    some "payments_idempotency_idx"
  else if p.providerPaymentId.isSome ∧ p.provider = q.provider ∧
      p.providerPaymentId = q.providerPaymentId then
    some "payments_provider_reference_idx"
  else if p.declaredReference.isSome ∧ p.restaurantId = q.restaurantId ∧
      p.declaredReference = q.declaredReference ∧
      p.status ∉ [.failed, .cancelled] ∧ q.status ∉ [.failed, .cancelled] then
    some "payments_declared_reference_idx"
  else none

/-- A row of `payment_transitions`. -/
structure PaymentTransition where
  paymentId : Uuid
  restaurantId : Uuid
  fromStatus : Option PaymentStatus
  toStatus : PaymentStatus
  reason : Option String
  deriving DecidableEq, Repr

/-- A row of `bill_splits`. -/
structure BillSplit where
  id : Uuid
  restaurantId : Uuid
  billId : Uuid
  mode : SplitMode
  basisVes : Int
  status : SplitStatus
  deriving DecidableEq, Repr

/-- A row of `bill_split_participants`. -/
structure SplitParticipant where
  id : Uuid
  restaurantId : Uuid
  splitId : Uuid
  extRef : String
  name : Option String
  amountVes : Int
  amountPaidVes : Int
  deriving DecidableEq, Repr

def SplitParticipant.violated (p : SplitParticipant) : Option String :=
  if p.amountPaidVes < 0 then some "bill_split_participants_amount_paid_ves_check"
  else if p.amountVes < p.amountPaidVes then some "bill_split_participants_not_overpaid"
  else none

/-- A row of `bill_adjustments`. -/
structure BillAdjustment where
  id : Uuid
  restaurantId : Uuid
  billId : Uuid
  amountVes : Int
  reason : AdjustmentReason
  note : Option String
  createdBy : Option Uuid
  deriving DecidableEq, Repr

/-- A row of `c2p_charges`. -/
structure C2PCharge where
  paymentId : Uuid
  restaurantId : Uuid
  invoiceNumber : String
  payerBankCode : String
  payerPhoneLast4 : String
  lastResolutionAt : Option Time
  deriving DecidableEq, Repr

/-- A row of `c2p_resolution_attempts`. -/
structure ResolutionAttempt where
  paymentId : Uuid
  restaurantId : Uuid
  outcome : String
  candidateRefs : List String
  reason : Option String
  actorUserId : Option Uuid
  deriving DecidableEq, Repr

/-- A row of `webhook_events_processed`. -/
structure ProcessedEvent where
  provider : Provider
  providerEventId : String
  paymentId : Uuid
  outcome : String
  deriving DecidableEq, Repr

/-- A row of `bank_movements`. -/
structure BankMovement where
  id : Uuid
  restaurantId : Uuid
  matchedPaymentId : Option Uuid
  deriving DecidableEq, Repr

/-- A row of `payment_bank_matches`. -/
structure PaymentBankMatch where
  paymentId : Uuid
  restaurantId : Uuid
  outcome : String
  movementId : Option Uuid
  deriving DecidableEq, Repr

instance : Keyed Bill Uuid := ⟨Bill.id⟩
instance : Keyed Product Uuid := ⟨Product.id⟩
instance : Keyed BillItem Uuid := ⟨BillItem.id⟩
instance : Keyed Payment Uuid := ⟨Payment.id⟩
instance : Keyed BillSplit Uuid := ⟨BillSplit.id⟩
instance : Keyed SplitParticipant Uuid := ⟨SplitParticipant.id⟩
instance : Keyed BillAdjustment Uuid := ⟨BillAdjustment.id⟩
instance : Keyed C2PCharge Uuid := ⟨C2PCharge.paymentId⟩
instance : Keyed ProcessedEvent (Provider × String) := ⟨fun e => (e.provider, e.providerEventId)⟩
instance : Keyed BankMovement Uuid := ⟨BankMovement.id⟩
instance : Keyed PaymentBankMatch Uuid := ⟨PaymentBankMatch.paymentId⟩

structure Db where
  bills : Table Bill
  items : Table BillItem
  products : Table Product
  payments : Table Payment
  transitions : List PaymentTransition
  splits : Table BillSplit
  shares : Table SplitParticipant
  adjustments : Table BillAdjustment
  charges : Table C2PCharge
  attempts : List ResolutionAttempt
  events : Table ProcessedEvent
  movements : Table BankMovement
  bankMatches : Table PaymentBankMatch
  deriving DecidableEq

/-- Everything that a transaction writes is undone when it fails. -/
instance : Rollback Db := ⟨fun before _ => before⟩

@[simp] theorem rollback_db {s s' : Db} : Rollback.rollback s s' = s := rfl

/-! ## Queries -/

/-- `SELECT … FROM bills WHERE id = $1 AND restaurant_id = $2`. -/
def Db.bill? (s : Db) (restaurantId id : Uuid) : Option Bill :=
  (s.bills.find? id).filter (·.restaurantId = restaurantId)

/-- `SELECT … FROM payments WHERE id = $1 AND restaurant_id = $2`. -/
def Db.payment? (s : Db) (restaurantId id : Uuid) : Option Payment :=
  (s.payments.find? id).filter (·.restaurantId = restaurantId)

/-- `COALESCE(SUM(p.amount_ves), 0)` of `payment_ledger_drift`. -/
def Db.settled (s : Db) (billId : Uuid) : Int :=
  s.payments.total fun p => if p.billId = billId ∧ p.status.counted then p.amountVes else 0

/-- What was written off on a bill. -/
def Db.adjusted (s : Db) (billId : Uuid) : Int :=
  s.adjustments.total fun a => if a.billId = billId then a.amountVes else 0

theorem bill?_eq_some {s : Db} {restaurantId id : Uuid} {bill : Bill} :
    s.bill? restaurantId id = some bill ↔
      s.bills.find? id = some bill ∧ bill.restaurantId = restaurantId := by
  simp [Db.bill?, Option.filter_eq_some_iff]

theorem payment?_eq_some {s : Db} {restaurantId id : Uuid} {p : Payment} :
    s.payment? restaurantId id = some p ↔
      s.payments.find? id = some p ∧ p.restaurantId = restaurantId := by
  simp [Db.payment?, Option.filter_eq_some_iff]

/-! ## Statements -/

/-- `UPDATE bills SET … WHERE id = $1`. -/
def updateBill (id : Uuid) (f : Bill → Bill) (hf : ∀ b, (f b).id = b.id) : Tx Err Db Unit := do
  let s ← get
  Tx.forbid ((s.bills.find? id).bind fun bill => (f bill).violated) .checkViolation
  set { s with bills := s.bills.update id f hf }

/-- The columns that `recordPayment` names, with its defaults. -/
structure NewPayment where
  restaurantId : Uuid
  billId : Uuid
  amountVes : Int
  status : PaymentStatus := .succeeded
  paymentMethod : PaymentMethod := .splite
  provider : Option Provider := none
  providerPaymentId : Option String := none
  declaredReference : Option String := none
  idempotencyKey : Option String := none
  tipVes : Int := 0
  splitParticipantId : Option Uuid := none
  reason : Option String := none

/-- The unique index that refuses `p` beside the other rows. -/
def Db.paymentClash (s : Db) (p : Payment) : Option String :=
  s.payments.rows.findSome? fun q => if q.id = p.id then none else p.clash q

/-- `INSERT INTO payments … RETURNING …`; the id and the instant are the column defaults. -/
def insertPayment (id : Uuid) (now : Time) (p : NewPayment) : Tx Err Db Payment := do
  let s ← get
  if h : 0 < p.amountVes ∧ 0 ≤ p.tipVes then
    Tx.require (p.providerPaymentId = none ∨ p.provider.isSome)
      (.checkViolation "payments_provider_pair")
    let row : Payment :=
      { id, createdAt := now, restaurantId := p.restaurantId, billId := p.billId,
        amountVes := p.amountVes, tipVes := p.tipVes, status := p.status,
        paymentMethod := p.paymentMethod, provider := p.provider,
        providerPaymentId := p.providerPaymentId, declaredReference := p.declaredReference,
        idempotencyKey := p.idempotencyKey, splitParticipantId := p.splitParticipantId,
        amount_pos := h.1, tip_nonneg := h.2 }
    let payments ← Tx.orThrow (s.payments.insert? row) (.uniqueViolation "payments_pkey")
    Tx.forbid (s.paymentClash row) .uniqueViolation
    Tx.require (s.bill? p.restaurantId p.billId).isSome
      (.foreignKeyViolation "payments_bill_same_restaurant_fk")
    Tx.require (∀ share ∈ p.splitParticipantId, ∃ r ∈ s.shares.find? share,
        r.restaurantId = p.restaurantId)
      (.foreignKeyViolation "payments_split_participant_same_restaurant_fk")
    set { s with payments }
    return row
  else if 0 < p.amountVes then throw (.checkViolation "payments_tip_non_negative")
  else throw (.checkViolation "payments_amount_ves_check")

/-- `UPDATE payments SET … WHERE id = $1 AND restaurant_id = $2 RETURNING …`, behind the trigger
`payments_guard_transition`. -/
def updatePayment (restaurantId id : Uuid) (f : Payment → Payment) (hf : ∀ p, (f p).id = p.id) :
    Tx Err Db (Option Payment) := do
  let s ← get
  match s.payment? restaurantId id with
  | none => return none
  | some old =>
    let new := f old
    Tx.require (new.amountVes = old.amountVes ∧ new.tipVes = old.tipVes ∧ new.billId = old.billId)
      (.checkViolation "payments_guard_transition")
    Tx.require (new.status = old.status ∨ new.status ∈ old.status.ALLOWED_TRANSITIONS)
      (.checkViolation "payments_guard_transition")
    Tx.require (new.providerPaymentId = none ∨ new.provider.isSome)
      (.checkViolation "payments_provider_pair")
    Tx.forbid (s.paymentClash new) .uniqueViolation
    set { s with payments := s.payments.update id f hf }
    return some new

/-- `UPDATE bill_split_participants SET … WHERE id = $1`. -/
def updateShare (id : Uuid) (f : SplitParticipant → SplitParticipant) (hf : ∀ p, (f p).id = p.id) :
    Tx Err Db Unit := do
  let s ← get
  Tx.forbid ((s.shares.find? id).bind fun share => (f share).violated) .checkViolation
  set { s with shares := s.shares.update id f hf }

/-- `UPDATE c2p_charges SET last_resolution_at = NOW() WHERE payment_id = $1`. -/
def touchCharge (paymentId : Uuid) (now : Time) : Tx Err Db Unit :=
  modify fun s => { s with
    charges := s.charges.update paymentId (fun c => { c with lastResolutionAt := some now })
      fun _ => rfl }

/-! ## What the statements write -/

section Statements

variable {s s' : Db} {restaurantId id : Uuid}

theorem updateBill_ok {f : Bill → Bill} {hf : ∀ b, (f b).id = b.id} {u : Unit}
    (h : (updateBill id f hf).run s = .ok u s') :
    s' = { s with bills := s.bills.update id f hf } ∧
      ∀ bill, s.bills.find? id = some bill → (f bill).violated = none := by
  unfold updateBill at h
  simp only [Tx.bind_ok, Tx.run_get, Tx.forbid_ok, Tx.run_set] at h
  obtain ⟨_, _, ⟨rfl, rfl⟩, _, _, ⟨hv, rfl⟩, ⟨rfl, rfl⟩⟩ := h
  exact ⟨rfl, fun bill hb => by simpa [hb] using hv⟩

theorem updateShare_ok {f : SplitParticipant → SplitParticipant} {hf : ∀ p, (f p).id = p.id}
    {u : Unit} (h : (updateShare id f hf).run s = .ok u s') :
    s' = { s with shares := s.shares.update id f hf } ∧
      ∀ share, s.shares.find? id = some share → (f share).violated = none := by
  unfold updateShare at h
  simp only [Tx.bind_ok, Tx.run_get, Tx.forbid_ok, Tx.run_set] at h
  obtain ⟨_, _, ⟨rfl, rfl⟩, _, _, ⟨hv, rfl⟩, ⟨rfl, rfl⟩⟩ := h
  exact ⟨rfl, fun share hs => by simpa [hs] using hv⟩

theorem insertPayment_ok {now : Time} {p : NewPayment} {row : Payment}
    (h : (insertPayment id now p).run s = .ok row s') :
    (row.id = id ∧ row.createdAt = now ∧ row.restaurantId = p.restaurantId ∧
      row.billId = p.billId ∧ row.amountVes = p.amountVes ∧ row.tipVes = p.tipVes ∧
      row.status = p.status ∧ row.paymentMethod = p.paymentMethod ∧ row.provider = p.provider ∧
      row.providerPaymentId = p.providerPaymentId ∧
      row.splitParticipantId = p.splitParticipantId ∧ row.idempotencyKey = p.idempotencyKey) ∧
    s.paymentClash row = none ∧
    ∃ payments, s.payments.insert? row = some payments ∧ s' = { s with payments } := by
  unfold insertPayment at h
  rw [Tx.bind_of_ok Tx.run_get] at h
  split at h
  · simp only [Tx.bind_ok, Tx.require_ok, Tx.orThrow_ok, Tx.forbid_ok, Tx.run_set,
      Tx.run_pure] at h
    obtain ⟨_, _, ⟨-, rfl⟩, payments, _, ⟨hins, rfl⟩, _, _, ⟨hclash, rfl⟩, _, _, ⟨-, rfl⟩, _, _,
      ⟨-, rfl⟩, _, _, ⟨rfl, rfl⟩, ⟨rfl, rfl⟩⟩ := h
    exact ⟨⟨rfl, rfl, rfl, rfl, rfl, rfl, rfl, rfl, rfl, rfl, rfl, rfl⟩, hclash, payments, hins, rfl⟩
  · split at h <;> simp at h

theorem updatePayment_ok {f : Payment → Payment} {hf : ∀ p, (f p).id = p.id} {r : Option Payment}
    (h : (updatePayment restaurantId id f hf).run s = .ok r s') :
    (s.payment? restaurantId id = none ∧ r = none ∧ s' = s) ∨
    ∃ old, s.payment? restaurantId id = some old ∧ r = some (f old) ∧
      (f old).amountVes = old.amountVes ∧ (f old).billId = old.billId ∧
      ((f old).status = old.status ∨ (f old).status ∈ old.status.ALLOWED_TRANSITIONS) ∧
      s.paymentClash (f old) = none ∧
      s' = { s with payments := s.payments.update id f hf } := by
  unfold updatePayment at h
  rw [Tx.bind_of_ok Tx.run_get] at h
  cases hp : s.payment? restaurantId id with
  | none =>
    rw [hp] at h
    obtain ⟨rfl, rfl⟩ : none = r ∧ s = s' := by simpa using h
    exact .inl ⟨rfl, rfl, rfl⟩
  | some old =>
    rw [hp] at h
    simp only [Tx.bind_ok, Tx.require_ok, Tx.forbid_ok, Tx.run_set, Tx.run_pure] at h
    obtain ⟨_, _, ⟨⟨ha, -, hb⟩, rfl⟩, _, _, ⟨hst, rfl⟩, _, _, ⟨-, rfl⟩, _, _, ⟨hclash, rfl⟩, _, _,
      ⟨rfl, rfl⟩, ⟨rfl, rfl⟩⟩ := h
    exact .inr ⟨old, rfl, rfl, ha, hb, hst, hclash, rfl⟩

end Statements

end Splite
