import Splite.Ledger.Db

/-!
# Recording, moving and applying payments (`services/payments.js`, `services/locks.js`)

* `advanceShare_ok`: a payment credits its share and touches nothing else.
* `recordPayment_ok`: one new row.
* `transitionPayment_ok`: one row moves, along `ALLOWED_TRANSITIONS` or not at all.
* `applyToBill_ok`: an open bill takes the amount, and closes with the last of it.
-/

namespace Splite

/-- `SETTLED_STATUSES`. -/
def SETTLED_STATUSES : List PaymentStatus := [.succeeded]

/-- `SHARE_REFUSALS`. -/
def SHARE_REFUSALS : List Code :=
  [.splitStale, .splitNotActive, .splitShareOverpaid, .splitShareNotFound]

/-- `onShareRefusal`. -/
inductive OnShareRefusal where
  | throw
  | detach
  deriving DecidableEq, Repr

/-- The share and its split, joined on the restaurant. -/
def Db.shareWithSplit? (s : Db) (restaurantId shareId : Uuid) :
    Option (SplitParticipant × BillSplit) := do
  let share ← (s.shares.find? shareId).filter (·.restaurantId = restaurantId)
  let split ← (s.splits.find? share.splitId).filter (·.restaurantId = restaurantId)
  return (share, split)

/-- The `catch` around the `UPDATE` of `advanceShare`. -/
def asShareOverpaid (share : SplitParticipant) : Err → Err
  | .checkViolation "bill_split_participants_not_overpaid" =>
    .api .splitShareOverpaid "This payment exceeds what is left on that share"
      [("shareRemainingVes", toString (share.amountVes - share.amountPaidVes))]
  | err => err

/-- `advanceShare(client, { splitParticipantId, restaurantId, amountVes, billId })`. -/
def advanceShare (splitParticipantId restaurantId : Uuid) (amountVes : Int) (billId : Uuid) :
    Tx Err Db Unit := do
  let s ← get
  let (share, split) ← Tx.orThrow (s.shareWithSplit? restaurantId splitParticipantId)
    (.api .splitShareNotFound "That split participant does not belong to this bill" [])
  Tx.require (split.billId = billId)
    (.api .splitShareNotFound "That split participant does not belong to this bill" [])
  Tx.require (split.status ≠ .stale)
    (.api .splitStale "The bill changed after this split was agreed; agree a new one before paying"
      [("billTotalVes", ((s.bill? restaurantId split.billId).map (·.totalDueVes)).elim "null" toString)])
  Tx.require (split.status = .active)
    (.api .splitNotActive "That split has been voided" [("status", split.status.text)])
  Tx.mapError (asShareOverpaid share)
    (updateShare splitParticipantId (fun p => { p with amountPaidVes := p.amountPaidVes + amountVes })
      fun _ => rfl)

/-- `appendTransition(client, { … })`. -/
def appendTransition (t : PaymentTransition) : Tx Err Db Unit :=
  modify fun s => { s with transitions := s.transitions ++ [t] }

/-- The share of a payment that is written already settled. -/
def creditShare (p : NewPayment) : Tx Err Db Unit :=
  match p.splitParticipantId with
  | some share =>
    if p.status ∈ SETTLED_STATUSES then advanceShare share p.restaurantId p.amountVes p.billId
    else pure ()
  | none => pure ()

/-- `recordPayment(client, { … })`. -/
def recordPayment (id : Uuid) (now : Time) (p : NewPayment) : Tx Err Db Payment := do
  let payment ← insertPayment id now p
  appendTransition ⟨payment.id, p.restaurantId, none, p.status, p.reason⟩
  creditShare p
  return payment

/-- What `transitionPayment` returns. -/
structure Moved where
  payment : Payment
  shareDetached : Option Code := none

/-- The row after its move, with or without its share. -/
def Payment.moved (toStatus : PaymentStatus) (detached : Bool) (p : Payment) : Payment :=
  { p with
    status := toStatus
    splitParticipantId := if detached then none else p.splitParticipantId }

/-- The share of a payment that has just been moved to `toStatus`, inside of a `SAVEPOINT`. -/
def settleShare (restaurantId : Uuid) (current updated : Payment) (toStatus : PaymentStatus)
    (onShareRefusal : OnShareRefusal) : Tx Err Db Moved :=
  match current.splitParticipantId.filter fun _ => toStatus ∈ SETTLED_STATUSES with
  | none => return { payment := updated }
  | some share => do
    match ← Tx.savepoint (advanceShare share restaurantId current.amountVes current.billId) with
    | .ok _ => return { payment := updated }
    | .error err =>
      if onShareRefusal ≠ .detach ∨ ∀ code ∈ err.apiCode, code ∉ SHARE_REFUSALS then throw err
      else
        let _ ← updatePayment restaurantId current.id
          (fun p => { p with splitParticipantId := none }) fun _ => rfl
        return { payment := { updated with splitParticipantId := none }, shareDetached := err.apiCode }

/-- `transitionPayment(client, { paymentId, restaurantId, toStatus, reason, onShareRefusal })`. -/
def transitionPayment (restaurantId paymentId : Uuid) (toStatus : PaymentStatus)
    (reason : Option String) (onShareRefusal : OnShareRefusal := .throw) : Tx Err Db Moved := do
  let s ← get
  let current ← Tx.orThrow (s.payment? restaurantId paymentId)
    (.api .notFound "Payment not found" [])
  if current.status = toStatus then return { payment := current }
  else
    Tx.require (toStatus ∈ current.status.ALLOWED_TRANSITIONS)
      (.api .paymentStateInvalid
        ("Cannot move a " ++ current.status.text ++ " payment to " ++ toStatus.text)
        [("from", current.status.text), ("to", toStatus.text)])
    let updated ← updatePayment restaurantId paymentId (fun p => { p with status := toStatus })
      fun _ => rfl
    appendTransition ⟨paymentId, restaurantId, some current.status, toStatus, reason⟩
    settleShare restaurantId current (updated.getD current) toStatus onShareRefusal

def Payment.withReference (reference : Option String) (p : Payment) : Payment :=
  { p with providerPaymentId := reference }

/-- `UPDATE payments SET provider_payment_id = $1 WHERE id = $2 AND restaurant_id = $3`. -/
def setReference (restaurantId paymentId : Uuid) (reference : Option String) :
    Tx Err Db (Option Payment) :=
  updatePayment restaurantId paymentId (Payment.withReference reference) fun _ => rfl

/-- What `applyToBill` returns: the bill as it was read, and its new figures. -/
structure Applied where
  bill : Bill
  totalDue : Int
  newAmountPaid : Int
  newStatus : BillStatus

/-- The `UPDATE` of `applyToBill`. -/
def Bill.applied (newAmountPaid : Int) (newStatus : BillStatus) (b : Bill) : Bill :=
  { b with amountPaidVes := newAmountPaid, status := newStatus }

/-- `applyToBill(client, { restaurantId, billId, amount })`. -/
def applyToBill (restaurantId billId : Uuid) (amount : Int) : Tx Err Db Applied := do
  let s ← get
  let bill ← Tx.orThrow (s.bill? restaurantId billId) (.api .billNotFound "Bill not found" [])
  Tx.require (bill.status = .open)
    (.api .billNotOpen
      (if bill.status = .closed then "Bill is already fully paid" else "Bill is not open")
      [("status", BillStatus.text bill.status)])
  let totalDue := bill.totalDueVes
  let newAmountPaid := bill.amountPaidVes + amount
  Tx.require (newAmountPaid ≤ totalDue)
    (.api .paymentExceedsBalance "Payment exceeds remaining bill balance"
      [("remainingVes", toString (totalDue - bill.amountPaidVes))])
  let newStatus : BillStatus := if newAmountPaid = totalDue then .closed else .open
  updateBill bill.id (Bill.applied newAmountPaid newStatus) fun _ => rfl
  return { bill, totalDue, newAmountPaid, newStatus }

/-! ## What they do -/

section Specs

variable {s s' : Db} {restaurantId id billId : Uuid}

/-- The `UPDATE` of `advanceShare`. -/
def SplitParticipant.advanced (amount : Int) (p : SplitParticipant) : SplitParticipant :=
  { p with amountPaidVes := p.amountPaidVes + amount }

theorem shareWithSplit?_eq_some {share : SplitParticipant} {split : BillSplit}
    (h : s.shareWithSplit? restaurantId id = some (share, split)) :
    s.shares.find? id = some share ∧ s.splits.find? share.splitId = some split := by
  simp only [Db.shareWithSplit?, Option.bind_eq_bind, Option.bind_eq_some_iff,
    Option.filter_eq_some_iff, Option.pure_def, Option.some.injEq, Prod.mk.injEq] at h
  obtain ⟨_, ⟨hshare, -⟩, _, ⟨hsplit, -⟩, rfl, rfl⟩ := h
  exact ⟨hshare, hsplit⟩

/-- An active share of a split of the bill takes the amount, as far as its ceiling lets it. -/
theorem advanceShare_ok {amount : Int} {u : Unit}
    (h : (advanceShare id restaurantId amount billId).run s = .ok u s') :
    ∃ share split, s.shareWithSplit? restaurantId id = some (share, split) ∧
      split.billId = billId ∧ split.status = .active ∧
      (share.advanced amount).violated = none ∧
      s' = { s with
        shares := s.shares.update id (SplitParticipant.advanced amount) fun _ => rfl } := by
  unfold advanceShare at h
  simp only [Tx.bind_ok, Tx.run_get, Tx.orThrow_ok] at h
  obtain ⟨_, _, ⟨rfl, rfl⟩, ⟨share, split⟩, _, ⟨hs, rfl⟩, h⟩ := h
  simp only [Tx.require_ok, Tx.mapError_ok] at h
  obtain ⟨_, _, ⟨hb, rfl⟩, _, _, ⟨-, rfl⟩, _, _, ⟨hst, rfl⟩, h⟩ := h
  obtain ⟨rfl, hcheck⟩ := updateShare_ok h
  exact ⟨share, split, hs, hb, hst, hcheck share (shareWithSplit?_eq_some hs).1, rfl⟩

/-- What becomes of the shares when a payment is written as, or moved to, `toStatus`. -/
inductive Shifts (shares : Table SplitParticipant) (splits : Table BillSplit) (p : Payment)
    (toStatus : PaymentStatus) : OnShareRefusal → Bool → Table SplitParticipant → Prop where
  /-- Nothing is settled on a share. -/
  | apart (mode : OnShareRefusal) :
      (toStatus ∈ SETTLED_STATUSES → p.splitParticipantId = none) →
      Shifts shares splits p toStatus mode false shares
  /-- The share is advanced. -/
  | advanced (mode : OnShareRefusal) {id : Uuid} {share : SplitParticipant} {split : BillSplit} :
      p.splitParticipantId = some id → toStatus ∈ SETTLED_STATUSES →
      shares.find? id = some share → splits.find? share.splitId = some split →
      split.billId = p.billId → split.status = .active →
      (share.advanced p.amountVes).violated = none →
      Shifts shares splits p toStatus mode false
        (shares.update id (SplitParticipant.advanced p.amountVes) fun _ => rfl)
  /-- The payment gives up its share. -/
  | detached : toStatus ∈ SETTLED_STATUSES → p.splitParticipantId.isSome →
      Shifts shares splits p toStatus .detach true shares

theorem advanceShare_shifts {p : Payment} {toStatus : PaymentStatus} (mode : OnShareRefusal)
    {share : Uuid} {u : Unit} (hshare : p.splitParticipantId = some share)
    (hto : toStatus ∈ SETTLED_STATUSES)
    (h : (advanceShare share restaurantId p.amountVes p.billId).run s = .ok u s') :
    ∃ shares, Shifts s.shares s.splits p toStatus mode false shares ∧ s' = { s with shares } := by
  obtain ⟨row, split, hfound, hbill, hactive, hchecked, rfl⟩ := advanceShare_ok h
  obtain ⟨hrow, hsplit⟩ := shareWithSplit?_eq_some hfound
  exact ⟨_, .advanced mode hshare hto hrow hsplit hbill hactive hchecked, rfl⟩

theorem creditShare_ok {p : NewPayment} {row : Payment} {u : Unit} (hbill : row.billId = p.billId)
    (hamount : row.amountVes = p.amountVes) (hshare : row.splitParticipantId = p.splitParticipantId)
    (h : (creditShare p).run s = .ok u s') :
    ∃ shares, Shifts s.shares s.splits row p.status .throw false shares ∧ s' = { s with shares } := by
  unfold creditShare at h
  split at h
  · rename_i share hsome
    split at h
    · rename_i hto
      rw [← hamount, ← hbill] at h
      exact advanceShare_shifts .throw (hshare.trans hsome) hto h
    · rename_i hto
      exact ⟨_, .apart _ fun h => absurd h hto, (Tx.pure_ok.mp h).2⟩
  · rename_i hnone
    exact ⟨_, .apart _ fun _ => hshare.trans hnone, (Tx.pure_ok.mp h).2⟩

/-- The row has the columns that it was given. -/
structure Payment.Records (row : Payment) (id : Uuid) (p : NewPayment) : Prop where
  id : row.id = id
  restaurantId : row.restaurantId = p.restaurantId
  billId : row.billId = p.billId
  amountVes : row.amountVes = p.amountVes
  tipVes : row.tipVes = p.tipVes
  status : row.status = p.status
  paymentMethod : row.paymentMethod = p.paymentMethod
  provider : row.provider = p.provider
  providerPaymentId : row.providerPaymentId = p.providerPaymentId
  idempotencyKey : row.idempotencyKey = p.idempotencyKey

theorem recordPayment_shifts {now : Time} {p : NewPayment} {row : Payment}
    (h : (recordPayment id now p).run s = .ok row s') :
    row.Records id p ∧ row.splitParticipantId = p.splitParticipantId ∧ s.paymentClash row = none ∧
    ∃ payments transitions shares, s.payments.insert? row = some payments ∧
      Shifts s.shares s.splits row p.status .throw false shares ∧
      s' = { s with payments, transitions, shares } := by
  unfold recordPayment at h
  simp only [Tx.bind_ok, Tx.run_pure] at h
  obtain ⟨_, s₁, hins, _, s₂, happ, _, s₃, hcredit, ⟨rfl, rfl⟩⟩ := h
  obtain ⟨⟨h1, -, h2, h3, h4, h5, h6, h7, h8, h9, h10, h11⟩, hclash, payments, hpay, rfl⟩ :=
    insertPayment_ok hins
  obtain ⟨rfl, rfl⟩ := by simpa [appendTransition] using happ
  obtain ⟨shares, hshifts, rfl⟩ := creditShare_ok h3 h4 h10 hcredit
  exact ⟨⟨h1, h2, h3, h4, h5, h6, h7, h8, h9, h11⟩, h10, hclash, payments, _, shares, hpay, hshifts, rfl⟩

theorem recordPayment_ok {now : Time} {p : NewPayment} {row : Payment}
    (h : (recordPayment id now p).run s = .ok row s') :
    row.Records id p ∧ s.paymentClash row = none ∧
    ∃ payments transitions shares, s.payments.insert? row = some payments ∧
      s' = { s with payments, transitions, shares } := by
  obtain ⟨hrow, -, hclash, payments, transitions, shares, hpay, -, hs⟩ := recordPayment_shifts h
  exact ⟨hrow, hclash, payments, transitions, shares, hpay, hs⟩

/-- What `settleShare` leaves: nothing where no share is settled, the share advanced, or the payment
without it. -/
theorem settleShare_ok {current updated : Payment} {toStatus : PaymentStatus} {m : Moved}
    {mode : OnShareRefusal}
    (h : (settleShare restaurantId current updated toStatus mode).run s = .ok m s') :
    ((toStatus ∈ SETTLED_STATUSES → current.splitParticipantId = none) ∧ s' = s) ∨
    (∃ share, current.splitParticipantId = some share ∧ toStatus ∈ SETTLED_STATUSES ∧
      (advanceShare share restaurantId current.amountVes current.billId).run s = .ok () s') ∨
    mode = .detach ∧ toStatus ∈ SETTLED_STATUSES ∧ current.splitParticipantId.isSome ∧
      ((s.payment? restaurantId current.id = none ∧ s' = s) ∨ s' = { s with
        payments := s.payments.update current.id (fun p => { p with splitParticipantId := none })
          fun _ => rfl }) := by
  unfold settleShare at h
  split at h
  · rename_i hfilter
    refine .inl ⟨fun hto => ?_, (Tx.pure_ok.mp h).2⟩
    cases hshare : current.splitParticipantId with
    | none => rfl
    | some share => simp [hshare, hto] at hfilter
  · rename_i share hfilter
    obtain ⟨hshare, hto⟩ := Option.filter_eq_some_iff.mp hfilter
    simp only [decide_eq_true_eq] at hto
    rw [Tx.bind_ok] at h
    obtain ⟨r, s₁, hsave, h⟩ := h
    rcases Tx.savepoint_ok.mp hsave with ⟨_, rfl, hadv⟩ | ⟨err, _, rfl, -, rfl⟩
    · obtain ⟨-, rfl⟩ := Tx.pure_ok.mp h
      exact .inr (.inl ⟨share, hshare, hto, hadv⟩)
    · simp only at h
      split at h
      · simp at h
      · rename_i hmode
        have hdetach : mode = .detach := by
          by_contra hne
          exact hmode (.inl hne)
        refine .inr (.inr ⟨hdetach, hto, by rw [hshare]; rfl, ?_⟩)
        simp only [Tx.bind_ok, Tx.run_pure] at h
        obtain ⟨_, s₂, hup, ⟨-, rfl⟩⟩ := h
        rcases updatePayment_ok hup with ⟨hnone, -, rfl⟩ | ⟨_, -, -, -, -, -, -, rfl⟩
        · exact .inl ⟨hnone, rfl⟩
        · exact .inr rfl

theorem transitionPayment_shifts {paymentId : Uuid} {toStatus : PaymentStatus}
    {reason : Option String} {mode : OnShareRefusal} {m : Moved}
    (h : (transitionPayment restaurantId paymentId toStatus reason mode).run s = .ok m s') :
    ∃ current, s.payment? restaurantId paymentId = some current ∧
      ((current.status = toStatus ∧ s' = s) ∨
        (toStatus ∈ current.status.ALLOWED_TRANSITIONS ∧ ∃ detached transitions shares,
          Shifts s.shares s.splits current toStatus mode detached shares ∧
          s' = { s with
            payments := s.payments.update paymentId (Payment.moved toStatus detached) fun _ => rfl
            transitions, shares })) := by
  unfold transitionPayment at h
  simp only [Tx.bind_ok, Tx.run_get, Tx.orThrow_ok] at h
  obtain ⟨_, _, ⟨rfl, rfl⟩, current, _, ⟨hcur, rfl⟩, h⟩ := h
  refine ⟨current, hcur, ?_⟩
  split at h
  · rename_i heq
    exact .inl ⟨heq, (Tx.pure_ok.mp h).2⟩
  · right
    simp only [Tx.bind_ok, Tx.require_ok] at h
    obtain ⟨_, _, ⟨hallow, rfl⟩, updated, s₁, hup, _, s₂, happ, h⟩ := h
    refine ⟨hallow, ?_⟩
    rcases updatePayment_ok hup with ⟨hnone, -, -⟩ | ⟨_, -, -, -, -, -, -, rfl⟩
    · simp [hcur] at hnone
    obtain ⟨rfl, rfl⟩ := by simpa [appendTransition] using happ
    have hid : current.id = paymentId := Table.find?_key (payment?_eq_some.mp hcur).1
    rcases settleShare_ok h with ⟨hapart, rfl⟩ | ⟨id, hid', hto, hadv⟩ |
      ⟨rfl, hto, hsome, ⟨hnone, rfl⟩ | rfl⟩
    · exact ⟨false, _, _, .apart _ hapart, rfl⟩
    · obtain ⟨shares, hshifts, rfl⟩ := advanceShare_shifts mode hid' hto hadv
      exact ⟨false, _, shares, hshifts, rfl⟩
    · -- The row that has just been moved is there.
      obtain ⟨hfind, hrest⟩ := payment?_eq_some.mp hcur
      rw [hid] at hnone
      simp [Db.payment?, Table.find?_update, hfind, hrest] at hnone
    · simp only [hid, Table.update_update]
      exact ⟨true, _, _, .detached hto hsome, rfl⟩

theorem transitionPayment_ok {paymentId : Uuid} {toStatus : PaymentStatus} {reason : Option String}
    {mode : OnShareRefusal} {m : Moved}
    (h : (transitionPayment restaurantId paymentId toStatus reason mode).run s = .ok m s') :
    ∃ current, s.payment? restaurantId paymentId = some current ∧
      ((current.status = toStatus ∧ s' = s) ∨
        (toStatus ∈ current.status.ALLOWED_TRANSITIONS ∧ ∃ detached transitions shares,
          s' = { s with
            payments := s.payments.update paymentId (Payment.moved toStatus detached) fun _ => rfl
            transitions, shares })) := by
  obtain ⟨current, hcur, hsame | ⟨hallow, detached, transitions, shares, -, hs⟩⟩ :=
    transitionPayment_shifts h
  · exact ⟨current, hcur, .inl hsame⟩
  · exact ⟨current, hcur, .inr ⟨hallow, detached, transitions, shares, hs⟩⟩

theorem applyToBill_ok {amount : Int} {a : Applied}
    (h : (applyToBill restaurantId billId amount).run s = .ok a s') :
    s.bill? restaurantId billId = some a.bill ∧ a.bill.id = billId ∧ a.bill.status = .open ∧
      a.bill.amountPaidVes + amount ≤ a.bill.totalDueVes ∧
      s' = { s with
        bills := s.bills.update billId (Bill.applied (a.bill.amountPaidVes + amount)
          (if a.bill.amountPaidVes + amount = a.bill.totalDueVes then .closed else .open))
          fun _ => rfl } := by
  unfold applyToBill at h
  simp only [Tx.bind_ok, Tx.run_get, Tx.orThrow_ok, Tx.require_ok, Tx.pure_ok] at h
  obtain ⟨_, _, ⟨rfl, rfl⟩, bill, _, ⟨hbill, rfl⟩, _, _, ⟨hopen, rfl⟩, _, _, ⟨hle, rfl⟩, _, _,
    hup, rfl, rfl⟩ := h
  obtain rfl : bill.id = billId := Table.find?_key (bill?_eq_some.mp hbill).1
  exact ⟨hbill, rfl, hopen, hle, (updateBill_ok hup).1⟩

end Specs

end Splite
