import Splite.Platform.Charges
import Splite.Lib.Spending

/-!
# Payment notices (`services/subscriptionNotices.js`, `services/platformBilling.js`)

`confirmNotice` and `rejectNotice` beside `recordPayment` and `voidCharge`, statement by statement. What a
transaction has written is in its phase until it commits, with the rows that it has locked. The sum of the
payments that `lockCharge` answers with is the one of the moment when its statement began.

* `noticingRule`: a notice is reviewed by the call that has locked it, and is pending until then.
* `lands_once_iff`: every notice is reviewed at most once and lands its payment, and a confirmation is not
  refused over its charge, exactly when each charge is still open as a confirmation comes to lock it.
-/

namespace Splite

instance : Keyed SubscriptionCharge Uuid := ⟨SubscriptionCharge.id⟩

namespace SubscriptionCharge

/-- `UPDATE subscription_charges SET status = …`. -/
def close (status : ChargeStatus) (c : SubscriptionCharge) : SubscriptionCharge := { c with status }

theorem close_key (status : ChargeStatus) (c : SubscriptionCharge) :
    Keyed.key (close status c) = Keyed.key c := rfl

end SubscriptionCharge

/-- A row of `subscription_payment_notices`, with its checks. -/
structure NoticeRow extends PaymentNotice where
  paymentId : Option Uuid
  rejectReason : Option String
  amount_check : 0 < amount
  rejected_check : status = .rejected → rejectReason.isSome = true
  confirmed_check : status = .confirmed → paymentId.isSome = true
  deriving DecidableEq, Repr

instance : Keyed NoticeRow Uuid := ⟨fun n => n.id⟩

namespace NoticeRow

/-- `SET status = 'CONFIRMED', payment_id = $3`. -/
def confirm (paymentId : Uuid) (n : NoticeRow) : NoticeRow :=
  { n with
    status := .confirmed
    paymentId := some paymentId
    rejected_check := nofun
    confirmed_check := fun _ => rfl }

/-- `SET status = 'REJECTED', reject_reason = $3`. -/
def reject (reason : String) (n : NoticeRow) : NoticeRow :=
  { n with
    status := .rejected
    rejectReason := some reason
    rejected_check := fun _ => rfl
    confirmed_check := nofun }

theorem confirm_key (paymentId : Uuid) (n : NoticeRow) :
    Keyed.key (confirm paymentId n) = Keyed.key n := rfl

theorem reject_key (reason : String) (n : NoticeRow) : Keyed.key (reject reason n) = Keyed.key n := rfl

end NoticeRow

/-- A row of `subscription_payments`. -/
structure PaymentRow extends SubscriptionPayment where
  id : Uuid
  deriving DecidableEq, Repr

instance : Keyed PaymentRow Uuid := ⟨PaymentRow.id⟩

/-- The tables as committed. -/
structure NoticeDb where
  charges : Table SubscriptionCharge
  payments : Table PaymentRow
  notices : Table NoticeRow
  deriving DecidableEq

/-- The calls, with the id of the payment that they insert. -/
inductive NoticeCall where
  | recordPayment (restaurantId : Uuid) (input : PaymentInput) (paymentId : Uuid)
  | confirmNotice (noticeId : Uuid) (fxRate : Option Int) (settle : Bool) (paymentId : Uuid)
  | rejectNotice (noticeId : Uuid) (reason : String)
  | voidCharge (chargeId : Uuid)
  deriving DecidableEq, Repr

/-- The next statement of a call. -/
inductive NoticePhase where
  | begun (call : NoticeCall)
  /-- `lockNotice` of `confirmNotice`. -/
  | lockNotice (r : Recording) (paymentId noticeId : Uuid)
  /-- The notice is locked; `SELECT status FROM subscription_charges …`. -/
  | readStatus (r : Recording) (paymentId : Uuid)
  /-- `recordPaymentWith`, up to `lockCharge`. -/
  | lockCharge (r : Recording) (paymentId : Uuid)
  /-- `lockCharge` has read this sum, and waits for the row of the charge. -/
  | waitCharge (r : Recording) (paymentId chargeId : Uuid) (sum : Int)
  /-- `INSERT INTO subscription_payments …`. -/
  | inserting (payment : PaymentRow) (notice : Option Uuid)
  /-- The payment is written, and what follows from it; `COMMIT`. -/
  | recorded (payment : PaymentRow) (notice : Option Uuid)
  /-- `lockNotice` of `rejectNotice`. -/
  | lockRejected (noticeId : Uuid) (reason : String)
  /-- The notice is locked and rejected; `COMMIT`. -/
  | rejected (noticeId : Uuid) (reason : String)
  /-- `lockCharge` of `voidCharge`. -/
  | lockVoid (chargeId : Uuid)
  | waitVoid (chargeId : Uuid) (sum : Int)
  /-- The charge is void; `COMMIT`. -/
  | voided (chargeId : Uuid)
  deriving DecidableEq, Repr

inductive NoticeLock where
  | notice (id : Uuid)
  | charge (id : Uuid)
  deriving DecidableEq, Repr

namespace NoticePhase

/-- It has locked the row. -/
def locks : NoticeLock → NoticePhase → Bool
  | .notice id, .readStatus r _ | .notice id, .lockCharge r _ | .notice id, .waitCharge r _ _ _ =>
    r.notice = some id
  | .notice id, .inserting _ notice | .notice id, .recorded _ notice => notice = some id
  | .notice id, .rejected noticeId _ => noticeId = id
  | .charge id, .inserting payment _ | .charge id, .recorded payment _ => payment.chargeId = some id
  | .charge id, .voided chargeId => chargeId = id
  | _, _ => false

/-- It has inserted a payment of this id. -/
def inserts (paymentId : Uuid) : NoticePhase → Bool
  | .recorded payment _ => payment.id = paymentId
  | _ => false

end NoticePhase

inductive NoticeEvent where
  | confirmed (noticeId : Uuid) (payment : PaymentRow)
  | recorded (payment : PaymentRow)
  | rejected (noticeId : Uuid)
  | voided (chargeId : Uuid)
  /-- The call throws; `notice` is the one that it reviews. -/
  | refused (notice : Option Uuid) (err : Err)
  deriving DecidableEq, Repr

namespace NoticeDb

/-- `SELECT COALESCE(SUM(p.applied_usd), 0) …`. -/
def appliedUsd (s : NoticeDb) (chargeId : Uuid) : Int :=
  ((s.payments.rows.filter fun p => p.chargeId = some chargeId).map (·.appliedUsd)).sum

/-- `lockNotice`, once nobody else has locked it. -/
def lockNotice (s : NoticeDb) (noticeId : Uuid) : Except Err NoticeRow := do
  let n ← Except.ofOption (s.notices.find? noticeId)
    (.api .subscriptionNoticeNotFound "Notice not found" [])
  Except.require (n.status = .pending)
    (.api .subscriptionNoticeClosed "This notice was already reviewed" [("status", n.status.text)])
  return n

/-- What the commit of a payment leaves. -/
def record (s : NoticeDb) (payment : PaymentRow) (notice : Option Uuid) : Option NoticeDb :=
  (s.payments.insert? payment).map fun payments =>
    { charges := if payment.closedCharge then
        payment.chargeId.elim s.charges fun chargeId =>
          s.charges.update chargeId (SubscriptionCharge.close .paid) (SubscriptionCharge.close_key .paid)
        else s.charges
      payments
      notices := notice.elim s.notices fun noticeId =>
        s.notices.update noticeId (NoticeRow.confirm payment.id) (NoticeRow.confirm_key payment.id) }

end NoticeDb

/-- The notice that a call has reviewed. -/
def NoticeEvent.reviews : NoticeEvent → Option Uuid
  | .confirmed noticeId _ | .rejected noticeId => some noticeId
  | _ => none

/-- What a call answers as it commits a payment. -/
def NoticeEvent.ofPayment (payment : PaymentRow) : Option Uuid → NoticeEvent
  | some noticeId => .confirmed noticeId payment
  | none => .recorded payment

def chargeNotFound : Err := .api .subscriptionChargeNotFound "Charge not found" []

/-- The next statement of a call, beside the other calls. -/
def NoticePhase.next (s : NoticeDb) (others : List NoticePhase) :
    NoticePhase → Advance NoticeDb NoticePhase NoticeEvent
  | .begun (.recordPayment restaurantId input paymentId) =>
    match preparePayment input with
    | .error err => .ends s [.refused none err]
    | .ok applied => .goes s (.lockCharge ⟨restaurantId, input, applied, none⟩ paymentId) []
  | .begun (.confirmNotice noticeId fxRate settle paymentId) =>
    match s.notices.find? noticeId with
    | none => .ends s [.refused (some noticeId) (.api .subscriptionNoticeNotFound "Notice not found" [])]
    | some n =>
      let input := ⟨n.chargeId, n.currency, n.amount, fxRate, settle⟩
      match preparePayment input with
      | .error err => .ends s [.refused (some noticeId) err]
      | .ok applied =>
        .goes s (.lockNotice ⟨n.restaurantId, input, applied, some noticeId⟩ paymentId noticeId) []
  | .begun (.rejectNotice noticeId reason) => .goes s (.lockRejected noticeId reason) []
  | .begun (.voidCharge chargeId) => .goes s (.lockVoid chargeId) []
  | .lockNotice r paymentId noticeId =>
    if others.any (locks (.notice noticeId)) then .waits
    else
      match s.lockNotice noticeId with
      | .error err => .ends s [.refused (some noticeId) err]
      | .ok _ => .goes s (.readStatus r paymentId) []
  | .readStatus r paymentId =>
    -- A charge that was paid since the notice: the payment goes on account.
    let chargeId := r.input.chargeId.filter fun id =>
      (s.charges.find? id).any fun c => c.status = .open
    .goes s (.lockCharge { r with input := { r.input with chargeId } } paymentId) []
  | .lockCharge r paymentId =>
    match r.input.chargeId with
    | none =>
      match recordOnAccount r with
      | .error err => .ends s [.refused r.notice err]
      | .ok payment => .goes s (.inserting ⟨payment, paymentId⟩ r.notice) []
    | some chargeId =>
      match s.charges.find? chargeId with
      | none => .ends s [.refused r.notice chargeNotFound]
      | some _ => .goes s (.waitCharge r paymentId chargeId (s.appliedUsd chargeId)) []
  | .waitCharge r paymentId chargeId sum =>
    if others.any (locks (.charge chargeId)) then .waits
    else
      match s.charges.find? chargeId with
      | none => .ends s [.refused r.notice chargeNotFound]
      | some charge =>
        match recordPaymentWith charge sum r with
        | .error err => .ends s [.refused r.notice err]
        | .ok payment => .goes s (.inserting ⟨payment, paymentId⟩ r.notice) []
  | .inserting payment notice =>
    if others.any (inserts payment.id) then .waits
    else if (s.payments.find? payment.id).isSome then
      .ends s [.refused notice (.uniqueViolation "subscription_payments_pkey")]
    else .goes s (.recorded payment notice) []
  | .recorded payment notice =>
    match s.record payment notice with
    | none => .ends s [.refused notice (.uniqueViolation "subscription_payments_pkey")]
    | some s' => .ends s' [.ofPayment payment notice]
  | .lockRejected noticeId reason =>
    if others.any (locks (.notice noticeId)) then .waits
    else
      match s.lockNotice noticeId with
      | .error err => .ends s [.refused (some noticeId) err]
      | .ok _ => .goes s (.rejected noticeId reason) []
  | .rejected noticeId reason =>
    .ends { s with
      notices := s.notices.update noticeId (NoticeRow.reject reason) (NoticeRow.reject_key reason) }
      [.rejected noticeId]
  | .lockVoid chargeId =>
    match s.charges.find? chargeId with
    | none => .ends s [.refused none chargeNotFound]
    | some _ => .goes s (.waitVoid chargeId (s.appliedUsd chargeId)) []
  | .waitVoid chargeId sum =>
    if others.any (locks (.charge chargeId)) then .waits
    else
      match s.charges.find? chargeId with
      | none => .ends s [.refused none chargeNotFound]
      | some charge =>
        match voidChargeWith charge sum with
        | .error err => .ends s [.refused none err]
        | .ok _ => .goes s (.voided chargeId) []
  | .voided chargeId =>
    .ends { s with
      charges := s.charges.update chargeId (SubscriptionCharge.close .void)
        (SubscriptionCharge.close_key .void) }
      [.voided chargeId]

def noticing : Protocol NoticeDb NoticePhase NoticeCall NoticeEvent where
  start := .begun
  next := NoticePhase.next

/-! ## What a call knows -/

/-- The payment is of the notice: of its amount and its restaurant, and on no charge but its own. -/
structure NoticeRow.PaidBy (n : NoticeRow) (restaurantId : Uuid) (amount : Int) (chargeId : Option Uuid) :
    Prop where
  restaurantId : restaurantId = n.restaurantId
  amount : amount = n.amount
  charge : ∀ id ∈ chargeId, n.chargeId = some id

namespace NoticeDb

/-- The notice of a call is pending, and to be paid so. -/
def Pends (s : NoticeDb) (notice : Option Uuid) (restaurantId : Uuid) (amount : Int)
    (chargeId : Option Uuid) : Prop :=
  ∀ noticeId ∈ notice, ∃ n, s.notices.find? noticeId = some n ∧ n.status = .pending ∧
    n.PaidBy restaurantId amount chargeId

/-- The charge of a payment is open. -/
def OpenFor (s : NoticeDb) (chargeId : Option Uuid) : Prop :=
  ∀ id ∈ chargeId, ∃ c, s.charges.find? id = some c ∧ c.status = .open

/-- Every notice that is confirmed has a payment of its own, of its amount. -/
structure Backed (s : NoticeDb) : Prop where
  payment : ∀ n ∈ s.notices, n.status = .confirmed → ∃ p ∈ s.payments, n.paymentId = some p.id ∧
    n.PaidBy p.restaurantId p.amount p.chargeId
  own : ∀ n ∈ s.notices, ∀ n' ∈ s.notices, n.status = .confirmed → n'.status = .confirmed →
    n.paymentId = n'.paymentId → n = n'

end NoticeDb

namespace NoticePhase

/-- What a call knows by its next statement. -/
def Sound (s : NoticeDb) : NoticePhase → Prop
  | .lockNotice r _ noticeId => r.notice = some noticeId ∧ ∃ n, s.notices.find? noticeId = some n ∧
    n.PaidBy r.restaurantId r.input.amount r.input.chargeId
  | .readStatus r _ | .lockCharge r _ => s.Pends r.notice r.restaurantId r.input.amount r.input.chargeId
  | .waitCharge r _ chargeId _ => s.Pends r.notice r.restaurantId r.input.amount (some chargeId)
  | .inserting payment notice | .recorded payment notice =>
    s.Pends notice payment.restaurantId payment.amount payment.chargeId ∧ s.OpenFor payment.chargeId
  | .rejected noticeId _ => ∃ n, s.notices.find? noticeId = some n ∧ n.status = .pending
  | .voided chargeId => s.OpenFor (some chargeId)
  | _ => True

/-- No two calls have locked one row. -/
def Apart (t u : NoticePhase) : Prop := ∀ k, t.locks k = true → u.locks k = false

theorem Apart.symm {t u : NoticePhase} (h : t.Apart u) : u.Apart t := fun k =>
  Protocol.excludes_symm (h k)

end NoticePhase

/-- When a confirmation comes to lock the charge of its notice, the charge is still open. -/
def StillOpen (s : NoticeDb) (us : List NoticePhase) : NoticePhase → Prop
  | .waitCharge r _ chargeId _ => r.notice.isSome = true →
    us.any (NoticePhase.locks (.charge chargeId)) = false →
    ∀ charge ∈ s.charges.find? chargeId, charge.restaurantId = r.restaurantId → charge.status = .open
  | _ => True

section Statements

variable {s s' : NoticeDb} {t t' u : NoticePhase} {us : List NoticePhase} {answer : List NoticeEvent}

/-- What a statement commits and answers. -/
inductive NoticeDoes (s s' : NoticeDb) (us : List NoticePhase) (t : NoticePhase) :
    List NoticeEvent → Prop where
  | quiet (answer : List NoticeEvent) : s' = s → (∀ e ∈ answer, ∃ notice err, e = .refused notice err ∧
        ∀ noticeId ∈ notice, err.apiCode = some .subscriptionChargeClosed → ¬StillOpen s us t) →
      answer.length ≤ 1 → NoticeDoes s s' us t answer
  | recorded (payment : PaymentRow) (notice : Option Uuid) : t = .recorded payment notice →
      s.record payment notice = some s' → NoticeDoes s s' us t [.ofPayment payment notice]
  | rejected (noticeId : Uuid) (reason : String) : t = .rejected noticeId reason →
      s' = { s with
        notices := s.notices.update noticeId (NoticeRow.reject reason) (NoticeRow.reject_key reason) } →
      NoticeDoes s s' us t [.rejected noticeId]
  | voided (chargeId : Uuid) : t = .voided chargeId →
      s' = { s with
        charges := s.charges.update chargeId (SubscriptionCharge.close .void)
          (SubscriptionCharge.close_key .void) } →
      NoticeDoes s s' us t [.voided chargeId]

/-- Where a statement leaves its call: nothing is committed, and what it locks it had locked or nobody
has. -/
structure NoticeGoes (s s' : NoticeDb) (us : List NoticePhase) (t t' : NoticePhase)
    (answer : List NoticeEvent) : Prop where
  same : s' = s
  silent : answer = []
  sound : t.Sound s → t'.Sound s
  lock : t.Sound s → ∀ k, t'.locks k = true → t.locks k = true ∨ ∀ u ∈ us, u.locks k = false

theorem lockNotice_ok {noticeId : Uuid} {n : NoticeRow} (h : s.lockNotice noticeId = .ok n) :
    s.notices.find? noticeId = some n ∧ n.status = .pending := by
  unfold NoticeDb.lockNotice at h
  simp only [Except.bind_eq_ok, Except.ofOption_eq_ok, Except.require_eq_ok, Except.pure_eq_ok] at h
  obtain ⟨n', hn, _, hpending, rfl⟩ := h
  exact ⟨hn, hpending⟩

theorem recordOnAccount_row {r : Recording} {payment : SubscriptionPayment}
    (h : recordOnAccount r = .ok payment) :
    payment.restaurantId = r.restaurantId ∧ payment.amount = r.input.amount ∧ payment.chargeId = none := by
  unfold recordOnAccount at h
  simp only [Except.bind_eq_ok, Except.pure_eq_ok] at h
  obtain ⟨_, -, rfl⟩ := h
  exact ⟨rfl, rfl, rfl⟩

theorem recordPaymentWith_row {charge : SubscriptionCharge} {sum : Int} {r : Recording}
    {payment : SubscriptionPayment} (h : recordPaymentWith charge sum r = .ok payment) :
    payment.restaurantId = r.restaurantId ∧ payment.amount = r.input.amount ∧
      payment.chargeId = some charge.id := by
  unfold recordPaymentWith at h
  simp only [Except.bind_eq_ok, Except.pure_eq_ok] at h
  obtain ⟨_, -, _, -, rfl⟩ := h
  exact ⟨rfl, rfl, rfl⟩

theorem divideByRate_code {amount rate : Int} {label : String} {err : Err}
    (h : divideByRate amount rate label = .error err) : err.apiCode = some .invalidMonetaryValue := by
  unfold divideByRate divideRound assertInRange at h
  rcases Except.bind_eq_error.mp h with h | ⟨_, -, h⟩
  · split at h
    · cases h
      rfl
    · split at h <;> cases h
  · split at h <;> cases h
    rfl

theorem preparePayment_code {input : PaymentInput} {err : Err} (h : preparePayment input = .error err) :
    err.apiCode ≠ some .subscriptionChargeClosed := by
  unfold preparePayment at h
  split at h
  · cases h
  · split at h
    · cases h
      nofun
    · rcases Except.bind_eq_error.mp h with h | ⟨_, -, h⟩
      · unfold parseRate at h
        split at h <;> cases h
        nofun
      · rw [divideByRate_code h]
        nofun

theorem lockNotice_code {noticeId : Uuid} {err : Err} (h : s.lockNotice noticeId = .error err) :
    err.apiCode ≠ some .subscriptionChargeClosed := by
  unfold NoticeDb.lockNotice at h
  simp only [Except.bind_eq_error, Except.ofOption_eq_error, Except.require_eq_error,
    Except.pure_ne_error, and_false, exists_false, or_false] at h
  obtain ⟨-, rfl⟩ | ⟨n, -, -, rfl⟩ := h <;> simp [Err.apiCode]

theorem recordOnAccount_code {r : Recording} {err : Err} (h : recordOnAccount r = .error err) :
    err.apiCode ≠ some .subscriptionChargeClosed := by
  unfold recordOnAccount Recording.valid at h
  simp only [Except.bind_eq_error, Except.require_eq_error, Except.pure_ne_error, and_false,
    exists_false, or_false] at h
  obtain ⟨-, rfl⟩ | ⟨_, -, -, rfl⟩ := h <;> simp [Err.apiCode]

/-- A payment is refused over a charge that is closed, and over that only with this code. -/
theorem recordPaymentWith_code {charge : SubscriptionCharge} {sum : Int} {r : Recording} {err : Err}
    (h : recordPaymentWith charge sum r = .error err) :
    err.apiCode = some .subscriptionChargeClosed ↔
      charge.restaurantId = r.restaurantId ∧ charge.status ≠ .open := by
  unfold recordPaymentWith SubscriptionCharge.takes Recording.valid at h
  simp only [Except.bind_eq_error, Except.bind_eq_ok, Except.require_eq_error, Except.require_eq_ok,
    Except.pure_ne_error, and_false, exists_false, or_false] at h
  obtain (⟨hrestaurant, rfl⟩ | ⟨_, hrestaurant, hclosed, rfl⟩) | ⟨_, ⟨_, hrestaurant, hopen⟩, hvalid⟩ := h
  · exact iff_of_false nofun fun h => hrestaurant h.1
  · exact iff_of_true rfl ⟨hrestaurant, hclosed⟩
  · refine iff_of_false ?_ fun h => h.2 hopen
    obtain ⟨-, rfl⟩ | ⟨_, -, -, rfl⟩ := hvalid <;> nofun

theorem NoticeDb.Pends.on_account {notice : Option Uuid} {restaurantId : Uuid} {amount : Int}
    {chargeId : Option Uuid} {id : Option Uuid} (h : s.Pends notice restaurantId amount chargeId)
    (hid : ∀ c ∈ id, chargeId = some c) : s.Pends notice restaurantId amount id := by
  intro noticeId hnotice
  obtain ⟨n, hn, hpending, hpaid⟩ := h noticeId hnotice
  exact ⟨n, hn, hpending, hpaid.restaurantId, hpaid.amount, fun c hc => hpaid.charge c (hid c hc)⟩

theorem notice_goes (h : t.next s us = .goes s' t' answer) : NoticeGoes s s' us t t' answer := by
  cases t with
  | begun call =>
    cases call with
    | recordPayment restaurantId input paymentId =>
      unfold NoticePhase.next at h
      dsimp only at h
      split at h <;> cases h
      exact ⟨rfl, rfl, fun _ => nofun, fun _ k hk => by cases k <;> cases hk⟩
    | confirmNotice noticeId fxRate settle paymentId =>
      unfold NoticePhase.next at h
      dsimp only at h
      split at h
      · cases h
      · rename_i n hn
        split at h <;> cases h
        exact ⟨rfl, rfl, fun _ => ⟨rfl, n, hn, rfl, rfl, fun _ hc => hc⟩,
          fun _ k hk => by cases k <;> cases hk⟩
    | rejectNotice noticeId reason =>
      cases h
      exact ⟨rfl, rfl, fun _ => trivial, fun _ k hk => by cases k <;> cases hk⟩
    | voidCharge chargeId =>
      cases h
      exact ⟨rfl, rfl, fun _ => trivial, fun _ k hk => by cases k <;> cases hk⟩
  | lockNotice r paymentId noticeId =>
    unfold NoticePhase.next at h
    dsimp only at h
    split at h
    · cases h
    · rename_i hfree
      split at h
      · cases h
      · rename_i n hlock
        cases h
        obtain ⟨hn, hpending⟩ := lockNotice_ok hlock
        refine ⟨rfl, rfl, ?_, fun ht k hk => .inr ?_⟩
        · rintro ⟨hnotice, n', hn', hpaid⟩ id hid
          obtain rfl : noticeId = id := Option.some.inj (hnotice.symm.trans hid)
          obtain rfl : n = n' := Option.some.inj (hn.symm.trans hn')
          exact ⟨n, hn, hpending, hpaid⟩
        · cases k with
          | notice id =>
            have hid : r.notice = some id := by simpa [NoticePhase.locks] using hk
            obtain rfl : noticeId = id := Option.some.inj (ht.1.symm.trans hid)
            simpa using hfree
          | charge id => cases hk
  | readStatus r paymentId =>
    cases h
    refine ⟨rfl, rfl, fun ht => ht.on_account fun c hc => ?_, fun _ k hk => .inl ?_⟩
    · exact (Option.filter_eq_some_iff.mp hc).1
    · cases k <;> exact hk
  | lockCharge r paymentId =>
    unfold NoticePhase.next at h
    dsimp only at h
    split at h
    · rename_i hnone
      split at h
      · cases h
      · rename_i payment hrecord
        cases h
        obtain ⟨hrestaurant, hamount, hcharge⟩ := recordOnAccount_row hrecord
        refine ⟨rfl, rfl, fun ht => ?_, fun _ k hk => .inl ?_⟩
        · change s.Pends r.notice payment.restaurantId payment.amount payment.chargeId ∧
            s.OpenFor payment.chargeId
          rw [hrestaurant, hamount, hcharge]
          exact ⟨hnone ▸ ht, nofun⟩
        · cases k with
          | notice id => exact hk
          | charge id => simp [NoticePhase.locks, hcharge] at hk
    · rename_i chargeId hcharge
      split at h <;> cases h
      refine ⟨rfl, rfl, fun ht => ?_, fun _ k hk => .inl ?_⟩
      · exact NoticeDb.Pends.on_account ht fun c hc => hcharge.trans hc
      · cases k with
        | notice id => exact hk
        | charge id => cases hk
  | waitCharge r paymentId chargeId sum =>
    unfold NoticePhase.next at h
    dsimp only at h
    split at h
    · cases h
    · rename_i hfree
      split at h
      · cases h
      · rename_i charge hfind
        split at h
        · cases h
        · rename_i payment hrecord
          cases h
          obtain ⟨hrestaurant, hamount, hcharge⟩ := recordPaymentWith_row hrecord
          obtain ⟨-, -, hopen, -⟩ := recordPaymentWith_ok hrecord
          obtain rfl : charge.id = chargeId := Table.find?_key hfind
          refine ⟨rfl, rfl, fun ht => ?_, fun _ k hk => ?_⟩
          · change s.Pends r.notice payment.restaurantId payment.amount payment.chargeId ∧
              s.OpenFor payment.chargeId
            rw [hrestaurant, hamount, hcharge]
            refine ⟨ht, fun id hid => ?_⟩
            obtain rfl := Option.some.inj hid
            exact ⟨charge, hfind, hopen⟩
          · cases k with
            | notice id => exact .inl hk
            | charge id =>
              obtain rfl : charge.id = id := by simpa [NoticePhase.locks, hcharge] using hk
              exact .inr (by simpa using hfree)
  | inserting payment notice =>
    unfold NoticePhase.next at h
    dsimp only at h
    split at h
    · cases h
    · split at h <;> cases h
      exact ⟨rfl, rfl, id, fun _ k hk => .inl (by cases k <;> exact hk)⟩
  | recorded payment notice =>
    unfold NoticePhase.next at h
    dsimp only at h
    split at h <;> cases h
  | lockRejected noticeId reason =>
    unfold NoticePhase.next at h
    dsimp only at h
    split at h
    · cases h
    · rename_i hfree
      split at h
      · cases h
      · rename_i n hlock
        cases h
        refine ⟨rfl, rfl, fun _ => ⟨n, lockNotice_ok hlock⟩, fun _ k hk => .inr ?_⟩
        cases k with
        | notice id =>
          obtain rfl : noticeId = id := by simpa [NoticePhase.locks] using hk
          simpa using hfree
        | charge id => cases hk
  | rejected noticeId reason => cases h
  | lockVoid chargeId =>
    unfold NoticePhase.next at h
    dsimp only at h
    split at h <;> cases h
    exact ⟨rfl, rfl, fun _ => trivial, fun _ k hk => by cases k <;> cases hk⟩
  | waitVoid chargeId sum =>
    unfold NoticePhase.next at h
    dsimp only at h
    split at h
    · cases h
    · rename_i hfree
      split at h
      · cases h
      · rename_i charge hfind
        split at h
        · cases h
        · rename_i hvoid
          cases h
          refine ⟨rfl, rfl, fun _ id hid => ?_, fun _ k hk => .inr ?_⟩
          · obtain rfl := Option.some.inj hid
            exact ⟨charge, hfind, (voidChargeWith_ok hvoid).1⟩
          · cases k with
            | notice id => cases hk
            | charge id =>
              obtain rfl : chargeId = id := by simpa [NoticePhase.locks] using hk
              simpa using hfree
  | voided chargeId => cases h

theorem notice_ends (h : t.next s us = .ends s' answer) : NoticeDoes s s' us t answer := by
  have hrefused : ∀ notice err, (∀ noticeId ∈ notice,
      err.apiCode = some .subscriptionChargeClosed → ¬StillOpen s us t) →
      NoticeDoes s s us t [.refused notice err] := fun notice err hcode =>
    .quiet _ rfl (fun e he => ⟨notice, err, List.mem_singleton.mp he, hcode⟩) le_rfl
  cases t with
  | begun call =>
    cases call with
    | recordPayment restaurantId input paymentId =>
      unfold NoticePhase.next at h
      dsimp only at h
      split at h <;> cases h
      exact hrefused _ _ nofun
    | confirmNotice noticeId fxRate settle paymentId =>
      unfold NoticePhase.next at h
      dsimp only at h
      split at h
      · cases h
        exact hrefused _ _ fun _ _ => nofun
      · split at h
        · rename_i hprepare
          cases h
          exact hrefused _ _ fun _ _ hcode => absurd hcode (preparePayment_code hprepare)
        · cases h
    | rejectNotice noticeId reason => cases h
    | voidCharge chargeId => cases h
  | lockNotice r paymentId noticeId =>
    unfold NoticePhase.next at h
    dsimp only at h
    split at h
    · cases h
    · split at h
      · rename_i hlock
        cases h
        exact hrefused _ _ fun _ _ hcode => absurd hcode (lockNotice_code hlock)
      · cases h
  | readStatus r paymentId => cases h
  | lockCharge r paymentId =>
    unfold NoticePhase.next at h
    dsimp only at h
    split at h
    · split at h
      · rename_i hrecord
        cases h
        exact hrefused _ _ fun _ _ hcode => absurd hcode (recordOnAccount_code hrecord)
      · cases h
    · split at h <;> cases h
      exact hrefused _ _ fun _ _ => nofun
  | waitCharge r paymentId chargeId sum =>
    unfold NoticePhase.next at h
    dsimp only at h
    split at h
    · cases h
    · rename_i hfree
      split at h
      · cases h
        exact hrefused _ _ fun _ _ => nofun
      · rename_i charge hfind
        split at h
        · rename_i hrecord
          cases h
          refine hrefused _ _ fun noticeId hnotice hcode hopen => ?_
          obtain ⟨hrestaurant, hclosed⟩ := (recordPaymentWith_code hrecord).mp hcode
          refine hclosed (hopen ?_ (by simpa using hfree) charge hfind hrestaurant)
          rw [Option.mem_def.mp hnotice]
          rfl
        · cases h
  | inserting payment notice =>
    unfold NoticePhase.next at h
    dsimp only at h
    split at h
    · cases h
    · split at h <;> cases h
      exact hrefused _ _ fun _ _ => nofun
  | recorded payment notice =>
    unfold NoticePhase.next at h
    dsimp only at h
    split at h
    · cases h
      exact hrefused _ _ fun _ _ => nofun
    · rename_i s₁ hrecord
      cases h
      exact .recorded payment notice rfl hrecord
  | lockRejected noticeId reason =>
    unfold NoticePhase.next at h
    dsimp only at h
    split at h
    · cases h
    · split at h
      · rename_i hlock
        cases h
        exact hrefused _ _ fun _ _ hcode => absurd hcode (lockNotice_code hlock)
      · cases h
  | rejected noticeId reason =>
    cases h
    exact .rejected noticeId reason rfl rfl
  | lockVoid chargeId =>
    unfold NoticePhase.next at h
    dsimp only at h
    split at h <;> cases h
    exact hrefused _ _ nofun
  | waitVoid chargeId sum =>
    unfold NoticePhase.next at h
    dsimp only at h
    split at h
    · cases h
    · split at h
      · cases h
        exact hrefused _ _ nofun
      · split at h <;> cases h
        exact hrefused _ _ nofun
  | voided chargeId =>
    cases h
    exact .voided chargeId rfl rfl

/-- A confirmation whose charge has been closed is refused. -/
theorem next_overtaken (h : ¬StillOpen s us t) : ∃ noticeId err,
    t.next s us = .ends s [.refused (some noticeId) err] ∧
      err.apiCode = some .subscriptionChargeClosed := by
  cases t with
  | waitCharge r paymentId chargeId sum =>
    unfold StillOpen at h
    push Not at h
    obtain ⟨hnotice, hfree, charge, hfind, hrestaurant, hclosed⟩ := h
    obtain ⟨noticeId, hnotice⟩ := Option.isSome_iff_exists.mp hnotice
    cases hrecord : recordPaymentWith charge sum r with
    | ok payment => exact absurd (recordPaymentWith_ok hrecord).2.2.1 hclosed
    | error err =>
      refine ⟨noticeId, err, ?_, (recordPaymentWith_code hrecord).mpr ⟨hrestaurant, hclosed⟩⟩
      simp only [NoticePhase.next, hfree, Bool.false_eq_true, if_false, Option.mem_def.mp hfind, hrecord,
        hnotice]
  | _ => exact absurd trivial h

/-- What a payment writes. -/
theorem record_rows {payment : PaymentRow} {notice : Option Uuid} (h : s.record payment notice = some s') :
    s'.payments.rows = s.payments.rows ++ [payment] ∧ (∀ p ∈ s.payments, p.id ≠ payment.id) ∧
      (∀ id, payment.chargeId ≠ some id → s'.charges.find? id = s.charges.find? id) ∧
      s'.notices = notice.elim s.notices fun noticeId =>
        s.notices.update noticeId (NoticeRow.confirm payment.id) (NoticeRow.confirm_key payment.id) := by
  obtain ⟨payments, hinsert, rfl⟩ := Option.map_eq_some_iff.mp h
  obtain ⟨hfree, hrows⟩ := Table.insert?_eq_some.mp hinsert
  refine ⟨hrows, hfree, fun id hne => ?_, rfl⟩
  dsimp only
  split
  · cases hcharge : payment.chargeId with
    | none => rfl
    | some chargeId =>
      rw [Option.elim_some, Table.find?_update, if_neg]
      rintro rfl
      exact hne hcharge
  · rfl

/-- A statement leaves the rows that its call has not locked. -/
theorem NoticeDoes.frame (h : NoticeDoes s s' us t answer) :
    (∀ id, t.locks (.notice id) = false → s'.notices.find? id = s.notices.find? id) ∧
      ∀ id, t.locks (.charge id) = false → s'.charges.find? id = s.charges.find? id := by
  cases h with
  | quiet _ hsame =>
    subst hsame
    exact ⟨fun _ _ => rfl, fun _ _ => rfl⟩
  | recorded payment notice hphase hrecord =>
    subst hphase
    obtain ⟨-, -, hcharges, hnotices⟩ := record_rows hrecord
    refine ⟨fun id hid => ?_, fun id hid => hcharges id (by simpa [NoticePhase.locks] using hid)⟩
    rw [hnotices]
    cases notice with
    | none => rfl
    | some noticeId =>
      have hne : noticeId ≠ id := by simpa [NoticePhase.locks] using hid
      exact (Table.find?_update_with _ (NoticeRow.confirm_key payment.id) id).trans (if_neg hne.symm)
  | rejected noticeId reason hphase hs' =>
    subst hphase hs'
    refine ⟨fun id hid => ?_, fun _ _ => rfl⟩
    have hne : noticeId ≠ id := by simpa [NoticePhase.locks] using hid
    exact (Table.find?_update_with _ (NoticeRow.reject_key reason) id).trans (if_neg hne.symm)
  | voided chargeId hphase hs' =>
    subst hphase hs'
    refine ⟨fun _ _ => rfl, fun id hid => ?_⟩
    have hne : chargeId ≠ id := by simpa [NoticePhase.locks] using hid
    exact (Table.find?_update_with _ (SubscriptionCharge.close_key .void) id).trans (if_neg hne.symm)

/-- A statement keeps of each notice what is to be paid. -/
theorem NoticeDoes.kept (h : NoticeDoes s s' us t answer) {id : Uuid} {n : NoticeRow}
    (hn : s.notices.find? id = some n) : ∃ n', s'.notices.find? id = some n' ∧
      n'.restaurantId = n.restaurantId ∧ n'.amount = n.amount ∧ n'.chargeId = n.chargeId ∧
      (n'.status = .pending → n' = n) := by
  have hupdate : ∀ (noticeId : Uuid) (f : NoticeRow → NoticeRow) (hf : ∀ r, Keyed.key (f r) = Keyed.key r),
      (∀ r, (f r).restaurantId = r.restaurantId ∧ (f r).amount = r.amount ∧
        (f r).chargeId = r.chargeId ∧ (f r).status ≠ .pending) →
      ∃ n', (s.notices.update noticeId f hf).find? id = some n' ∧
        n'.restaurantId = n.restaurantId ∧ n'.amount = n.amount ∧ n'.chargeId = n.chargeId ∧
        (n'.status = .pending → n' = n) := by
    intro noticeId f hf hkeeps
    rw [Table.find?_update]
    split
    · obtain ⟨hrestaurant, hamount, hcharge, hstatus⟩ := hkeeps n
      exact ⟨f n, by rw [hn, Option.map_some], hrestaurant, hamount, hcharge,
        fun hpending => absurd hpending hstatus⟩
    · exact ⟨n, hn, rfl, rfl, rfl, fun _ => rfl⟩
  cases h with
  | quiet _ hsame =>
    subst hsame
    exact ⟨n, hn, rfl, rfl, rfl, fun _ => rfl⟩
  | recorded payment notice hphase hrecord =>
    rw [(record_rows hrecord).2.2.2]
    cases notice with
    | none => exact ⟨n, hn, rfl, rfl, rfl, fun _ => rfl⟩
    | some noticeId =>
      exact hupdate noticeId _ (NoticeRow.confirm_key payment.id) fun r => ⟨rfl, rfl, rfl, nofun⟩
  | rejected noticeId reason hphase hs' =>
    subst hs'
    exact hupdate noticeId _ (NoticeRow.reject_key reason) fun r => ⟨rfl, rfl, rfl, nofun⟩
  | voided chargeId hphase hs' =>
    subst hs'
    exact ⟨n, hn, rfl, rfl, rfl, fun _ => rfl⟩

/-- What another call knows it still knows. -/
theorem NoticeDoes.sound_other (h : NoticeDoes s s' us t answer) (hu : u.Sound s) (hapart : t.Apart u) :
    u.Sound s' := by
  have hfree : ∀ k, u.locks k = true → t.locks k = false := hapart.symm
  obtain ⟨hnotices, hcharges⟩ := h.frame
  have hpends : ∀ {notice restaurantId amount chargeId}, s.Pends notice restaurantId amount chargeId →
      (∀ id ∈ notice, u.locks (.notice id) = true) → s'.Pends notice restaurantId amount chargeId := by
    intro notice restaurantId amount chargeId hpends hlocked id hid
    obtain ⟨n, hn, hrest⟩ := hpends id hid
    exact ⟨n, (hnotices id (hfree _ (hlocked id hid))).trans hn, hrest⟩
  have hopens : ∀ {chargeId}, s.OpenFor chargeId → (∀ id ∈ chargeId, u.locks (.charge id) = true) →
      s'.OpenFor chargeId := by
    intro chargeId hopen hlocked id hid
    obtain ⟨c, hc, hrest⟩ := hopen id hid
    exact ⟨c, (hcharges id (hfree _ (hlocked id hid))).trans hc, hrest⟩
  cases u with
  | lockNotice r paymentId noticeId =>
    obtain ⟨hnotice, n, hn, hpaid⟩ := hu
    obtain ⟨n', hn', hrestaurant, hamount, hcharge, -⟩ := h.kept hn
    refine ⟨hnotice, n', hn', ?_, ?_, fun id hid => ?_⟩
    · exact hpaid.restaurantId.trans hrestaurant.symm
    · exact hpaid.amount.trans hamount.symm
    · exact hcharge.trans (hpaid.charge id hid)
  | readStatus r paymentId => exact hpends hu fun id hid => by simpa [NoticePhase.locks] using hid
  | lockCharge r paymentId => exact hpends hu fun id hid => by simpa [NoticePhase.locks] using hid
  | waitCharge r paymentId chargeId sum =>
    exact hpends hu fun id hid => by simpa [NoticePhase.locks] using hid
  | inserting payment notice =>
    exact ⟨hpends hu.1 fun id hid => by simpa [NoticePhase.locks] using hid,
      hopens hu.2 fun id hid => by simpa [NoticePhase.locks] using hid⟩
  | recorded payment notice =>
    exact ⟨hpends hu.1 fun id hid => by simpa [NoticePhase.locks] using hid,
      hopens hu.2 fun id hid => by simpa [NoticePhase.locks] using hid⟩
  | rejected noticeId reason =>
    obtain ⟨n, hn, hpending⟩ := hu
    exact ⟨n, (hnotices noticeId (hfree _ (by simp [NoticePhase.locks]))).trans hn, hpending⟩
  | voided chargeId =>
    exact hopens hu fun id hid => by simpa [NoticePhase.locks] using hid
  | _ => trivial

/-- A notice becomes confirmed with its payment. -/
theorem NoticeDoes.confirmed (h : NoticeDoes s s' us t answer) (ht : t.Sound s) {n : NoticeRow}
    (hn : n ∈ s'.notices) (hconfirmed : n.status = .confirmed) : n ∈ s.notices ∨
      ∃ payment ∈ s'.payments, s'.payments.rows = s.payments.rows ++ [payment] ∧
        (∀ p ∈ s.payments, p.id ≠ payment.id) ∧ answer = [.confirmed n.id payment] ∧
        (∃ n₀ ∈ s.notices, n₀.id = n.id ∧ n₀.status = .pending) ∧ n.paymentId = some payment.id ∧
        n.PaidBy payment.restaurantId payment.amount payment.chargeId ∧ s.OpenFor payment.chargeId := by
  cases h with
  | quiet _ hsame => exact .inl (hsame ▸ hn)
  | recorded payment notice hphase hrecord =>
    subst hphase
    obtain ⟨hrows, hfresh, -, hnotices⟩ := record_rows hrecord
    rw [hnotices] at hn
    cases notice with
    | none => exact .inl hn
    | some noticeId =>
      obtain ⟨n₀, hn₀, hpending, hpaid⟩ := ht.1 noticeId rfl
      obtain rfl : n₀.id = noticeId := Table.find?_key hn₀
      rcases (Table.mem_update_of_find _ (NoticeRow.confirm_key payment.id) hn₀).mp hn with rfl | ⟨hold, -⟩
      · refine .inr ⟨payment, ?_, hrows, hfresh, rfl, ⟨n₀, Table.find?_mem hn₀, rfl, hpending⟩, rfl, ?_,
          ht.2⟩
        · rw [Table.mem_def, hrows]
          exact List.mem_append_right _ (List.mem_singleton.mpr rfl)
        · exact ⟨hpaid.restaurantId, hpaid.amount, hpaid.charge⟩
      · exact .inl hold
  | rejected noticeId reason hphase hs' =>
    subst hs'
    simp only [Table.mem_update] at hn
    obtain ⟨n₀, hn₀, rfl⟩ := hn
    split at hconfirmed
    · cases hconfirmed
    · rename_i hne
      rw [if_neg hne]
      exact .inl hn₀
  | voided chargeId hphase hs' =>
    subst hs'
    exact .inl hn

theorem NoticeDoes.payments_kept (h : NoticeDoes s s' us t answer) : ∀ p ∈ s.payments, p ∈ s'.payments := by
  intro p hp
  cases h with
  | quiet _ hsame => exact hsame ▸ hp
  | recorded payment notice hphase hrecord =>
    rw [Table.mem_def, (record_rows hrecord).1]
    exact List.mem_append_left _ hp
  | rejected noticeId reason hphase hs' => exact hs' ▸ hp
  | voided chargeId hphase hs' => exact hs' ▸ hp

theorem NoticeDoes.backed (h : NoticeDoes s s' us t answer) (hs : s.Backed) (ht : t.Sound s) :
    s'.Backed where
  payment n hn hconfirmed := by
    rcases h.confirmed ht hn hconfirmed with hold | ⟨payment, hmem, -, -, -, -, hid, hpaid, -⟩
    · obtain ⟨p, hp, hrest⟩ := hs.payment n hold hconfirmed
      exact ⟨p, h.payments_kept p hp, hrest⟩
    · exact ⟨payment, hmem, hid, hpaid⟩
  own n hn n' hn' hconfirmed hconfirmed' hsame := by
    rcases h.confirmed ht hn hconfirmed with hold | ⟨payment, -, -, hfresh, hanswer, -, hid, -⟩ <;>
    rcases h.confirmed ht hn' hconfirmed' with hold' | ⟨payment', -, -, hfresh', hanswer', -, hid', -⟩
    · exact hs.own n hold n' hold' hconfirmed hconfirmed' hsame
    · obtain ⟨p, hp, hpid, -⟩ := hs.payment n hold hconfirmed
      exact absurd (Option.some.inj (hpid.symm.trans (hsame.trans hid'))) (hfresh' p hp)
    · obtain ⟨p, hp, hpid, -⟩ := hs.payment n' hold' hconfirmed'
      exact absurd (Option.some.inj (hpid.symm.trans (hsame.symm.trans hid))) (hfresh p hp)
    · have hevent := (List.cons.inj (hanswer.symm.trans hanswer')).1
      injection hevent with hkey
      exact Table.eq_of_key hn hn' hkey

/-- A notice is pending before it is reviewed, and not behind that. -/
theorem NoticeDoes.reviewed (h : NoticeDoes s s' us t answer) (ht : t.Sound s) {e : NoticeEvent}
    (he : e ∈ answer) {id : Uuid} (hreviews : e.reviews = some id) :
    (∃ n, s.notices.find? id = some n ∧ n.status = .pending) ∧
      ∃ n, s'.notices.find? id = some n ∧ n.status ≠ .pending := by
  cases h with
  | quiet _ _ hrefused =>
    obtain ⟨notice, err, rfl, -⟩ := hrefused e he
    cases hreviews
  | recorded payment notice hphase hrecord =>
    subst hphase
    obtain rfl := List.mem_singleton.mp he
    cases notice with
    | none => cases hreviews
    | some noticeId =>
      obtain rfl := Option.some.inj hreviews
      obtain ⟨n, hn, hpending, -⟩ := ht.1 noticeId rfl
      refine ⟨⟨n, hn, hpending⟩, n.confirm payment.id, ?_, nofun⟩
      rw [(record_rows hrecord).2.2.2]
      exact Table.find?_update_self _ (NoticeRow.confirm_key payment.id) hn
  | rejected noticeId reason hphase hs' =>
    subst hphase hs'
    obtain rfl := List.mem_singleton.mp he
    obtain rfl := Option.some.inj hreviews
    obtain ⟨n, hn, hpending⟩ := ht
    exact ⟨⟨n, hn, hpending⟩, n.reject reason,
      Table.find?_update_self _ (NoticeRow.reject_key reason) hn, nofun⟩
  | voided =>
    obtain rfl := List.mem_singleton.mp he
    cases hreviews

end Statements

/-! ## Every interleaving -/

/-- A notice is pending for the call that has locked it, and a charge open for the payment on it. -/
theorem noticingRule : noticing.Rule (fun _ => True) (fun _ _ _ => True) NoticeDb.Backed
    (fun s t => t.Sound s) NoticePhase.Apart where
  symm _ _ := NoticePhase.Apart.symm
  start s call _ _ := ⟨trivial, fun u _ k hk => by cases k <;> cases hk⟩
  goes s us t hs ht hus _ s' t' answer hnext := by
    have hgoes := notice_goes hnext
    obtain rfl := hgoes.same
    refine ⟨hs, hgoes.sound ht, fun u hu => ⟨(hus u hu).1, fun k hk => ?_⟩⟩
    rcases hgoes.lock ht k hk with hheld | hfree
    · exact (hus u hu).2 k hheld
    · exact hfree u hu
  ends s us t hs ht hus _ s' answer hnext := by
    have hdoes := notice_ends hnext
    exact ⟨hdoes.backed hs ht, fun u hu => hdoes.sound_other (hus u hu).1 (hus u hu).2⟩

/-- What holds of the calls at every moment. -/
abbrev Noticed (w : Sessions NoticeDb NoticePhase) : Prop :=
  Protocol.Holds NoticeDb.Backed (fun s t => t.Sound s) NoticePhase.Apart w

section Moves

variable {w : Sessions NoticeDb NoticePhase} {m : Move NoticeCall}

/-- What any move does is what some statement does, and that one may run when the move may. -/
theorem notice_move (hw : Noticed w) (m : Move NoticeCall) : ∃ us t, t.Sound w.committed ∧
    NoticeDoes w.committed (noticing.machine.step w m).1.committed us t (noticing.machine.step w m).2 ∧
    (Protocol.Allowed (fun _ => True) StillOpen w m → StillOpen w.committed us t) := by
  rcases Protocol.move_cases (p := noticing) w m with
    ⟨r, hfind, rfl, hcommitted, hanswer⟩ | ⟨hcommitted, hanswer, -⟩
  · rw [hcommitted, hanswer]
    refine ⟨w.others r.id, r.state, hw.session r (Table.find?_mem hfind), ?_, fun h => h r hfind⟩
    cases hnext : noticing.next w.committed (w.others r.id) r.state with
    | waits => exact .quiet _ rfl nofun Nat.one_pos.le
    | goes s' t' answer =>
      have hgoes := notice_goes hnext
      obtain rfl := hgoes.same
      obtain rfl := hgoes.silent
      exact .quiet _ rfl nofun Nat.one_pos.le
    | ends s' answer => exact notice_ends hnext
  · rw [hcommitted, hanswer]
    exact ⟨[], .begun (.voidCharge 0), trivial, .quiet _ rfl nofun Nat.one_pos.le, fun _ => trivial⟩

/-- A move keeps every confirmed notice backed; a notice that it confirms was pending, and lands one
payment, on its charge only while that is open; and it does not refuse a notice over a closed charge. -/
structure LandsOnce (w : Sessions NoticeDb NoticePhase) (m : Move NoticeCall) : Prop where
  backed : (noticing.machine.step w m).1.committed.Backed
  lands : ∀ n ∈ (noticing.machine.step w m).1.committed.notices, n.status = .confirmed →
    n ∈ w.committed.notices ∨ ∃ payment,
      (noticing.machine.step w m).1.committed.payments.rows = w.committed.payments.rows ++ [payment] ∧
      (∃ n₀ ∈ w.committed.notices, n₀.id = n.id ∧ n₀.status = .pending) ∧
      n.paymentId = some payment.id ∧ n.PaidBy payment.restaurantId payment.amount payment.chargeId ∧
      w.committed.OpenFor payment.chargeId
  unhindered : ∀ noticeId err, .refused (some noticeId) err ∈ (noticing.machine.step w m).2 →
    err.apiCode ≠ some .subscriptionChargeClosed

theorem lands_once (hw : Noticed w) (hopen : Protocol.Allowed (fun _ => True) StillOpen w m) :
    LandsOnce w m := by
  obtain ⟨us, t, ht, hdoes, hallowed⟩ := notice_move hw m
  refine ⟨hdoes.backed hw.committed ht, fun n hn hconfirmed => ?_, fun noticeId err he hcode => ?_⟩
  · rcases hdoes.confirmed ht hn hconfirmed with hold | ⟨payment, -, hrows, -, -, hpending, hrest⟩
    · exact .inl hold
    · exact .inr ⟨payment, hrows, hpending, hrest⟩
  · generalize (noticing.machine.step w m).2 = answer at hdoes he
    cases hdoes with
    | quiet _ _ hrefused =>
      obtain ⟨notice, err', heq, hclosed⟩ := hrefused _ he
      cases heq
      exact hclosed noticeId rfl hcode (hallowed hopen)
    | recorded payment notice =>
      cases notice <;> exact absurd (List.mem_singleton.mp he) nofun
    | rejected => exact absurd (List.mem_singleton.mp he) nofun
    | voided => exact absurd (List.mem_singleton.mp he) nofun

/-- A move lands a confirmation exactly when the charge that it comes to lock is still open. -/
theorem lands_once_allowed (hw : Noticed w) :
    LandsOnce w m ↔ Protocol.Allowed (fun _ => True) StillOpen w m := by
  refine ⟨fun h => ?_, lands_once hw⟩
  cases m with
  | start id call => trivial
  | abort id => trivial
  | go id =>
    intro r hr
    by_contra hovertaken
    obtain ⟨noticeId, err, hnext, hcode⟩ := next_overtaken hovertaken
    refine h.unhindered noticeId err ?_ hcode
    rw [Protocol.answer_go hr]
    change _ ∈ (r.state.next w.committed (w.others id)).answer
    rw [hnext]
    exact List.mem_singleton.mpr rfl

end Moves

/-- A notice is pending when it is reviewed, and never again. -/
theorem reviewedRule : noticing.machine.SpendingRule Noticed (fun _ _ => True)
    (fun e id => e.reviews = some id) NoticeEvent.reviews (fun _ _ => False)
    (fun w id => ∃ n, w.committed.notices.find? id = some n ∧ n.status ≠ .pending) where
  step w m hw _ := noticingRule.step w m hw (Protocol.allowed_any m)
  one w m hw _ := by
    obtain ⟨us, t, -, hdoes, -⟩ := notice_move hw m
    generalize (noticing.machine.step w m).2 = answer at hdoes
    cases hdoes with
    | quiet _ _ _ hlength => exact hlength
    | recorded | rejected | voided => exact le_rfl
  used w m hw _ e he id hreviews := by
    obtain ⟨us, t, ht, hdoes, -⟩ := notice_move hw m
    obtain ⟨⟨n, hn, hpending⟩, -⟩ := hdoes.reviewed ht he hreviews
    rintro ⟨n', hn', hreviewed⟩
    obtain rfl : n = n' := Option.some.inj (hn.symm.trans hn')
    exact hreviewed hpending
  done w m hw _ id hdone := by
    obtain ⟨us, t, ht, hdoes, -⟩ := notice_move hw m
    left
    rcases hdone with ⟨n, hn, hreviewed⟩ | ⟨e, he, hreviews⟩
    · obtain ⟨n', hn', -, -, -, hsame⟩ := hdoes.kept hn
      refine ⟨n', hn', fun hpending => hreviewed ?_⟩
      rw [← hsame hpending]
      exact hpending
    · exact (hdoes.reviewed ht he hreviews).2

/-- Each notice is reviewed at most once, and each move lands what it confirms. -/
def Lands (s : NoticeDb) (moves : List (Move NoticeCall)) : Prop :=
  SpentOnce NoticeEvent.reviews (fun _ _ => False) (noticing.machine.outputs (Sessions.start s) moves) ∧
    noticing.machine.Every LandsOnce (Sessions.start s) moves

/-- However the calls interleave, each notice is reviewed at most once and lands once what it is of, and
no confirmation is refused over its charge, exactly when every confirmation that comes to lock a charge
finds it still open. -/
theorem lands_once_iff (s : NoticeDb) (hs : s.Backed) (moves : List (Move NoticeCall)) :
    Lands s moves ↔
      noticing.machine.Every (Protocol.Allowed (fun _ => True) StillOpen) (Sessions.start s) moves := by
  have hany : noticing.machine.Every (fun _ _ => True) (Sessions.start s) moves :=
    Machine.every_input.mpr fun _ _ => trivial
  refine (and_iff_right (reviewedRule.outputs_barred (.start hs) hany)).trans ?_
  exact Machine.every_iff (I := Noticed) (fun w m hw => lands_once_allowed hw)
    (fun w m hw _ => noticingRule.step w m hw (Protocol.allowed_any m)) (.start hs)

/-! ## A charge that is paid between the two looks at it -/

/-- The owner has paid july, and says so. -/
def julyPaid : NoticeDb where
  charges := ⟨[july], by decide⟩
  payments := ∅
  notices := ⟨[{ id := 1, restaurantId := 1, chargeId := some 1, currency := .usd, amount := 10000,
                 status := .pending, paymentId := none, rejectReason := none,
                 amount_check := july.amount_check, rejected_check := nofun, confirmed_check := nofun }], by decide⟩

theorem julyPaid_backed : julyPaid.Backed where
  payment n hn hconfirmed := by
    obtain rfl := List.mem_singleton.mp hn
    cases hconfirmed
  own n hn n' hn' _ _ _ := by
    obtain rfl := List.mem_singleton.mp hn
    obtain rfl := List.mem_singleton.mp hn'
    rfl

/-- `confirmNotice` reads that the charge is open, and another payment closes it. -/
def overtaking : List (Move NoticeCall) :=
  [.start 0 (.confirmNotice 1 none false 7), .go 0, .go 0, .go 0,
    .start 1 (.recordPayment 1 ⟨some 1, .usd, 10000, none, false⟩ 8), .go 1, .go 1, .go 1, .go 1, .go 1,
    .go 0, .go 0]

theorem julyPaid_lands_iff : Lands julyPaid overtaking ↔
    noticing.machine.Every (Protocol.Allowed (fun _ => True) StillOpen) (Sessions.start julyPaid)
      overtaking :=
  lands_once_iff julyPaid julyPaid_backed overtaking

/-- The confirmation fails with the money in the bank. -/
theorem confirmation_overtaken : ¬Lands julyPaid overtaking := by
  rintro ⟨-, hevery⟩
  have hlast := Machine.every_iff_forall.mp hevery overtaking.dropLast (.go 0) [] rfl
  refine hlast.unhindered 1 (.api .subscriptionChargeClosed "This charge is already closed"
    [("status", "PAID")]) ?_ rfl
  decide +kernel

/-- A confirmation that reads behind the payment is recorded on account. -/
example : ((noticing.machine.outputs (Sessions.start julyPaid)
    [.start 0 (.confirmNotice 1 none false 7), .go 0, .go 0,
      .start 1 (.recordPayment 1 ⟨some 1, .usd, 10000, none, false⟩ 8), .go 1, .go 1, .go 1, .go 1, .go 1,
      .go 0, .go 0, .go 0, .go 0]).filterMap fun
        | .confirmed noticeId payment => some (noticeId, payment.amount, payment.chargeId)
        | _ => none) = [(1, 10000, none)] := by decide +kernel

end Splite
