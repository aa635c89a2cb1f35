import Splite.Money
import Splite.Platform.Calendar
import Splite.Lib.Except
import Splite.Lib.Interleave

/-!
# A subscription charge (`services/platformBilling.js`, `services/subscriptionNotices.js`)

`recordPayment`, `confirmNotice` and `voidCharge` about one charge, statement by statement. The sum of
the payments that `lockCharge` answers with is the one of the moment when its statement began, and the
row of the charge is the one that it has locked.

* `chargesRule`: who holds the charge sees it as it is, and a sum that is not more than it is.
* `settles_iff`: the charge is paid exactly when it is covered, and no payment is left on a void one,
  exactly when every transaction that commits decided as it would on the sum of then.
-/

namespace Splite

inductive ChargeStatus where
  | open
  | paid
  | void
  deriving DecidableEq, Repr

def ChargeStatus.text : ChargeStatus → String
  | .open => "OPEN"
  | .paid => "PAID"
  | .void => "VOID"

/-- A row of `subscription_charges`, with its checks. -/
@[ext]
structure SubscriptionCharge where
  id : Uuid
  restaurantId : Uuid
  periodStart : Day
  periodEnd : Day
  amountUsd : Int
  status : ChargeStatus
  period_check : periodStart < periodEnd
  amount_check : 0 < amountUsd
  deriving Repr

instance : DecidableEq SubscriptionCharge := fun _ _ => decidable_of_iff' _ SubscriptionCharge.ext_iff

/-- A row of `subscription_payments`, with what its row of `operator_audit` says. -/
structure SubscriptionPayment where
  restaurantId : Uuid
  chargeId : Option Uuid
  amount : Int
  appliedUsd : Int
  closedCharge : Bool
  settledShort : Bool
  deriving DecidableEq, Repr

inductive NoticeStatus where
  | pending
  | confirmed
  | rejected
  deriving DecidableEq, Repr

def NoticeStatus.text : NoticeStatus → String
  | .pending => "PENDING"
  | .confirmed => "CONFIRMED"
  | .rejected => "REJECTED"

inductive PaymentCurrency where
  | ves
  | usd
  deriving DecidableEq, Repr

/-- A row of `subscription_payment_notices`. -/
structure PaymentNotice where
  id : Uuid
  restaurantId : Uuid
  chargeId : Option Uuid
  currency : PaymentCurrency
  amount : Int
  status : NoticeStatus
  deriving DecidableEq, Repr

instance : Keyed PaymentNotice Uuid := ⟨PaymentNotice.id⟩

/-- What is committed about one charge. -/
structure ChargeBook where
  charge : SubscriptionCharge
  payments : List SubscriptionPayment
  notices : Table PaymentNotice

namespace ChargeBook

/-- A charge that has just been created. -/
def created (charge : SubscriptionCharge) (notices : Table PaymentNotice) : ChargeBook :=
  ⟨{ charge with status := .open }, [], notices⟩

/-- The payments of the charge. -/
def onCharge (b : ChargeBook) : List SubscriptionPayment :=
  b.payments.filter fun p => p.chargeId = some b.charge.id

/-- `SELECT COALESCE(SUM(p.applied_usd), 0) …`. -/
def appliedUsd (b : ChargeBook) : Int := (b.onCharge.map (·.appliedUsd)).sum

end ChargeBook

/-! ## The calls -/

/-- What the calls read of the body of a payment; the rate is the one that was sent, or today's. -/
structure PaymentInput where
  chargeId : Option Uuid
  currency : PaymentCurrency
  amount : Int
  fxRate : Option Int
  settle : Bool
  deriving DecidableEq, Repr

/-- `preparePayment(input)`: what the payment takes off a charge. -/
def preparePayment (input : PaymentInput) : Except Err Int :=
  match input.currency with
  | .usd => .ok input.amount
  | .ves =>
    match input.fxRate with
    | none =>
      .error (.api .validationFailed "Send fxRate: there is no BCV rate available today"
        [("fieldPaths", "fxRate")])
    | some rate => do divideByRate input.amount (← parseRate rate) "Applied amount"

inductive SubscriptionCall where
  | recordPayment (restaurantId : Uuid) (input : PaymentInput)
  | confirmNotice (noticeId : Uuid) (fxRate : Option Int) (settle : Bool)
  | voidCharge
  deriving DecidableEq, Repr

/-- A payment on its way into `recordPaymentWith`, for a notice or by itself. -/
structure Recording where
  restaurantId : Uuid
  input : PaymentInput
  applied : Int
  notice : Option Uuid
  deriving DecidableEq, Repr

/-- What the charge is locked for. -/
inductive Purpose where
  | record (r : Recording)
  | void
  deriving DecidableEq, Repr

/-- The next statement of a call. -/
inductive ChargePhase where
  | begun (call : SubscriptionCall)
  /-- `SELECT … FOR UPDATE` of the notice. -/
  | lockNotice (r : Recording) (noticeId : Uuid)
  /-- The notice is locked; `SELECT status FROM subscription_charges …`. -/
  | readStatus (r : Recording)
  /-- `lockCharge`, which begins. -/
  | lockCharge (p : Purpose)
  /-- `lockCharge` has read this sum, and waits for the row of the charge. -/
  | waitCharge (p : Purpose) (sum : Int)
  /-- The payment is written; `COMMIT`. -/
  | recorded (payment : SubscriptionPayment) (settle : Bool) (notice : Option Uuid) (sum : Int)
  /-- The charge is void; `COMMIT`. -/
  | voided (sum : Int)
  deriving DecidableEq, Repr

/-- It has locked the row of the charge. -/
def ChargePhase.holdsCharge : ChargePhase → Bool
  | .recorded payment _ _ _ => payment.chargeId.isSome
  | .voided _ => true
  | _ => false

/-- It has locked the row of a notice. -/
def ChargePhase.holdsNotice (noticeId : Uuid) : ChargePhase → Bool
  | .readStatus r | .lockCharge (.record r) | .waitCharge (.record r) _ => r.notice = some noticeId
  | .recorded _ _ notice _ => notice = some noticeId
  | _ => false

/-- The charge that `lockCharge` has answered with takes a payment of the restaurant. -/
def SubscriptionCharge.takes (charge : SubscriptionCharge) (restaurantId : Uuid) : Except Err Unit := do
  Except.require (charge.restaurantId = restaurantId)
    (.api .subscriptionChargeNotFound "Charge not found" [])
  Except.require (charge.status = .open)
    (.api .subscriptionChargeClosed "This charge is already closed" [("status", charge.status.text)])

/-- `INSERT INTO subscription_payments …`, its checks. -/
def Recording.valid (r : Recording) : Except Err Unit := do
  Except.require (0 < r.input.amount) (.checkViolation "subscription_payments_amount_check")
  Except.require (0 ≤ r.applied) (.checkViolation "subscription_payments_applied_usd_check")

/-- `recordPaymentWith` of a payment on account. -/
def recordOnAccount (r : Recording) : Except Err SubscriptionPayment := do
  r.valid
  return ⟨r.restaurantId, none, r.input.amount, r.applied, false, false⟩

/-- `recordPaymentWith`, with what `lockCharge` answers with. -/
def recordPaymentWith (charge : SubscriptionCharge) (appliedUsd : Int) (r : Recording) :
    Except Err SubscriptionPayment := do
  charge.takes r.restaurantId
  r.valid
  let paid := appliedUsd + r.applied
  let closed := decide (charge.amountUsd ≤ paid) || r.input.settle
  return {
    restaurantId := r.restaurantId
    chargeId := some charge.id
    amount := r.input.amount
    appliedUsd := r.applied
    closedCharge := closed
    settledShort := closed && r.input.settle && decide (paid < charge.amountUsd) }

/-- `voidCharge`, with what `lockCharge` answers with. -/
def voidChargeWith (charge : SubscriptionCharge) (appliedUsd : Int) : Except Err Unit := do
  Except.require (charge.status = .open)
    (.api .subscriptionChargeClosed "Only an open charge can be voided"
      [("status", charge.status.text)])
  Except.require (appliedUsd ≤ 0)
    (.api .subscriptionChargeClosed "This charge already has payments applied"
      [("status", charge.status.text)])

/-- What the commit of a payment leaves. -/
def ChargeBook.record (b : ChargeBook) (payment : SubscriptionPayment) (notice : Option Uuid) :
    ChargeBook where
  charge := if payment.closedCharge then { b.charge with status := .paid } else b.charge
  payments := b.payments ++ [payment]
  notices := match notice with
    | some noticeId => b.notices.update noticeId (fun n => { n with status := .confirmed }) fun _ => rfl
    | none => b.notices

/-- The next statement of a call, beside the other calls. -/
def ChargePhase.next (b : ChargeBook) (others : List ChargePhase) :
    ChargePhase → Advance ChargeBook ChargePhase Err
  | .begun (.recordPayment restaurantId input) =>
    match preparePayment input with
    | .error err => .ends b [err]
    | .ok applied => .goes b (.lockCharge (.record ⟨restaurantId, input, applied, none⟩)) []
  | .begun (.confirmNotice noticeId fxRate settle) =>
    match b.notices.find? noticeId with
    | none => .ends b [.api .subscriptionNoticeNotFound "Notice not found" []]
    | some n =>
      let input := ⟨n.chargeId, n.currency, n.amount, fxRate, settle⟩
      match preparePayment input with
      | .error err => .ends b [err]
      | .ok applied => .goes b (.lockNotice ⟨n.restaurantId, input, applied, some noticeId⟩ noticeId) []
  | .begun .voidCharge => .goes b (.lockCharge .void) []
  | .lockNotice r noticeId =>
    if others.any (ChargePhase.holdsNotice noticeId) then .waits
    else
      match b.notices.find? noticeId with
      | none => .ends b [.api .subscriptionNoticeNotFound "Notice not found" []]
      | some n =>
        if n.status ≠ .pending then
          .ends b [.api .subscriptionNoticeClosed "This notice was already reviewed"
            [("status", n.status.text)]]
        else .goes b (.readStatus r) []
  | .readStatus r =>
    -- A charge that was paid since the notice: the payment goes on account.
    if r.input.chargeId = some b.charge.id ∧ b.charge.status = .open then
      .goes b (.lockCharge (.record r)) []
    else .goes b (.lockCharge (.record { r with input := { r.input with chargeId := none } })) []
  | .lockCharge (.record r) =>
    match r.input.chargeId with
    | none =>
      match recordOnAccount r with
      | .ok payment => .goes b (.recorded payment r.input.settle r.notice 0) []
      | .error err => .ends b [err]
    | some chargeId =>
      if chargeId = b.charge.id then .goes b (.waitCharge (.record r) b.appliedUsd) []
      else .ends b [.api .subscriptionChargeNotFound "Charge not found" []]
  | .lockCharge .void => .goes b (.waitCharge .void b.appliedUsd) []
  | .waitCharge p sum =>
    if others.any ChargePhase.holdsCharge then .waits
    else
      match p with
      | .record r =>
        match recordPaymentWith b.charge sum r with
        | .ok payment => .goes b (.recorded payment r.input.settle r.notice sum) []
        | .error err => .ends b [err]
      | .void =>
        match voidChargeWith b.charge sum with
        | .ok _ => .goes b (.voided sum) []
        | .error err => .ends b [err]
  | .recorded payment _ notice _ => .ends (b.record payment notice) []
  | .voided _ => .ends { b with charge := { b.charge with status := .void } } []

/-- The calls about one charge, which answer with what they throw. -/
def charges : Protocol ChargeBook ChargePhase SubscriptionCall Err where
  start := .begun
  next := ChargePhase.next

/-! ## What one statement does -/

/-- What is always true of the payments of the charge. -/
structure ChargeBook.Sound (b : ChargeBook) : Prop where
  nonneg : ∀ p ∈ b.payments, 0 ≤ p.appliedUsd
  unclosed : b.charge.status = .open → ∀ p ∈ b.onCharge, p.settledShort = false

/-- What a call knows of the charge: a sum that it has read is not more than the sum now, and once it
has locked the charge it is what it was when it was read. -/
def ChargePhase.Sound (b : ChargeBook) : ChargePhase → Prop
  | .waitCharge _ sum => 0 ≤ sum ∧ sum ≤ b.appliedUsd
  | .recorded payment settle _ sum => 0 ≤ payment.appliedUsd ∧
    ((payment.chargeId = none ∧ payment.closedCharge = false) ∨
      (payment.chargeId = some b.charge.id ∧ b.charge.status = .open ∧ sum ≤ b.appliedUsd ∧
        (payment.closedCharge = true ↔ b.charge.amountUsd ≤ sum + payment.appliedUsd ∨ settle = true) ∧
        (payment.settledShort = true ↔ settle = true ∧ sum + payment.appliedUsd < b.charge.amountUsd)))
  | .voided sum => b.charge.status = .open ∧ sum = 0
  | _ => True

/-- No two calls have locked the charge. -/
def ChargePhase.Apart (t u : ChargePhase) : Prop := t.holdsCharge = true → u.holdsCharge = false

section Statements

variable {b b' : ChargeBook} {t t' : ChargePhase} {others : List ChargePhase} {answer : List Err}
  {r : Recording} {payment : SubscriptionPayment} {sum : Int}

theorem ChargeBook.Sound.appliedUsd_nonneg (h : b.Sound) : 0 ≤ b.appliedUsd := by
  refine List.sum_nonneg fun x hx => ?_
  obtain ⟨p, hp, rfl⟩ := List.mem_map.mp hx
  exact h.nonneg p (List.mem_filter.mp hp).1

/-- A payment is recorded on the open charge, and closes it when the sum that was read covers it or
the operator says so. -/
theorem recordPaymentWith_ok {charge : SubscriptionCharge}
    (h : recordPaymentWith charge sum r = .ok payment) :
    0 ≤ payment.appliedUsd ∧ payment.chargeId = some charge.id ∧ charge.status = .open ∧
      (payment.closedCharge = true ↔
        charge.amountUsd ≤ sum + payment.appliedUsd ∨ r.input.settle = true) ∧
      (payment.settledShort = true ↔
        r.input.settle = true ∧ sum + payment.appliedUsd < charge.amountUsd) := by
  unfold recordPaymentWith SubscriptionCharge.takes Recording.valid at h
  simp only [Except.bind_eq_ok, Except.require_eq_ok, Except.pure_eq_ok] at h
  obtain ⟨_, ⟨_, -, hopen⟩, _, ⟨_, -, happlied⟩, rfl⟩ := h
  refine ⟨happlied, rfl, hopen, by simp, ?_⟩
  simp only [Bool.and_eq_true, Bool.or_eq_true, decide_eq_true_eq]
  exact ⟨fun h => ⟨h.1.2, h.2⟩, fun h => ⟨⟨.inr h.1, h.1⟩, h.2⟩⟩

theorem recordOnAccount_ok (h : recordOnAccount r = .ok payment) :
    0 ≤ payment.appliedUsd ∧ payment.chargeId = none ∧ payment.closedCharge = false := by
  unfold recordOnAccount Recording.valid at h
  simp only [Except.bind_eq_ok, Except.require_eq_ok, Except.pure_eq_ok] at h
  obtain ⟨_, ⟨_, -, happlied⟩, rfl⟩ := h
  exact ⟨happlied, rfl, rfl⟩

theorem voidChargeWith_ok {charge : SubscriptionCharge} {u : Unit}
    (h : voidChargeWith charge sum = .ok u) : charge.status = .open ∧ sum ≤ 0 := by
  unfold voidChargeWith at h
  simp only [Except.bind_eq_ok, Except.require_eq_ok] at h
  obtain ⟨_, hopen, hsum⟩ := h
  exact ⟨hopen, hsum⟩

/-- A call that goes on has committed nothing, knows what its phase says, and has locked the charge
only when nobody else had. -/
theorem next_goes (hb : b.Sound) (ht : t.Sound b) (h : t.next b others = .goes b' t' answer) :
    b' = b ∧ t'.Sound b ∧
      (t'.holdsCharge = true → t.holdsCharge = true ∨ ∀ u ∈ others, u.holdsCharge = false) := by
  have hsum := hb.appliedUsd_nonneg
  cases t with
  | begun call =>
    cases call with
    | recordPayment restaurantId input =>
      unfold ChargePhase.next at h
      dsimp only at h
      split at h <;> cases h
      exact ⟨rfl, trivial, nofun⟩
    | confirmNotice noticeId fxRate settle =>
      unfold ChargePhase.next at h
      dsimp only at h
      split at h
      · cases h
      · split at h <;> cases h
        exact ⟨rfl, trivial, nofun⟩
    | voidCharge =>
      cases h
      exact ⟨rfl, trivial, nofun⟩
  | lockNotice r noticeId =>
    unfold ChargePhase.next at h
    dsimp only at h
    split at h
    · cases h
    · split at h
      · cases h
      · split at h <;> cases h
        exact ⟨rfl, trivial, nofun⟩
  | readStatus r =>
    unfold ChargePhase.next at h
    dsimp only at h
    split at h <;> cases h <;> exact ⟨rfl, trivial, nofun⟩
  | lockCharge p =>
    cases p with
    | void =>
      cases h
      exact ⟨rfl, ⟨hsum, le_rfl⟩, nofun⟩
    | record r =>
      unfold ChargePhase.next at h
      dsimp only at h
      split at h
      · split at h
        · rename_i payment hrec
          cases h
          obtain ⟨happlied, hnone, hclosed⟩ := recordOnAccount_ok hrec
          refine ⟨rfl, ⟨happlied, .inl ⟨hnone, hclosed⟩⟩, fun hholds => ?_⟩
          simp [ChargePhase.holdsCharge, hnone] at hholds
        · cases h
      · split at h <;> cases h
        exact ⟨rfl, ⟨hsum, le_rfl⟩, nofun⟩
  | waitCharge p sum =>
    obtain ⟨hnonneg, hle⟩ := ht
    unfold ChargePhase.next at h
    dsimp only at h
    split at h
    · cases h
    · rename_i hfree
      have hothers : ∀ u ∈ others, u.holdsCharge = false := fun u hu =>
        Bool.eq_false_iff.mpr fun hholds => hfree (List.any_eq_true.mpr ⟨u, hu, hholds⟩)
      split at h
      · split at h
        · rename_i payment hrec
          cases h
          obtain ⟨happlied, hcharge, hopen, hclosed, hshort⟩ := recordPaymentWith_ok hrec
          exact ⟨rfl, ⟨happlied, .inr ⟨hcharge, hopen, hle, hclosed, hshort⟩⟩, fun _ => .inr hothers⟩
        · cases h
      · split at h
        · rename_i hvoid
          cases h
          obtain ⟨hopen, hzero⟩ := voidChargeWith_ok hvoid
          exact ⟨rfl, ⟨hopen, le_antisymm hzero hnonneg⟩, fun _ => .inr hothers⟩
        · cases h
  | recorded payment settle notice sum => cases h
  | voided sum => cases h

/-- A call ends with an error and nothing committed, or with its payment, or with the charge void. -/
theorem next_ends (h : t.next b others = .ends b' answer) :
    b' = b ∨ (∃ payment settle notice sum, t = .recorded payment settle notice sum ∧
      b' = b.record payment notice) ∨
      ∃ sum, t = .voided sum ∧ b' = { b with charge := { b.charge with status := .void } } := by
  cases t with
  | recorded payment settle notice sum =>
    cases h
    exact .inr (.inl ⟨payment, settle, notice, sum, rfl, rfl⟩)
  | voided sum =>
    cases h
    exact .inr (.inr ⟨sum, rfl, rfl⟩)
  | begun call =>
    refine .inl ?_
    cases call <;> unfold ChargePhase.next at h <;> dsimp only at h
    · split at h <;> cases h
      rfl
    · split at h
      · cases h
        rfl
      · split at h <;> cases h
        rfl
    · cases h
  | lockNotice r noticeId =>
    refine .inl ?_
    unfold ChargePhase.next at h
    dsimp only at h
    split at h
    · cases h
    · split at h
      · cases h
        rfl
      · split at h <;> cases h
        rfl
  | readStatus r =>
    unfold ChargePhase.next at h
    dsimp only at h
    split at h <;> cases h
  | lockCharge p =>
    refine .inl ?_
    cases p <;> unfold ChargePhase.next at h <;> dsimp only at h
    · split at h
      · split at h <;> cases h
        rfl
      · split at h <;> cases h
        rfl
    · cases h
  | waitCharge p sum =>
    refine .inl ?_
    unfold ChargePhase.next at h
    dsimp only at h
    split at h
    · cases h
    · split at h
      · split at h <;> cases h
        rfl
      · split at h <;> cases h
        rfl

theorem onCharge_record {notice : Option Uuid} : (b.record payment notice).onCharge =
    b.onCharge ++ if payment.chargeId = some b.charge.id then [payment] else [] := by
  have hid : (b.record payment notice).charge.id = b.charge.id := by
    unfold ChargeBook.record
    dsimp only
    split <;> rfl
  unfold ChargeBook.onCharge
  rw [hid]
  change (b.payments ++ [payment]).filter _ = _
  rw [List.filter_append, List.filter_singleton]
  by_cases h : payment.chargeId = some b.charge.id
  · simp [h]
  · simp [h]

theorem appliedUsd_record {notice : Option Uuid} : (b.record payment notice).appliedUsd =
    b.appliedUsd + if payment.chargeId = some b.charge.id then payment.appliedUsd else 0 := by
  unfold ChargeBook.appliedUsd
  rw [onCharge_record, List.map_append, List.sum_append]
  by_cases h : payment.chargeId = some b.charge.id
  · simp [h]
  · simp [h]

theorem status_record {notice : Option Uuid} : (b.record payment notice).charge.status =
    if payment.closedCharge then .paid else b.charge.status := by
  unfold ChargeBook.record
  dsimp only
  split <;> rfl

theorem amountUsd_record {notice : Option Uuid} :
    (b.record payment notice).charge.amountUsd = b.charge.amountUsd := by
  unfold ChargeBook.record
  dsimp only
  split <;> rfl

/-- What a call knows it still knows when the sum has grown and the charge that it holds is the same. -/
theorem ChargePhase.Sound.later (h : t.Sound b) (hle : b.appliedUsd ≤ b'.appliedUsd)
    (hheld : t.holdsCharge = true → b'.charge = b.charge) : t.Sound b' := by
  cases t with
  | waitCharge p sum => exact ⟨h.1, h.2.trans hle⟩
  | recorded payment settle notice sum =>
    obtain ⟨happlied, haccount | ⟨hcharge, hopen, hsum, hclosed, hshort⟩⟩ := h
    · exact ⟨happlied, .inl haccount⟩
    · have hsame := hheld (by simp [ChargePhase.holdsCharge, hcharge])
      refine ⟨happlied, .inr ?_⟩
      rw [hsame]
      exact ⟨hcharge, hopen, hsum.trans hle, hclosed, hshort⟩
  | voided sum =>
    have hsame := hheld rfl
    change b'.charge.status = .open ∧ sum = 0
    rw [hsame]
    exact h
  | _ => trivial

end Statements

/-! ## Every interleaving -/

/-- The holder of the charge sees it as it is, and a sum that was read is not more than it is. -/
theorem chargesRule : charges.Rule (fun _ => True) (fun _ _ _ => True) ChargeBook.Sound
    ChargePhase.Sound ChargePhase.Apart where
  symm t u h := Protocol.excludes_symm h
  start b call _ _ := ⟨trivial, by rintro _ _ ⟨⟩⟩
  goes b us t hb ht hus _ b' t' answer hnext := by
    obtain ⟨rfl, ht', hholds⟩ := next_goes hb ht hnext
    refine ⟨hb, ht', fun u hu => ⟨(hus u hu).1, fun hheld => ?_⟩⟩
    rcases hholds hheld with hheld | hfree
    · exact (hus u hu).2 hheld
    · exact hfree u hu
  ends b us t hb ht hus _ b' answer hnext := by
    obtain rfl | ⟨payment, settle, notice, sum, rfl, rfl⟩ | ⟨sum, rfl, rfl⟩ := next_ends hnext
    · exact ⟨hb, fun u hu => (hus u hu).1⟩
    · obtain ⟨happlied, hcase⟩ := ht
      have hle : b.appliedUsd ≤ (b.record payment notice).appliedUsd := by
        rw [appliedUsd_record]
        split <;> omega
      refine ⟨⟨?_, ?_⟩, fun u hu => (hus u hu).1.later hle fun hheld => ?_⟩
      · intro p hp
        rcases List.mem_append.mp hp with hp | hp
        · exact hb.nonneg p hp
        · obtain rfl := List.mem_singleton.mp hp
          exact happlied
      · rw [status_record, onCharge_record]
        intro hopen p hp
        split at hopen
        · cases hopen
        · rename_i hclosed
          rcases List.mem_append.mp hp with hp | hp
          · exact hb.unclosed hopen p hp
          · obtain ⟨hnone, -⟩ | ⟨-, -, -, hclosed', hshort⟩ := hcase
            · simp [hnone] at hp
            · split at hp
              · obtain rfl := List.mem_singleton.mp hp
                rw [Bool.eq_false_iff, ne_eq, hshort]
                exact fun h => hclosed (hclosed'.mpr (.inr h.1))
              · cases hp
      · obtain ⟨-, hclosed⟩ | ⟨hcharge, -⟩ := hcase
        · simp [ChargeBook.record, hclosed]
        · have := (hus u hu).2 (by simp [ChargePhase.holdsCharge, hcharge])
          exact absurd hheld (by simp [this])
    · refine ⟨⟨hb.nonneg, by rintro ⟨⟩⟩, fun u hu => (hus u hu).1.later le_rfl fun hheld => ?_⟩
      exact absurd hheld (by simp [(hus u hu).2 rfl])

/-- The charge is paid exactly when it is covered, unless the operator has closed it short, and a void
one has no payment. -/
structure ChargeBook.Settles (b : ChargeBook) : Prop where
  paid : b.charge.status ≠ .void → (∀ p ∈ b.onCharge, p.settledShort = false) →
    (b.charge.status = .paid ↔ b.charge.amountUsd ≤ b.appliedUsd)
  void : b.charge.status = .void → b.onCharge = []

instance (b : ChargeBook) : Decidable b.Settles :=
  decidable_of_iff ((b.charge.status ≠ .void → (∀ p ∈ b.onCharge, p.settledShort = false) →
      (b.charge.status = .paid ↔ b.charge.amountUsd ≤ b.appliedUsd)) ∧
    (b.charge.status = .void → b.onCharge = [])) ⟨fun h => ⟨h.1, h.2⟩, fun h => ⟨h.paid, h.void⟩⟩

/-- A move leaves the charge settled, and records a payment on it only while it is open. -/
structure KeepsSettled (w : Sessions ChargeBook ChargePhase) (m : Move SubscriptionCall) : Prop where
  settles : (charges.machine.step w m).1.committed.Settles
  recorded : (charges.machine.step w m).1.committed.onCharge ≠ w.committed.onCharge →
    w.committed.charge.status = .open

/-- A transaction that commits has decided as it would on the sum of now, and it does not void a
charge with a payment that came to nothing. -/
def DecidesNow (b : ChargeBook) (_ : List ChargePhase) : ChargePhase → Prop
  | .recorded payment settle _ sum => payment.chargeId = none ∨ settle = true ∨
    (b.charge.amountUsd ≤ sum + payment.appliedUsd ↔
      b.charge.amountUsd ≤ b.appliedUsd + payment.appliedUsd)
  | .voided sum => sum = b.appliedUsd ∧ ∀ p ∈ b.onCharge, 0 < p.appliedUsd
  | _ => True

section Decisions

variable {b : ChargeBook} {payment : SubscriptionPayment} {settle : Bool} {notice : Option Uuid}
  {sum : Int}

/-- A payment leaves the charge settled exactly when the sum of now would decide the same. -/
theorem record_settles_iff (hb : b.Sound) (hs : b.Settles)
    (ht : (ChargePhase.recorded payment settle notice sum).Sound b) :
    (b.record payment notice).Settles ↔ payment.chargeId = none ∨ settle = true ∨
      (b.charge.amountUsd ≤ sum + payment.appliedUsd ↔
        b.charge.amountUsd ≤ b.appliedUsd + payment.appliedUsd) := by
  obtain ⟨-, ⟨hnone, hunclosed⟩ | ⟨hcharge, hopen, hle, hclosed, hshort⟩⟩ := ht
  · refine iff_of_true ⟨?_, ?_⟩ (.inl hnone)
    · rw [status_record, amountUsd_record, appliedUsd_record, onCharge_record, hnone, hunclosed]
      simpa using hs.paid
    · rw [status_record, onCharge_record, hnone, hunclosed]
      simpa using hs.void
  · have hold := hb.unclosed hopen
    have hstatus : (b.record payment notice).charge.status ≠ .void := by
      rw [status_record, hopen]
      split <;> nofun
    have hpaid : (b.record payment notice).charge.status = .paid ↔ payment.closedCharge = true := by
      rw [status_record, hopen]
      split <;> simp [*]
    have hsum : (b.record payment notice).appliedUsd = b.appliedUsd + payment.appliedUsd := by
      rw [appliedUsd_record, if_pos hcharge]
    have hshorts : (∀ p ∈ (b.record payment notice).onCharge, p.settledShort = false) ↔
        payment.settledShort = false := by
      rw [onCharge_record, if_pos hcharge, List.forall_mem_append, List.forall_mem_singleton]
      exact and_iff_right hold
    have hsettles : (b.record payment notice).Settles ↔ (payment.settledShort = false →
        (payment.closedCharge = true ↔ b.charge.amountUsd ≤ b.appliedUsd + payment.appliedUsd)) := by
      constructor
      · intro h hfalse
        rw [← hpaid, h.paid hstatus (hshorts.mpr hfalse), amountUsd_record, hsum]
      · intro h
        refine ⟨fun _ hall => ?_, fun hvoid => absurd hvoid hstatus⟩
        rw [hpaid, h (hshorts.mp hall), amountUsd_record, hsum]
    rw [hsettles, hclosed, Bool.eq_false_iff, ne_eq, hshort]
    simp only [hcharge, reduceCtorEq, false_or]
    by_cases hflag : settle = true
    · refine iff_of_true (fun hcovered => iff_of_true (.inr hflag) ?_) (.inl hflag)
      have : ¬sum + payment.appliedUsd < b.charge.amountUsd := fun hlt => hcovered ⟨hflag, hlt⟩
      omega
    · simp [hflag]

/-- A charge that is voided is left settled exactly when it has no payments now. -/
theorem void_settles_iff (ht : (ChargePhase.voided sum).Sound b) :
    ChargeBook.Settles { b with charge := { b.charge with status := .void } } ↔
      sum = b.appliedUsd ∧ ∀ p ∈ b.onCharge, 0 < p.appliedUsd := by
  obtain ⟨-, rfl⟩ := ht
  constructor
  · intro h
    have hnil : b.onCharge = [] := h.void rfl
    simp [ChargeBook.appliedUsd, hnil]
  · rintro ⟨hzero, hpos⟩
    refine ⟨fun h => absurd rfl h, fun _ => ?_⟩
    change b.onCharge = []
    by_contra hnil
    have hsum : 0 < b.appliedUsd := by
      refine List.sum_pos _ (fun x hx => ?_) (by simpa using hnil)
      obtain ⟨p, hp, rfl⟩ := List.mem_map.mp hx
      exact hpos p hp
    omega

end Decisions

/-- What a statement that does not commit a payment or void the charge leaves. -/
theorem committed_of_other {b : ChargeBook} {us : List ChargePhase} {t : ChargePhase} (hb : b.Sound)
    (ht : t.Sound b) (hrecorded : ∀ payment settle notice sum, t ≠ .recorded payment settle notice sum)
    (hvoided : ∀ sum, t ≠ .voided sum) : (charges.next b us t).committed b = b := by
  cases hnext : charges.next b us t with
  | waits => rfl
  | goes b' t' answer => exact (next_goes hb ht hnext).1
  | ends b' answer =>
    obtain rfl | ⟨payment, settle, notice, sum, rfl, -⟩ | ⟨sum, rfl, -⟩ := next_ends hnext
    · rfl
    · exact absurd rfl (hrecorded payment settle notice sum)
    · exact absurd rfl (hvoided sum)

theorem keepsSettled_of_committed {w : Sessions ChargeBook ChargePhase} {m : Move SubscriptionCall}
    (hs : w.committed.Settles) (h : (charges.machine.step w m).1.committed = w.committed) :
    KeepsSettled w m :=
  ⟨h.symm ▸ hs, fun hne => absurd (by rw [h]) hne⟩

/-- One move keeps the charge settled exactly when what it commits was decided on the sum of now. -/
theorem keepsSettled_iff {w : Sessions ChargeBook ChargePhase} {m : Move SubscriptionCall}
    (hw : Protocol.Holds ChargeBook.Sound ChargePhase.Sound ChargePhase.Apart w)
    (hs : w.committed.Settles) :
    KeepsSettled w m ↔ Protocol.Allowed (fun _ => True) DecidesNow w m := by
  refine Protocol.iff_allowed (p := charges) (P := KeepsSettled w)
    (fun m hsame _ => keepsSettled_of_committed hs hsame) (fun r hfind => ?_) m
  have ht := hw.session r (Table.find?_mem hfind)
  have hcommitted := Protocol.committed_go (p := charges) hfind
  cases hstate : r.state with
  | recorded payment settle notice sum =>
    rw [hstate] at ht hcommitted
    have hafter : (charges.machine.step w (.go r.id)).1.committed =
        w.committed.record payment notice := hcommitted
    constructor
    · intro h
      have hsettles := h.settles
      rw [hafter] at hsettles
      exact (record_settles_iff hw.committed hs ht).mp hsettles
    · intro h
      refine ⟨hafter.symm ▸ (record_settles_iff hw.committed hs ht).mpr h, fun hne => ?_⟩
      obtain ⟨-, ⟨hnone, -⟩ | ⟨-, hopen, -⟩⟩ := ht
      · refine absurd ?_ hne
        rw [hafter, onCharge_record, hnone]
        simp
      · exact hopen
  | voided sum =>
    rw [hstate] at ht hcommitted
    have hafter : (charges.machine.step w (.go r.id)).1.committed =
        { w.committed with charge := { w.committed.charge with status := .void } } := hcommitted
    constructor
    · intro h
      have hsettles := h.settles
      rw [hafter] at hsettles
      exact (void_settles_iff ht).mp hsettles
    · intro h
      refine ⟨hafter.symm ▸ (void_settles_iff ht).mpr h, fun hne => ?_⟩
      refine absurd ?_ hne
      rw [hafter]
      rfl
  | _ =>
    refine iff_of_true (keepsSettled_of_committed hs (hcommitted.trans ?_)) trivial
    exact committed_of_other hw.committed ht (by simp [hstate]) (by simp [hstate])

/-- Calls about a charge keep it settled all along a run exactly when each transaction that commits
has decided as it would on the sum of then. -/
theorem settles_iff (charge : SubscriptionCharge) (notices : Table PaymentNotice)
    (moves : List (Move SubscriptionCall)) :
    charges.machine.Every KeepsSettled (Sessions.start (ChargeBook.created charge notices)) moves ↔
      charges.machine.Every (Protocol.Allowed (fun _ => True) DecidesNow)
        (Sessions.start (ChargeBook.created charge notices)) moves := by
  have hsound : (ChargeBook.created charge notices).Sound := ⟨nofun, fun _ => nofun⟩
  have hsettles : (ChargeBook.created charge notices).Settles := by
    refine ⟨fun _ _ => ?_, nofun⟩
    have := charge.amount_check
    simp [ChargeBook.created, ChargeBook.appliedUsd, ChargeBook.onCharge, this]
  refine Machine.every_iff (I := fun w =>
      Protocol.Holds ChargeBook.Sound ChargePhase.Sound ChargePhase.Apart w ∧ w.committed.Settles)
    (fun w m hw => keepsSettled_iff hw.1 hw.2) (fun w m hw hm => ⟨?_, hm.settles⟩)
    ⟨.start hsound, hsettles⟩
  exact chargesRule.step w m hw.1 (Protocol.allowed_any m)

/-! ## Two halves of one charge -/

def july : SubscriptionCharge :=
  ⟨1, 1, ⟨24306, 1⟩, ⟨24307, 1⟩, 10000, .open, Day.lt_addMonths ⟨24306, 1⟩ Nat.one_pos, by decide⟩

def halfOfJuly : PaymentInput := ⟨some 1, .usd, 5000, none, false⟩

/-- Each payment reads a sum of nothing before the other is committed, and the charge stays open. -/
theorem july_covered_and_open : ¬(charges.machine.run (Sessions.start (ChargeBook.created july ∅))
    [.start 0 (.recordPayment 1 halfOfJuly), .start 1 (.recordPayment 1 halfOfJuly), .go 0, .go 0, .go 1,
      .go 1, .go 0, .go 0, .go 1, .go 1]).committed.Settles := by
  decide

end Splite
