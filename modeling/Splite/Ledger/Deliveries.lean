import Splite.Ledger.Runs

/-!
# Deliveries about one payment (`services/webhooks.js`)

Any number of deliveries that name one payment are processed at once. Each asks `alreadyProcessed`
outside of its transaction, waits for the lock of the payment, acts on it, claims its event and
commits; any of its statements may fail.

* `settleDelivery_moves`: what one transaction does to payments, bills and events.
* `Inbox.Sound.step`: one delivery at a time holds the payment, and what it has written so far is its
  own.
* `Inbox.serial`: what is committed is what the transactions do one after the other.
* `delivered_once`: deliveries settle the payment once.
-/

namespace Splite

/-- A delivery that has been authenticated, about a payment that the inbox is for. -/
structure Delivery where
  providerCode : Provider
  providerEventId : Option String
  restaurantId : Uuid
  amountVes : Option String
  succeeded : Bool
  failed : Bool
  deriving DecidableEq, Repr

/-- `provider.parse(req.body)`. -/
def Delivery.parsed (d : Delivery) (paymentId : Uuid) : ParsedDelivery where
  providerEventId := d.providerEventId
  paymentId := paymentId
  restaurantId := d.restaurantId
  amountVes := d.amountVes
  succeeded := d.succeeded
  failed := d.failed

/-- `alreadyProcessed(provider, providerEventId)`. -/
def Db.alreadyProcessed (s : Db) (provider : Provider) (providerEventId : Option String) : Bool :=
  providerEventId.any fun e => (s.events.find? (provider, e)).isSome

/-- Where the processing of a delivery is; what it has written is seen by nobody else until it
commits. -/
inductive DeliveryPhase where
  /-- `alreadyProcessed` found nothing. -/
  | admitted
  /-- It holds the lock of the payment, which it has read. -/
  | locked (payment : Payment)
  /-- It has acted on the payment. -/
  | acted (db : Db) (result : DeliveryOutcome)
  /-- It has claimed its event, and is about to commit. -/
  | claimed (db : Db) (result : DeliveryOutcome)

structure DeliveryAttempt where
  attemptId : Nat
  delivery : Delivery
  phase : DeliveryPhase

instance : Keyed DeliveryAttempt Nat := ⟨DeliveryAttempt.attemptId⟩

/-- The attempt holds the lock of the payment. -/
def DeliveryAttempt.holds (a : DeliveryAttempt) : Bool :=
  match a.phase with
  | .admitted => false
  | _ => true

/-- What is committed, the attempts that are being processed, and the ones that committed. -/
structure Inbox where
  db : Db
  attempts : Table DeliveryAttempt
  history : List (Delivery × DeliveryOutcome)

def Inbox.start (db : Db) : Inbox := ⟨db, ∅, []⟩

inductive DeliveryOp where
  /-- A delivery has arrived, and `alreadyProcessed` is asked about it. -/
  | receive (attemptId : Nat) (d : Delivery)
  /-- `BEGIN`, and the `SELECT … FOR UPDATE` of the payment. -/
  | lock (attemptId : Nat)
  /-- The statements that depend on what the delivery says. -/
  | act (attemptId : Nat)
  /-- `INSERT INTO webhook_events_processed …`. -/
  | claim (attemptId : Nat)
  | commit (attemptId : Nat)
  /-- A statement fails, whichever is next, or the process dies. -/
  | fail (attemptId : Nat) (err : Err)

def DeliveryOp.attemptId : DeliveryOp → Nat
  | .receive id _ | .lock id | .act id | .claim id | .commit id | .fail id _ => id

namespace Inbox

def setPhase (w : Inbox) (attemptId : Nat) (phase : DeliveryPhase) : Inbox :=
  { w with attempts := w.attempts.update attemptId (fun a => { a with phase }) fun _ => rfl }

/-- The attempt ends, and its transaction is rolled back if it has one. -/
def forget (w : Inbox) (attemptId : Nat) : Inbox :=
  { w with attempts := w.attempts.deleteWhere fun a => a.attemptId = attemptId }

/-- Another attempt holds the lock of the payment. -/
def busy (w : Inbox) : Bool := w.attempts.rows.any DeliveryAttempt.holds

end Inbox

/-- One step, with the error that is answered with. -/
def DeliveryOp.step (paymentId : Uuid) (w : Inbox) : DeliveryOp → Inbox × List Err
  | .receive attemptId d =>
    if w.db.alreadyProcessed d.providerCode d.providerEventId then (w, [])
    else
      match w.attempts.insert? ⟨attemptId, d, .admitted⟩ with
      | some attempts => ({ w with attempts }, [])
      | none => (w, [])
  | .lock attemptId =>
    match w.attempts.find? attemptId with
    | some ⟨_, d, .admitted⟩ =>
      match w.db.payment? d.restaurantId paymentId with
      | some payment => if w.busy then (w, []) else (w.setPhase attemptId (.locked payment), [])
      | none =>
        (w.forget attemptId, [.api .webhookPaymentUnresolved "No such payment yet" []])
    | _ => (w, [])
  | .act attemptId =>
    match w.attempts.find? attemptId with
    | some ⟨_, d, .locked payment⟩ =>
      if payment.provider ≠ some d.providerCode then
        (w.setPhase attemptId (.claimed w.db .providerMismatch), [])
      else
        match (actOnDelivery d.providerCode (d.parsed paymentId) payment).run w.db with
        | .ok result db => (w.setPhase attemptId (.acted db result), [])
        | .error err _ => (w.forget attemptId, [err])
    | _ => (w, [])
  | .claim attemptId =>
    match w.attempts.find? attemptId with
    | some ⟨_, d, .acted db result⟩ =>
      match (claimEvent d.providerCode (d.parsed paymentId) result).run db with
      | .ok _ db => (w.setPhase attemptId (.claimed db result), [])
      | .error err _ =>
        (w.forget attemptId,
          if err = .uniqueViolation "webhook_events_processed_pkey" then [] else [err])
    | _ => (w, [])
  | .commit attemptId =>
    match w.attempts.find? attemptId with
    | some ⟨_, d, .claimed db result⟩ =>
      ({ w.forget attemptId with db, history := w.history ++ [(d, result)] }, [])
    | _ => (w, [])
  | .fail attemptId err =>
    match w.attempts.find? attemptId with
    | some _ => (w.forget attemptId, [err])
    | none => (w, [])

/-- The deliveries about one payment as a machine that answers with the errors it throws. -/
def inbox (paymentId : Uuid) : Machine Inbox DeliveryOp Err := ⟨DeliveryOp.step paymentId⟩

/-! ## What one transaction does -/

/-- The bill with a payment more, which closes it when it is the last. -/
def Bill.credited (amount : Int) (b : Bill) : Bill :=
  b.applied (b.amountPaidVes + amount)
    (if b.amountPaidVes + amount = b.totalDueVes then .closed else .open)

/-- Payments and bills are as they were, or the payment was pending and has failed, or it was pending
and has settled, with its amount on its bill. -/
inductive Delivered (paymentId : Uuid) (s s' : Db) : Prop where
  | untouched : s'.payments = s.payments → s'.bills = s.bills → Delivered paymentId s s'
  | failed {p : Payment} : s.payments.find? paymentId = some p → p.status = .pending →
      s'.payments = s.payments.update paymentId (Payment.moved .failed false) (fun _ => rfl) →
      s'.bills = s.bills → Delivered paymentId s s'
  | settled {p : Payment} : s.payments.find? paymentId = some p → p.status = .pending →
      s'.payments = s.payments.update paymentId (Payment.moved .succeeded false) (fun _ => rfl) →
      s'.bills = s.bills.update p.billId (Bill.credited p.amountVes) (fun _ => rfl) →
      Delivered paymentId s s'

section Transaction

variable {s s' s'' : Db} {paymentId : Uuid} {d : Delivery} {r : DeliveryOutcome} {p : Payment}

/-- A move that throws when the share refuses it leaves the payment with its share. -/
theorem transitionPayment_throw_ok {restaurantId : Uuid} {toStatus : PaymentStatus}
    {reason : Option String} {m : Moved}
    (h : (transitionPayment restaurantId paymentId toStatus reason).run s = .ok m s')
    (hp : s.payments.find? paymentId = some p) (hne : p.status ≠ toStatus) :
    ∃ transitions shares, s' = { s with
      payments := s.payments.update paymentId (Payment.moved toStatus false) fun _ => rfl
      transitions, shares } := by
  obtain ⟨current, hcur, ⟨hsame, -⟩ | ⟨-, detached, transitions, shares, hshifts, rfl⟩⟩ :=
    transitionPayment_shifts h
  · obtain ⟨hfind, -⟩ := payment?_eq_some.mp hcur
    obtain rfl : p = current := Option.some.inj (hp.symm.trans hfind)
    exact absurd hsame hne
  · cases hshifts
    · exact ⟨transitions, _, rfl⟩
    · exact ⟨transitions, _, rfl⟩

theorem applyToBill_credits {restaurantId billId : Uuid} {amount : Int} {a : Applied}
    (h : (applyToBill restaurantId billId amount).run s = .ok a s') :
    s' = { s with bills := s.bills.update billId (Bill.credited amount) fun _ => rfl } := by
  obtain ⟨hbill, -, -, -, rfl⟩ := applyToBill_ok h
  obtain ⟨hfind, -⟩ := bill?_eq_some.mp hbill
  refine congrArg (fun bills : Table Bill => { s with bills }) ?_
  refine Table.update_congr (Bill.applied _ _) (Bill.credited amount) (fun _ => rfl) (fun _ => rfl)
    fun b hb hid => ?_
  obtain rfl : b = a.bill :=
    Option.some.inj ((Table.find?_eq_some.mpr ⟨hb, hid⟩).symm.trans hfind)
  rfl

theorem actOnDelivery_delivered {providerCode : Provider} {parsed : ParsedDelivery}
    (hp : s.payments.find? parsed.paymentId = some p)
    (h : (actOnDelivery providerCode parsed p).run s = .ok r s') :
    Delivered parsed.paymentId s s' ∧ s'.events = s.events := by
  unfold actOnDelivery at h
  split at h
  · obtain ⟨-, rfl⟩ := Tx.pure_ok.mp h
    exact ⟨.untouched rfl rfl, rfl⟩
  rename_i hpending
  have hpending : p.status = .pending := not_not.mp hpending
  have hne : ∀ toStatus : PaymentStatus, PaymentStatus.pending ≠ toStatus → p.status ≠ toStatus :=
    fun _ h => hpending ▸ h
  split at h
  · simp only [Tx.bind_ok, Tx.pure_ok] at h
    obtain ⟨_, _, hmove, -, rfl⟩ := h
    obtain ⟨transitions, shares, rfl⟩ := transitionPayment_throw_ok hmove hp (hne .failed nofun)
    exact ⟨.failed hp hpending rfl rfl, rfl⟩
  split at h
  · obtain ⟨-, rfl⟩ := Tx.pure_ok.mp h
    exact ⟨.untouched rfl rfl, rfl⟩
  · simp only [Tx.bind_ok, Tx.pure_ok] at h
    obtain ⟨applied, s₁, happly, _, _, hmove, -, rfl⟩ := h
    obtain rfl := applyToBill_credits happly
    obtain ⟨transitions, shares, rfl⟩ := transitionPayment_throw_ok hmove hp (hne .succeeded nofun)
    exact ⟨.settled hp hpending rfl rfl, rfl⟩

theorem claimEvent_find? {providerCode : Provider} {parsed : ParsedDelivery} {u : Unit}
    {key : Provider × String} (h : (claimEvent providerCode parsed r).run s = .ok u s') :
    (∃ events, s' = { s with events }) ∧ ((s'.events.find? key).isSome ↔
      (s.events.find? key).isSome ∨
        (providerCode = key.1 ∧ parsed.providerEventId = some key.2)) := by
  refine ⟨claimEvent_ok h, ?_⟩
  unfold claimEvent at h
  rw [Tx.bind_of_ok Tx.run_get] at h
  split at h
  · rename_i e he
    simp only [Tx.bind_ok, Tx.orThrow_ok, Tx.run_set] at h
    obtain ⟨events, _, ⟨hins, rfl⟩, ⟨-, rfl⟩⟩ := h
    have hkey : Keyed.key (⟨providerCode, e, parsed.paymentId, r.kind⟩ : ProcessedEvent) =
        (providerCode, e) := rfl
    rw [Table.find?_insert? hins, he, hkey]
    by_cases hk : key = (providerCode, e)
    · rw [if_pos hk]
      simp [hk]
    · rw [if_neg hk]
      constructor
      · exact .inl
      · rintro (hrow | ⟨hcode, hevent⟩)
        · exact hrow
        · exact absurd (Prod.ext hcode.symm (Option.some.inj hevent).symm) hk
  · rename_i hnone
    obtain ⟨-, rfl⟩ := Tx.pure_ok.mp h
    simp [hnone]

/-- The sender is the provider of the payment. -/
def Db.IsSentBy (s : Db) (paymentId : Uuid) (provider : Provider) : Prop :=
  ∃ p ∈ s.payments.find? paymentId, p.provider = some provider

section Compose

variable {providerCode : Provider} {parsed : ParsedDelivery}
  (hp : s.payment? parsed.restaurantId parsed.paymentId = some p)

include hp

theorem settleDelivery_of_mismatch (hprov : p.provider ≠ some providerCode) :
    (settleDelivery providerCode parsed).run s = .ok .providerMismatch s := by
  refine Tx.withTransaction_ok.mpr ?_
  rw [Tx.bind_of_ok Tx.run_get, Tx.bind_of_ok (Tx.orThrow_ok.mpr ⟨hp, rfl⟩), if_pos hprov]
  rfl

theorem settleDelivery_of_claim (hprov : p.provider = some providerCode)
    (hact : (actOnDelivery providerCode parsed p).run s = .ok r s')
    (hclaim : (claimEvent providerCode parsed r).run s' = .ok () s'') :
    (settleDelivery providerCode parsed).run s = .ok r s'' := by
  refine Tx.withTransaction_ok.mpr ?_
  rw [Tx.bind_of_ok Tx.run_get, Tx.bind_of_ok (Tx.orThrow_ok.mpr ⟨hp, rfl⟩),
    if_neg (not_not.mpr hprov), Tx.bind_of_ok hact, Tx.bind_of_ok hclaim]
  rfl

end Compose

theorem Delivered.of_frame (h : Delivered paymentId s s') (hpay : s''.payments = s'.payments)
    (hbills : s''.bills = s'.bills) : Delivered paymentId s s'' := by
  cases h with
  | untouched hp hb => exact .untouched (hpay.trans hp) (hbills.trans hb)
  | failed hfind hpending hp hb => exact .failed hfind hpending (hpay.trans hp) (hbills.trans hb)
  | settled hfind hpending hp hb => exact .settled hfind hpending (hpay.trans hp) (hbills.trans hb)

/-- A transaction that commits has acted on the payment and claimed the event, or it has written
nothing, when the delivery was not sent by the provider of the payment. -/
theorem settleDelivery_delivered
    (h : (settleDelivery d.providerCode (d.parsed paymentId)).run s = .ok r s') :
    Delivered paymentId s s' ∧ (s' ≠ s → s.IsSentBy paymentId d.providerCode) ∧
      ∀ key, (s'.events.find? key).isSome ↔ (s.events.find? key).isSome ∨
        (s.IsSentBy paymentId d.providerCode ∧ d.providerCode = key.1 ∧
          d.providerEventId = some key.2) := by
  unfold settleDelivery at h
  simp only [Tx.withTransaction_ok, Tx.bind_ok, Tx.run_get, Tx.orThrow_ok] at h
  obtain ⟨_, _, ⟨rfl, rfl⟩, payment, _, ⟨hpay, rfl⟩, h⟩ := h
  obtain ⟨hfind, -⟩ := payment?_eq_some.mp hpay
  split at h
  · rename_i s hmismatch
    obtain ⟨-, rfl⟩ := Tx.pure_ok.mp h
    have hnot : ¬s'.IsSentBy paymentId d.providerCode := by
      rintro ⟨p, hp, hprov⟩
      obtain rfl : payment = p := Option.some.inj (hfind.symm.trans hp)
      exact hmismatch hprov
    refine ⟨.untouched rfl rfl, fun h => absurd rfl h, fun key => ?_⟩
    simp [hnot]
  · rename_i s hown
    simp only [Tx.bind_ok, Tx.pure_ok] at h
    obtain ⟨result, s₁, hact, _, s₂, hclaim, -, rfl⟩ := h
    have hsent : s.IsSentBy paymentId d.providerCode := ⟨payment, hfind, not_not.mp hown⟩
    obtain ⟨hdelivered, hevents⟩ := actOnDelivery_delivered hfind hact
    refine ⟨?_, fun _ => hsent, fun key => ?_⟩
    · obtain ⟨events, rfl⟩ := claimEvent_ok hclaim
      exact hdelivered.of_frame rfl rfl
    · rw [(claimEvent_find? hclaim).2, hevents]
      simp [hsent, Delivery.parsed]

/-- The payment that has come to an end stays, and its bill. -/
theorem Delivered.of_ended (h : Delivered paymentId s s')
    (hended : ∀ p ∈ s.payments.find? paymentId, p.status ≠ .pending) :
    s'.payments = s.payments ∧ s'.bills = s.bills := by
  cases h with
  | untouched hp hb => exact ⟨hp, hb⟩
  | failed hfind hpending => exact absurd hpending (hended _ hfind)
  | settled hfind hpending => exact absurd hpending (hended _ hfind)

theorem Delivered.trans (h : Delivered paymentId s s') (h' : Delivered paymentId s' s'') :
    Delivered paymentId s s'' := by
  have hmoved : ∀ {p : Payment} (toStatus : PaymentStatus), toStatus ≠ .pending →
      s.payments.find? paymentId = some p →
      s'.payments = s.payments.update paymentId (Payment.moved toStatus false) (fun _ => rfl) →
      ∀ q ∈ s'.payments.find? paymentId, q.status ≠ .pending := by
    intro p toStatus hne hfind hpay q hq
    rw [hpay, Table.find?_update_self (Payment.moved toStatus false) (fun _ => rfl) hfind] at hq
    obtain rfl := Option.some.inj hq
    exact hne
  cases h with
  | untouched hp hb =>
    cases h' with
    | untouched hp' hb' => exact .untouched (hp'.trans hp) (hb'.trans hb)
    | failed hfind hpending hp' hb' =>
      rw [hp] at hfind hp'
      exact .failed hfind hpending hp' (hb'.trans hb)
    | settled hfind hpending hp' hb' =>
      rw [hp] at hfind hp'
      rw [hb] at hb'
      exact .settled hfind hpending hp' hb'
  | failed hfind hpending hp hb =>
    obtain ⟨hp', hb'⟩ := h'.of_ended (hmoved .failed nofun hfind hp)
    exact .failed hfind hpending (hp'.trans hp) (hb'.trans hb)
  | settled hfind hpending hp hb =>
    obtain ⟨hp', hb'⟩ := h'.of_ended (hmoved .succeeded nofun hfind hp)
    exact .settled hfind hpending (hp'.trans hp) (hb'.trans hb)

/-- The payment keeps its provider. -/
theorem Delivered.isSentBy (h : Delivered paymentId s s') (provider : Provider) :
    s'.IsSentBy paymentId provider ↔ s.IsSentBy paymentId provider := by
  have hmoved : ∀ {p : Payment} {toStatus : PaymentStatus},
      s.payments.find? paymentId = some p →
      s'.payments = s.payments.update paymentId (Payment.moved toStatus false) (fun _ => rfl) →
      (s'.IsSentBy paymentId provider ↔ s.IsSentBy paymentId provider) := by
    intro p toStatus hfind hpay
    unfold Db.IsSentBy
    rw [hpay, Table.find?_update_self (Payment.moved toStatus false) (fun _ => rfl) hfind, hfind]
    simp [Payment.moved]
  cases h with
  | untouched hp hb =>
    unfold Db.IsSentBy
    rw [hp]
  | failed hfind hpending hp hb => exact hmoved hfind hp
  | settled hfind hpending hp hb => exact hmoved hfind hp

end Transaction

/-! ## The invariant -/

/-- What an attempt has written so far is what its part of the transaction does to what is
committed. -/
def DeliveryAttempt.Sound (paymentId : Uuid) (s : Db) (a : DeliveryAttempt) : Prop :=
  match a.phase with
  | .admitted => True
  | .locked payment => s.payment? a.delivery.restaurantId paymentId = some payment
  | .acted db result => ∃ p, s.payment? a.delivery.restaurantId paymentId = some p ∧
      p.provider = some a.delivery.providerCode ∧
      (actOnDelivery a.delivery.providerCode (a.delivery.parsed paymentId) p).run s = .ok result db
  | .claimed db result =>
    (settleDelivery a.delivery.providerCode (a.delivery.parsed paymentId)).run s = .ok result db

/-- A delivery claims its event, if the payment is of the provider that sent it. -/
def Delivery.Claims (d : Delivery) (paymentId : Uuid) (s : Db) (key : Provider × String) : Prop :=
  s.IsSentBy paymentId d.providerCode ∧ d.providerCode = key.1 ∧ d.providerEventId = some key.2

/-- The transactions of some deliveries, one after the other. -/
def Db.settleAll (s : Db) (paymentId : Uuid) (history : List (Delivery × DeliveryOutcome)) : Db :=
  history.foldl (fun s c => (settleDelivery c.1.providerCode (c.1.parsed paymentId)).exec s) s

/-- What deliveries may have done to the database since it was `db`; at most one attempt holds the
payment, and no one else has written. -/
structure Inbox.Sound (paymentId : Uuid) (db : Db) (w : Inbox) : Prop where
  delivered : Delivered paymentId db w.db
  exclusive : ∀ a ∈ w.attempts, ∀ a' ∈ w.attempts, a.holds → a'.holds → a.attemptId = a'.attemptId
  attempt : ∀ a ∈ w.attempts, a.Sound paymentId w.db
  events : ∀ key, (w.db.events.find? key).isSome ↔
    (db.events.find? key).isSome ∨ ∃ c ∈ w.history, c.1.Claims paymentId db key
  serial : w.db = db.settleAll paymentId w.history

theorem Inbox.Sound.start (paymentId : Uuid) (db : Db) : (Inbox.start db).Sound paymentId db := by
  refine ⟨.untouched rfl rfl, fun a ha => ?_, fun a ha => ?_, fun key => ?_, rfl⟩
  · cases ha
  · cases ha
  · simp [Inbox.start]

section Step

variable {paymentId : Uuid} {db : Db} {w : Inbox} {a : DeliveryAttempt} {phase : DeliveryPhase}

theorem DeliveryAttempt.Sound.of_not_holds {s : Db} (h : a.holds = false) :
    a.Sound paymentId s := by
  unfold DeliveryAttempt.holds at h
  unfold DeliveryAttempt.Sound
  split
  · trivial
  all_goals simp_all

/-- The next statement of an attempt that holds the payment, or gets it. -/
theorem Inbox.Sound.setPhase (h : w.Sound paymentId db) (ha : a ∈ w.attempts)
    (hfree : ∀ a' ∈ w.attempts, a'.holds → a'.attemptId = a.attemptId)
    (hphase : DeliveryAttempt.Sound paymentId w.db { a with phase }) :
    (w.setPhase a.attemptId phase).Sound paymentId db := by
  have hmem : ∀ x ∈ (w.setPhase a.attemptId phase).attempts,
      x = { a with phase } ∨ (x ∈ w.attempts ∧ x.attemptId ≠ a.attemptId) := fun x hx =>
    (Table.mem_update_of_find (fun a : DeliveryAttempt => { a with phase }) (fun _ => rfl)
      (Table.find?_eq_some.mpr ⟨ha, rfl⟩)).mp hx
  refine ⟨h.delivered, fun x hx y hy hxh hyh => ?_, fun x hx => ?_, h.events, h.serial⟩
  · rcases hmem x hx with rfl | ⟨hx, hne⟩
    · rcases hmem y hy with rfl | ⟨hy, -⟩
      · rfl
      · exact (hfree y hy hyh).symm
    · exact absurd (hfree x hx hxh) hne
  · rcases hmem x hx with rfl | ⟨hx, -⟩
    · exact hphase
    · exact h.attempt x hx

theorem Inbox.Sound.forget (h : w.Sound paymentId db) (attemptId : Nat) :
    (w.forget attemptId).Sound paymentId db := by
  have hmem : ∀ x ∈ (w.forget attemptId).attempts, x ∈ w.attempts := fun x hx =>
    (Table.mem_deleteWhere.mp hx).1
  exact ⟨h.delivered, fun x hx y hy => h.exclusive x (hmem x hx) y (hmem y hy),
    fun x hx => h.attempt x (hmem x hx), h.events, h.serial⟩

theorem Inbox.Sound.receive (h : w.Sound paymentId db) {attemptId : Nat} {d : Delivery}
    {attempts : Table DeliveryAttempt}
    (hins : w.attempts.insert? ⟨attemptId, d, .admitted⟩ = some attempts) :
    Inbox.Sound paymentId db { w with attempts } := by
  refine ⟨h.delivered, fun x hx y hy hxh hyh => ?_, fun x hx => ?_, h.events, h.serial⟩
  · rcases (Table.mem_insert? hins).mp hx with hx | rfl
    · rcases (Table.mem_insert? hins).mp hy with hy | rfl
      · exact h.exclusive x hx y hy hxh hyh
      · cases hyh
    · cases hxh
  · rcases (Table.mem_insert? hins).mp hx with hx | rfl
    · exact h.attempt x hx
    · trivial

/-- A commit publishes what the attempt has written; nobody else holds the payment. -/
theorem Inbox.Sound.commit (h : w.Sound paymentId db) {s : Db} {result : DeliveryOutcome}
    (ha : a ∈ w.attempts) (hphase : a.phase = .claimed s result) :
    Inbox.Sound paymentId db { w.forget a.attemptId with
      db := s, history := w.history ++ [(a.delivery, result)] } := by
  have hrun : (settleDelivery a.delivery.providerCode (a.delivery.parsed paymentId)).run w.db =
      .ok result s := by
    have hsound := h.attempt a ha
    unfold DeliveryAttempt.Sound at hsound
    rwa [hphase] at hsound
  obtain ⟨hdelivered, -, hevents⟩ := settleDelivery_delivered hrun
  have hholds : a.holds := by
    unfold DeliveryAttempt.holds
    rw [hphase]
  have hmem : ∀ x ∈ (w.forget a.attemptId).attempts, x ∈ w.attempts ∧ x.holds = false := by
    intro x hx
    obtain ⟨hx, hne⟩ := Table.mem_deleteWhere.mp hx
    refine ⟨hx, Bool.eq_false_iff.mpr fun hxh => ?_⟩
    simp [h.exclusive x hx a ha hxh hholds] at hne
  refine ⟨h.delivered.trans hdelivered, fun x hx y _ hxh _ => ?_, fun x hx => ?_, fun key => ?_, ?_⟩
  · rw [(hmem x hx).2] at hxh
    cases hxh
  · exact .of_not_holds (hmem x hx).2
  · rw [hevents key, h.events key, h.delivered.isSentBy, or_assoc]
    simp [Delivery.Claims, List.mem_append, or_and_right, exists_or]
  · have hserial := h.serial
    unfold Db.settleAll at hserial ⊢
    rw [List.foldl_append, ← hserial]
    exact (Tx.exec_of_ok hrun).symm

/-- Nobody holds the payment when the lock is taken. -/
theorem Inbox.not_busy (h : w.busy = false) : ∀ a ∈ w.attempts, a.holds → False := by
  intro a ha hholds
  unfold Inbox.busy at h
  rw [List.any_eq_false] at h
  exact h a ha hholds

/-- What a step comes to: nothing, a new attempt, the next statement of one that holds the payment or
gets it, the end of one without a trace, or a commit. -/
inductive Inbox.Steps (paymentId : Uuid) (w : Inbox) : DeliveryOp → Inbox × List Err → Prop where
  | idle (op : DeliveryOp) : Steps paymentId w op (w, [])
  | received {attemptId : Nat} {d : Delivery} {attempts : Table DeliveryAttempt} :
      w.attempts.insert? ⟨attemptId, d, .admitted⟩ = some attempts →
      Steps paymentId w (.receive attemptId d) ({ w with attempts }, [])
  | advanced (op : DeliveryOp) {a : DeliveryAttempt} {phase : DeliveryPhase} : a ∈ w.attempts →
      (∀ a' ∈ w.attempts, a'.holds → a'.attemptId = a.attemptId) →
      DeliveryAttempt.Sound paymentId w.db { a with phase } →
      Steps paymentId w op (w.setPhase a.attemptId phase, [])
  | forgotten (op : DeliveryOp) (errs : List Err) :
      Steps paymentId w op (w.forget op.attemptId, errs)
  | committed {a : DeliveryAttempt} {s : Db} {result : DeliveryOutcome} : a ∈ w.attempts →
      a.phase = .claimed s result →
      Steps paymentId w (.commit a.attemptId) ({ w.forget a.attemptId with
        db := s, history := w.history ++ [(a.delivery, result)] }, [])

/-- One case for each operation. -/
theorem Inbox.Sound.steps (h : w.Sound paymentId db) (op : DeliveryOp) :
    w.Steps paymentId op ((inbox paymentId).step w op) := by
  cases op with
  | receive attemptId d =>
    simp only [inbox, DeliveryOp.step]
    split
    · exact .idle _
    split
    · rename_i hins
      exact .received hins
    · exact .idle _
  | lock attemptId =>
    simp only [inbox, DeliveryOp.step]
    split
    · rename_i id d hfind
      obtain ⟨ha, rfl⟩ := Table.find?_eq_some.mp hfind
      split
      · rename_i payment hpay
        split
        · exact .idle _
        · rename_i hbusy
          refine .advanced _ ha (fun a' ha' hholds => ?_) hpay
          exact (Inbox.not_busy (by simpa using hbusy) a' ha' hholds).elim
      · exact .forgotten (.lock _) _
    · exact .idle _
  | act attemptId =>
    simp only [inbox, DeliveryOp.step]
    split
    · rename_i id d payment hfind
      obtain ⟨ha, rfl⟩ := Table.find?_eq_some.mp hfind
      have hholder := fun a' ha' hholds => h.exclusive a' ha' _ ha hholds rfl
      have hpay : w.db.payment? d.restaurantId paymentId = some payment := h.attempt _ ha
      split
      · rename_i hmismatch
        exact .advanced _ ha hholder (settleDelivery_of_mismatch hpay hmismatch)
      · rename_i hprov
        split
        · rename_i hrun
          exact .advanced _ ha hholder ⟨payment, hpay, not_not.mp hprov, hrun⟩
        · exact .forgotten (.act _) _
    · exact .idle _
  | claim attemptId =>
    simp only [inbox, DeliveryOp.step]
    split
    · rename_i id d s result hfind
      obtain ⟨ha, rfl⟩ := Table.find?_eq_some.mp hfind
      have hholder := fun a' ha' hholds => h.exclusive a' ha' _ ha hholds rfl
      obtain ⟨p, hpay, hprov, hact⟩ : ∃ p, w.db.payment? d.restaurantId paymentId = some p ∧
          p.provider = some d.providerCode ∧
          (actOnDelivery d.providerCode (d.parsed paymentId) p).run w.db = .ok result s :=
        h.attempt _ ha
      split
      · rename_i hclaim
        exact .advanced _ ha hholder (settleDelivery_of_claim hpay hprov hact hclaim)
      · exact .forgotten (.claim _) _
    · exact .idle _
  | commit attemptId =>
    simp only [inbox, DeliveryOp.step]
    split
    · rename_i id d s result hfind
      obtain ⟨ha, rfl⟩ := Table.find?_eq_some.mp hfind
      exact .committed ha rfl
    · exact .idle _
  | fail attemptId err =>
    simp only [inbox, DeliveryOp.step]
    split
    · exact .forgotten (.fail _ _) _
    · exact .idle _

theorem Inbox.Sound.step (h : w.Sound paymentId db) (op : DeliveryOp) :
    ((inbox paymentId).step w op).1.Sound paymentId db := by
  have hsteps := h.steps op
  generalize (inbox paymentId).step w op = r at hsteps ⊢
  cases hsteps with
  | idle => exact h
  | received hins => exact h.receive hins
  | advanced _ ha hfree hphase => exact h.setPhase ha hfree hphase
  | forgotten => exact h.forget _
  | committed ha hphase => exact h.commit ha hphase

/-- An attempt that fails is as if it had never been. -/
theorem Inbox.Sound.forgets (h : w.Sound paymentId db) {op : DeliveryOp}
    (hfail : ((inbox paymentId).step w op).2 ≠ []) :
    ((inbox paymentId).step w op).1 = w.forget op.attemptId := by
  have hsteps := h.steps op
  generalize (inbox paymentId).step w op = r at hsteps hfail ⊢
  cases hsteps with
  | forgotten => rfl
  | _ => exact absurd rfl hfail

/-- Only a commit changes what is committed, and only of a delivery that the provider of the payment
sent. -/
theorem Inbox.Sound.changes (h : w.Sound paymentId db) (op : DeliveryOp) :
    Delivered paymentId w.db ((inbox paymentId).step w op).1.db ∧
      (((inbox paymentId).step w op).1.db ≠ w.db → ∃ a ∈ w.attempts,
        op = .commit a.attemptId ∧ w.db.IsSentBy paymentId a.delivery.providerCode) := by
  have hsteps := h.steps op
  generalize (inbox paymentId).step w op = r at hsteps ⊢
  cases hsteps with
  | @committed a s result ha hphase =>
    have hrun := h.attempt a ha
    unfold DeliveryAttempt.Sound at hrun
    rw [hphase] at hrun
    obtain ⟨hdelivered, hsent, -⟩ := settleDelivery_delivered hrun
    exact ⟨hdelivered, fun hne => ⟨a, ha, rfl, hsent hne⟩⟩
  | _ => exact ⟨.untouched rfl rfl, fun hne => absurd rfl hne⟩

theorem Inbox.Sound.run (h : w.Sound paymentId db) (ops : List DeliveryOp) :
    ((inbox paymentId).run w ops).Sound paymentId db := by
  induction ops generalizing w with
  | nil => exact h
  | cons op ops ih => exact ih (h.step op)

theorem Inbox.Sound.run_delivered (h : w.Sound paymentId db) (ops : List DeliveryOp) :
    Delivered paymentId w.db ((inbox paymentId).run w ops).db := by
  induction ops generalizing w with
  | nil => exact .untouched rfl rfl
  | cons op ops ih => exact (h.changes op).1.trans (ih (h.step op))

end Step

/-! ## Exactly once -/

/-- Whatever the attempts do between each other, what is committed is what their transactions do one
after the other. -/
theorem inbox_serial (paymentId : Uuid) (db : Db) (ops : List DeliveryOp) :
    let w := (inbox paymentId).run (.start db) ops
    w.db = db.settleAll paymentId w.history :=
  ((Inbox.Sound.start paymentId db).run ops).serial

/-- The deliveries about a payment, after any number of steps of any number of them: the bill is
credited once at most, with the amount that was recorded; only a delivery of the payment's own
provider changes anything; a payment that has come to an end stays, and its bill; the event of a
delivery that passes the check of its provider is in the table exactly when its transaction
committed; and an attempt that fails is as if it had never been. -/
theorem delivered_once (paymentId : Uuid) (db : Db) (ops : List DeliveryOp) :
    let w := (inbox paymentId).run (.start db) ops
    Delivered paymentId db w.db ∧
    (∀ op, ((inbox paymentId).step w op).1.db ≠ w.db → ∃ a ∈ w.attempts,
      op = .commit a.attemptId ∧ w.db.IsSentBy paymentId a.delivery.providerCode) ∧
    (∀ p ∈ w.db.payments.find? paymentId, p.status ≠ .pending → ∀ later,
      let w' := (inbox paymentId).run w later
      w'.db.payments = w.db.payments ∧ w'.db.bills = w.db.bills) ∧
    (∀ provider providerEventId, w.db.IsSentBy paymentId provider →
      ((w.db.events.find? (provider, providerEventId)).isSome ↔
        (db.events.find? (provider, providerEventId)).isSome ∨
        ∃ c ∈ w.history, c.1.providerCode = provider ∧
          c.1.providerEventId = some providerEventId)) ∧
    ∀ op, ((inbox paymentId).step w op).2 ≠ [] →
      ((inbox paymentId).step w op).1 = w.forget op.attemptId := by
  intro w
  have h : w.Sound paymentId db := (Inbox.Sound.start paymentId db).run ops
  refine ⟨h.delivered, fun op => (h.changes op).2, fun p hp hended later => ?_,
    fun provider e hsent => ?_, fun op => h.forgets⟩
  · refine (h.run_delivered later).of_ended fun q hq => ?_
    obtain rfl := Option.some.inj (hq.symm.trans hp)
    exact hended
  · rw [h.events]
    simp only [Delivery.Claims, h.delivered.isSentBy] at hsent ⊢
    refine or_congr_right ⟨?_, ?_⟩
    · rintro ⟨c, hc, -, hcode, hevent⟩
      exact ⟨c, hc, hcode, hevent⟩
    · rintro ⟨c, hc, rfl, hevent⟩
      exact ⟨c, hc, hsent, rfl, hevent⟩

end Splite
