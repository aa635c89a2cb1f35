import Splite.Ledger.Indexes

/-!
# Charges whose call came to a bad end (`services/mercantilC2P.js`)

The process of `createC2PPayment` may die between any two of its transactions, and a transaction may
fail. What is left then is for `resolveC2PPayment`, which takes a charge in doubt, and
`listUnresolved`, which also shows a charge that is pending for too long.

* `Rail.Writes`: no call is cut short between asking the bank and writing the outcome.
* `Rail.Sound.step`: while that holds, a charge whose call is over has an outcome.
* `charges_resolvable`: and then `resolveC2PPayment` acts on every charge that has no end.
* `evening_stranded`: a charge that is left pending, and that nothing resolves.
-/

namespace Splite

open Mercantil (ChargeError ChargeResult)

/-! ## The queue of the staff -/

/-- The rows of `listUnresolved`, without order and limit. -/
def Db.waiting (s : Db) (restaurantId : Uuid) (now : Time) : List Payment :=
  s.payments.rows.filter fun p => p.restaurantId = restaurantId ∧ (s.charges.find? p.id).isSome ∧
    (p.status ∈ [.inDoubt, .ambiguous] ∨
      (p.status = .pending ∧ p.createdAt + SETTLEMENT_WINDOW_MINUTES * 60000 < now))

/-- `listUnresolved({ restaurantId, limit })`. -/
def listUnresolved (s : Db) (restaurantId : Uuid) (limit : Nat) (now : Time) : List Payment :=
  ((s.waiting restaurantId now).insertionSort fun p q => p.createdAt ≤ q.createdAt).take limit

/-! ## Calls that fail -/

/-- The ledger, and the charges that the bank was asked for. -/
structure Rail where
  ledger : World
  asked : List Uuid

def Rail.start (db : Db) : Rail := ⟨.idle db, []⟩

inductive RailOp where
  /-- A step in which no statement fails but for a constraint. -/
  | ledger (op : LedgerOp)
  /-- `createC2PPayment` calls `client.charge`. -/
  | askBank (paymentId : Uuid)
  /-- The process of a call of `createC2PPayment` dies. -/
  | crash (paymentId : Uuid)
  /-- `client.charge` returns or throws, and the transaction that follows fails. -/
  | replyLost (paymentId : Uuid) (reply : Except ChargeError ChargeResult) (err : Err)
  /-- The transaction of `parkUnappliable` fails. -/
  | parkLost (paymentId : Uuid)
  /-- A call of `resolveC2PPayment` dies, or one of its statements fails. -/
  | resolveLost (callId : Uuid)

/-- What `createC2PPayment` does when the transaction that follows the reply fails: an approval is
parked, a charge in doubt is answered as such, and everything else is thrown. -/
def World.afterLostReply (w : World) (paymentId : Uuid) (err : Err) :
    Except ChargeError ChargeResult → World × List Err
  | .error (.c2p .bankIndeterminate _) => (w.dropCharge paymentId, [])
  | .error _ => (w.dropCharge paymentId, [err])
  | .ok (.failed _) => (w.dropCharge paymentId, [err])
  | .ok (.succeeded providerPaymentId bankReference) =>
    (w.setParking paymentId ⟨referenceFor providerPaymentId bankReference, err, none⟩, [])

/-- A reply cannot come before the bank was asked. -/
def Rail.early (r : Rail) : LedgerOp → Bool
  | .bankReplies paymentId _ _ => paymentId ∉ r.asked
  | _ => false

def RailOp.step (r : Rail) : RailOp → Rail × List Err
  | .ledger op =>
    if r.early op then (r, [])
    else ({ r with ledger := (op.step r.ledger).1 }, (op.step r.ledger).2)
  | .askBank paymentId =>
    match r.ledger.charges.find? fun c => c.paymentId = paymentId ∧ c.parking.isNone with
    | some _ => ({ r with asked := paymentId :: r.asked }, [])
    | none => (r, [])
  | .crash paymentId => ({ r with ledger := r.ledger.dropCharge paymentId }, [])
  | .replyLost paymentId reply err =>
    match r.ledger.charges.find? fun c => c.paymentId = paymentId ∧ c.parking.isNone with
    | some _ =>
      if paymentId ∉ r.asked then (r, [])
      else
        ({ r with ledger := (r.ledger.afterLostReply paymentId err reply).1 },
          (r.ledger.afterLostReply paymentId err reply).2)
    | none => (r, [])
  | .parkLost paymentId =>
    match r.ledger.charges.find? fun c => c.paymentId = paymentId with
    | some ⟨_, _, _, _, some _⟩ => ({ r with ledger := r.ledger.dropCharge paymentId }, [])
    | _ => (r, [])
  | .resolveLost callId => ({ r with ledger := r.ledger.dropResolve callId }, [])

def rail : Machine Rail RailOp Err := ⟨RailOp.step⟩

/-! ## What the calls leave -/

/-- `resolveC2PPayment` goes on with the charge: it asks the bank for movements, or it parks a charge
that is too old as `AMBIGUOUS`; it does not answer that the charge is resolved already. -/
def World.Acts (w : World) (restaurantId paymentId : Uuid) : Prop :=
  ∀ callId now actorUserId, ∃ c : ChargeSnapshot, c.paymentId = paymentId ∧
    LedgerOp.step w (.resolveCharge callId now restaurantId paymentId actorUserId) =
      ({ w with resolves := w.resolves ++
          [⟨callId, c, now, actorUserId, if c.Expired now then .expired else .searching⟩] }, []) ∧
    ∃ s', (expireResolution c now actorUserId).run w.db = .ok () s' ∧
      ∀ p ∈ s'.payments, p.id = paymentId → p.status = .ambiguous

/-- Every charge that the bank was asked for, whose call is over and that has no end yet, waits for
staff to resolve it. -/
def Rail.Resolvable (r : Rail) : Prop :=
  ∀ p ∈ r.ledger.db.payments, p.id ∈ r.asked → (∀ c ∈ r.ledger.charges, c.paymentId ≠ p.id) →
    p.status ∉ [.ambiguous, .succeeded, .failed] →
      r.ledger.Acts p.restaurantId p.id ∧ ∀ now, p ∈ r.ledger.db.waiting p.restaurantId now

/-- The reference that `parkUnappliable` writes. -/
def Parking.written (parking : Parking) : Option String :=
  if parking.conflict.apiCode = some .paymentReferenceAlreadyUsed then none else parking.reference

/-- No other payment of Mercantil carries the reference. -/
def Db.Free (s : Db) (paymentId : Uuid) (reference : String) : Prop :=
  ∀ q ∈ s.payments, q.id ≠ paymentId →
    ¬(q.provider = some .mercantil ∧ q.providerPaymentId = some reference)

/-- No call of `createC2PPayment` that has asked the bank is cut short: its process does not die,
neither a transaction that writes an outcome other than an approval nor one that parks an approval
fails, and what is parked carries the reference of no other payment. -/
def Rail.Writes (r : Rail) : RailOp → Prop
  | .crash paymentId => paymentId ∈ r.asked → ∀ c ∈ r.ledger.charges, c.paymentId ≠ paymentId
  | .replyLost paymentId reply _ =>
    (∃ providerPaymentId bankReference, reply = .ok (.succeeded providerPaymentId bankReference)) ∨
      ∀ c ∈ r.ledger.charges, c.paymentId = paymentId → c.parking.isSome
  | .parkLost paymentId => ∀ c ∈ r.ledger.charges, c.paymentId = paymentId → c.parking.isNone
  | .ledger (.parkCharge paymentId _) =>
    ∀ c ∈ r.ledger.charges, c.paymentId = paymentId → ∀ parking ∈ c.parking,
      ∀ reference ∈ parking.written, r.ledger.db.Free paymentId reference
  | _ => True

/-! ## Writes that go through -/

section Writes

variable {s s' : Db} {restaurantId paymentId : Uuid} {p : Payment}

/-- A charge in flight moves to an outcome that settles nothing. -/
theorem transition_commits (toStatus : PaymentStatus) (reason : Option String) (h : s.Unclashed)
    (hp : s.payment? restaurantId paymentId = some p) (hpending : p.status = .pending)
    (hprov : p.provider.isSome) (hto : toStatus ∈ [.inDoubt, .ambiguous, .failed]) :
    ∃ m s', (transitionPayment restaurantId paymentId toStatus reason).run s = .ok m s' := by
  have hne : p.status ≠ toStatus := by
    rw [hpending]
    rintro rfl
    revert hto
    decide
  have hallow : toStatus ∈ p.status.ALLOWED_TRANSITIONS := by
    rw [hpending]
    revert hto
    cases toStatus <;> decide
  have hunsettled : toStatus ∉ SETTLED_STATUSES := by
    revert hto
    cases toStatus <;> decide
  obtain ⟨m, transitions, hrun⟩ :=
    transitionPayment_commits reason h hp hprov hne hallow hunsettled
  exact ⟨m, _, hrun⟩

/-- After a move the payment has the status that it was moved to. -/
theorem status_of_transition {toStatus : PaymentStatus} {reason : Option String}
    {mode : OnShareRefusal} {m : Moved}
    (h : (transitionPayment restaurantId paymentId toStatus reason mode).run s = .ok m s')
    (hp : p ∈ s'.payments) (hid : p.id = paymentId) : p.status = toStatus := by
  obtain ⟨current, hcur, ⟨hsame, rfl⟩ | ⟨-, detached, transitions, shares, rfl⟩⟩ :=
    transitionPayment_ok h
  · obtain ⟨hfind, -⟩ := payment?_eq_some.mp hcur
    rw [Table.eq_of_key hp (Table.find?_mem hfind) (hid.trans (Table.find?_key hfind).symm)]
    exact hsame
  · obtain ⟨hfind, -⟩ := payment?_eq_some.mp hcur
    rcases (Table.mem_update_of_find (Payment.moved toStatus detached) (fun _ => rfl) hfind).mp hp
      with rfl | ⟨-, hne⟩
    · rfl
    · exact absurd hid hne

/-- A reference that no other payment of Mercantil carries is written. -/
theorem writeReference_commits {reference : Option String} (h : s.Unclashed)
    (hp : s.payment? restaurantId paymentId = some p) (hprov : p.provider = some .mercantil)
    (hfree : ∀ r ∈ reference, s.Free paymentId r) :
    ∃ s', (writeReference restaurantId paymentId reference).run s = .ok () s' ∧ s'.Unclashed ∧
      ∃ reference', s'.payment? restaurantId paymentId = some (p.withReference reference') := by
  obtain ⟨hfind, hrest⟩ := payment?_eq_some.mp hp
  have hid : p.id = paymentId := Table.find?_key hfind
  cases reference with
  | none => exact ⟨s, rfl, h, p.providerPaymentId, hp⟩
  | some r =>
    have hclash : ∀ q ∈ s.payments, q.id ≠ p.id → (p.withReference (some r)).clash q = none := by
      intro q hq hne
      refine clash_withReference (h p (Table.find?_mem hfind) q hq hne) fun _ hsame heq => ?_
      exact hfree r rfl q hq (hid ▸ hne) ⟨hsame ▸ hprov, heq.symm⟩
    have hset := updatePayment_commits (f := Payment.withReference (some r)) (fun _ => rfl) hp
      ⟨rfl, rfl, rfl⟩ (.inl rfl) (.inr (hprov ▸ rfl)) (paymentClash_eq_none.mpr hclash)
    refine ⟨_, Tx.bind_ok.mpr ⟨_, _, hset, rfl⟩, ?_, some r, ?_⟩
    · exact h.of_update (Payment.withReference (some r)) (fun _ => rfl) hfind rfl hclash
    · exact payment?_eq_some.mpr
        ⟨Table.find?_update_self (Payment.withReference (some r)) (fun _ => rfl) hfind, hrest⟩

theorem logParked_commits (restaurantId paymentId : Uuid) (parking : Parking) (now : Time) (s : Db) :
    ∃ s', (logParked restaurantId paymentId parking now).run s = .ok () s' := by
  unfold logParked
  split
  · exact ⟨_, rfl⟩
  · exact ⟨_, rfl⟩

/-- An approval is parked, under a reference that no other payment carries. -/
theorem parkUnappliable_commits {parking : Parking} (now : Time) (h : s.Unclashed)
    (hp : s.payment? restaurantId paymentId = some p) (hpending : p.status = .pending)
    (hprov : p.provider = some .mercantil) (hfree : ∀ r ∈ parking.written, s.Free paymentId r) :
    ∃ s', (parkUnappliable restaurantId paymentId parking now).run s = .ok () s' := by
  obtain ⟨s₁, href, h₁, reference', hp₁⟩ := writeReference_commits h hp hprov hfree
  obtain ⟨m, s₂, hmove⟩ := transition_commits .ambiguous (some parking.reason) h₁ hp₁ hpending
    (hprov ▸ rfl) (by decide)
  obtain ⟨s₃, hlog⟩ := logParked_commits restaurantId paymentId parking now s₂
  exact ⟨s₃, Tx.withTransaction_ok.mpr
    (Tx.bind_ok.mpr ⟨_, _, href, Tx.bind_ok.mpr ⟨_, _, hmove, hlog⟩⟩)⟩

theorem status_of_parkUnappliable {parking : Parking} {now : Time} {u : Unit}
    (h : (parkUnappliable restaurantId paymentId parking now).run s = .ok u s')
    (hp : p ∈ s'.payments) (hid : p.id = paymentId) : p.status = .ambiguous := by
  unfold parkUnappliable at h
  simp only [Tx.withTransaction_ok, Tx.bind_ok] at h
  obtain ⟨_, _, -, _, s₂, hmove, hlog⟩ := h
  obtain ⟨charges, attempts, rfl⟩ := logParked_ok hlog
  exact status_of_transition hmove hp hid

/-- What `resolveC2PPayment` reads of a charge. -/
def Payment.snapshot (p : Payment) (charge : C2PCharge) : ChargeSnapshot where
  restaurantId := p.restaurantId
  paymentId := p.id
  status := p.status
  billId := p.billId
  amountVes := p.amountVes
  tipVes := p.tipVes
  createdAt := p.createdAt
  invoiceNumber := charge.invoiceNumber
  payerPhoneLast4 := charge.payerPhoneLast4

theorem readCharge_commits {charge : C2PCharge}
    (hp : s.payment? p.restaurantId p.id = some p) (hcharge : s.charges.find? p.id = some charge) :
    (readCharge p.restaurantId p.id).run s = .ok (p.snapshot charge) s := by
  unfold readCharge
  rw [Tx.bind_of_ok Tx.run_get, Tx.bind_of_ok (Tx.orThrow_ok.mpr ⟨hp, rfl⟩),
    Tx.bind_of_ok (Tx.orThrow_ok.mpr ⟨hcharge, rfl⟩)]
  rfl

/-- A charge in doubt that is too old is parked. -/
theorem expireResolution_commits {c : ChargeSnapshot} (now : Time) (actorUserId : Option Uuid)
    (h : s.Unclashed) (hp : s.payment? c.restaurantId c.paymentId = some p)
    (hdoubt : p.status = .inDoubt) (hprov : p.provider.isSome) :
    ∃ s', (expireResolution c now actorUserId).run s = .ok () s' := by
  have hne : p.status ≠ .ambiguous := by
    rw [hdoubt]
    nofun
  have hallow : PaymentStatus.ambiguous ∈ p.status.ALLOWED_TRANSITIONS := by
    rw [hdoubt]
    decide
  obtain ⟨s₁, htouch, h₁, hp₁⟩ : ∃ s₁, (touchCharge c.paymentId now).run s = .ok () s₁ ∧
      s₁.Unclashed ∧ s₁.payment? c.restaurantId c.paymentId = some p := ⟨_, rfl, h, hp⟩
  obtain ⟨m, transitions, hmove⟩ :=
    transitionPayment_commits (some expiredReason) h₁ hp₁ hprov hne hallow (by decide)
  exact ⟨_, Tx.withTransaction_ok.mpr
    (Tx.bind_ok.mpr ⟨_, _, htouch, Tx.bind_ok.mpr ⟨_, _, hmove, rfl⟩⟩)⟩

theorem status_of_expireResolution {c : ChargeSnapshot} {now : Time} {actorUserId : Option Uuid}
    {u : Unit} (h : (expireResolution c now actorUserId).run s = .ok u s') (hp : p ∈ s'.payments)
    (hid : p.id = c.paymentId) : p.status = .ambiguous := by
  unfold expireResolution at h
  simp only [Tx.withTransaction_ok, Tx.bind_ok, logAttempt, Tx.run_modify] at h
  obtain ⟨_, _, -, _, s₂, hmove, -, rfl⟩ := h
  exact status_of_transition hmove hp hid

end Writes

/-! ## The invariant -/

/-- The rows that `createC2PPayment` commits before it asks the bank. -/
def Db.Charged (s : Db) (restaurantId paymentId : Uuid) : Prop :=
  paymentId ∈ s.charges.rows.map C2PCharge.paymentId ∧
    ∃ p ∈ s.payments, p.id = paymentId ∧ p.restaurantId = restaurantId ∧
      p.provider = some .mercantil

/-- Each charge that was submitted has its rows, and one that the bank was asked for has an outcome
once its call is over. -/
structure Rail.Sound (r : Rail) : Prop where
  ledger : r.ledger.Sound
  unclashed : r.ledger.db.Unclashed
  calls : ∀ c ∈ r.ledger.charges, r.ledger.db.Charged c.restaurantId c.paymentId
  rows : ∀ id ∈ r.asked, ∃ restaurantId, r.ledger.db.Charged restaurantId id
  ended : ∀ p ∈ r.ledger.db.payments, p.id ∈ r.asked →
    (∀ c ∈ r.ledger.charges, c.paymentId ≠ p.id) → p.status ∈ OUTCOMES

theorem Rail.Sound.start {db : Db} (h : db.Opened) (hunclashed : db.Unclashed) :
    (Rail.start db).Sound := by
  refine ⟨.idle h.sound, hunclashed, fun c hc => ?_, fun id hid => ?_, fun p _ hasked => ?_⟩
  · cases hc
  · cases hid
  · cases hasked

theorem Db.Charged.of_traced {s s' : Db} {restaurantId paymentId : Uuid}
    (h : s.Charged restaurantId paymentId) (ht : Traced s s') : s'.Charged restaurantId paymentId := by
  obtain ⟨hrow, p, hp, hid, hrest, hprov⟩ := h
  obtain ⟨p', hp', hid', hrest', hprov', -⟩ := ht.payments p hp
  exact ⟨ht.charges hrow, p', hp', hid'.trans hid, hrest'.trans hrest, hprov'.trans hprov⟩

section Step

variable {r : Rail} {w : World} {restaurantId paymentId : Uuid}

/-- A step ends the calls of charges that have come to an outcome, and the calls that it adds have
their rows. -/
theorem Rail.Sound.of_traced (h : r.Sound) (hw : w.Sound) (ht : Traced r.ledger.db w.db)
    (hcalls : ∀ c' ∈ w.charges, w.db.Charged c'.restaurantId c'.paymentId ∨
      ∃ c ∈ r.ledger.charges, c.paymentId = c'.paymentId ∧ c.restaurantId = c'.restaurantId)
    (hended : ∀ c ∈ r.ledger.charges, c.paymentId ∈ r.asked →
      (∃ c' ∈ w.charges, c'.paymentId = c.paymentId) ∨
      ∀ p' ∈ w.db.payments, p'.id = c.paymentId → p'.status ∈ OUTCOMES) :
    ({ r with ledger := w } : Rail).Sound := by
  refine ⟨hw, ht.unclashed h.unclashed, fun c' hc' => ?_, fun id hid => ?_,
    fun p' hp' hasked hover => ?_⟩
  · rcases hcalls c' hc' with hnew | ⟨c, hc, hid, hrest⟩
    · exact hnew
    · have hcharged := (h.calls c hc).of_traced ht
      rwa [hid, hrest] at hcharged
  · obtain ⟨restaurantId, hcharged⟩ := h.rows id hid
    exact ⟨restaurantId, hcharged.of_traced ht⟩
  · by_cases hwaits : ∃ c ∈ r.ledger.charges, c.paymentId = p'.id
    · obtain ⟨c, hc, hid⟩ := hwaits
      rcases hended c hc (hid ▸ hasked) with ⟨c', hc', hid'⟩ | hout
      · exact absurd (hid'.trans hid) (hover c' hc')
      · exact hout p' hp' hid.symm
    · -- The call was over before, and an outcome is followed by nothing but outcomes.
      obtain ⟨-, -, p, hp, hpid, -⟩ := h.rows p'.id hasked
      have hbefore := h.ended p hp (hpid ▸ hasked) fun c hc hid => hwaits ⟨c, hc, hid.trans hpid⟩
      obtain ⟨p'', hp'', hid'', -, -, -, hstatus⟩ := ht.payments p hp
      obtain rfl : p'' = p' := Table.eq_of_key hp'' hp' (hid''.trans hpid)
      rcases hstatus with hsame | hout
      · rw [hsame]
        exact hbefore
      · exact hout

/-- A step that leaves the calls of `createC2PPayment` as they are. -/
theorem Rail.Sound.of_same_calls (h : r.Sound) (hw : w.Sound) (ht : Traced r.ledger.db w.db)
    (hcharges : w.charges = r.ledger.charges) : ({ r with ledger := w } : Rail).Sound :=
  h.of_traced hw ht (fun c hc => .inr ⟨c, hcharges ▸ hc, rfl, rfl⟩)
    fun c hc _ => .inl ⟨c, hcharges ▸ hc, rfl⟩

/-- A step that ends one call, with an outcome if the bank was asked for the charge. -/
theorem Rail.Sound.of_dropped (h : r.Sound) (hw : w.Sound) (ht : Traced r.ledger.db w.db)
    (hcharges : w.charges = (r.ledger.dropCharge paymentId).charges)
    (hout : ∀ c ∈ r.ledger.charges, c.paymentId = paymentId → paymentId ∈ r.asked →
      ∀ p ∈ w.db.payments, p.id = paymentId → p.status ∈ OUTCOMES) :
    ({ r with ledger := w } : Rail).Sound := by
  refine h.of_traced hw ht (fun c' hc' => .inr ⟨c', ?_, rfl, rfl⟩) fun c hc hasked => ?_
  · rw [hcharges] at hc'
    exact (List.mem_filter.mp hc').1
  · by_cases hid : c.paymentId = paymentId
    · right
      rw [hid]
      exact hout c hc hid (hid ▸ hasked)
    · left
      refine ⟨c, ?_, rfl⟩
      rw [hcharges]
      exact List.mem_filter.mpr ⟨hc, by simpa using hid⟩

/-! ### The calls of `createC2PPayment` -/

theorem submitCharge_charged {s s' : Db} {now : Time} {q : ChargeRequest} {row : Payment}
    (h : (submitCharge paymentId now q).run s = .ok row s') :
    s'.Charged q.restaurantId row.id := by
  obtain ⟨-, hrow, -, hfl, hrest, -⟩ := submitCharge_effect h
  refine ⟨?_, row, hrow, rfl, hrest, hfl.2.2⟩
  unfold submitCharge at h
  simp only [Tx.bind_ok, Tx.orThrow_ok, Tx.withTransaction_ok, Tx.pure_ok] at h
  obtain ⟨_, _, -, _, _, -, _, _, -, _, _, -, _, _, hins, rfl, rfl⟩ := h
  obtain ⟨charges, hcharges, rfl⟩ := insertCharge_ok hins
  exact List.mem_map_of_mem ((Table.mem_insert? hcharges).mpr (.inr rfl))

theorem Rail.Sound.submitCharge (h : r.Sound) (now : Time) (q : ChargeRequest) :
    ({ r with ledger := (LedgerOp.step r.ledger (.submitCharge paymentId now q)).1 } : Rail).Sound := by
  have hw := (h.ledger.fair_step (.submitCharge paymentId now q)).sound
  have ht := traced_step r.ledger (.submitCharge paymentId now q)
  simp only [LedgerOp.step] at hw ht ⊢
  cases hrun : (Splite.submitCharge paymentId now q).run r.ledger.db with
  | ok row db =>
    rw [hrun] at hw ht
    refine h.of_traced hw ht (fun c hc => ?_) fun c hc _ => .inl ⟨c, List.mem_append_left _ hc, rfl⟩
    rcases List.mem_append.mp hc with hc | hc
    · exact .inr ⟨c, hc, rfl, rfl⟩
    · obtain rfl := List.mem_singleton.mp hc
      exact .inl (submitCharge_charged hrun)
  | error err db =>
    rw [hrun] at hw ht
    exact h.of_same_calls hw ht rfl

/-- The row of a call, which its restaurant can move. -/
theorem Rail.Sound.find_call (h : r.Sound) {c : ChargeCall} (hc : c ∈ r.ledger.charges) :
    ∃ p, r.ledger.db.payment? c.restaurantId c.paymentId = some p ∧ p.InFlight := by
  obtain ⟨p, hp, hfl, -⟩ := h.ledger.find_charge hc
  obtain ⟨-, q, hq, hid, hrest, -⟩ := h.calls c hc
  obtain rfl : q = p := Table.eq_of_key hq (Table.find?_mem hp) (hid.trans (Table.find?_key hp).symm)
  exact ⟨q, payment?_eq_some.mpr ⟨hp, hrest⟩, hfl⟩

/-- The database after a call has moved its charge, however its failure would be answered. -/
theorem Rail.Sound.moveTo_status (h : r.Sound) {c : ChargeCall} (hc : c ∈ r.ledger.charges)
    (toStatus : PaymentStatus) (reason : String) (hto : toStatus ∈ [.inDoubt, .ambiguous, .failed]) :
    ∃ m s', (moveTo c.restaurantId c.paymentId toStatus reason).run r.ledger.db = .ok m s' ∧
      ∀ p ∈ s'.payments, p.id = c.paymentId → p.status ∈ OUTCOMES := by
  obtain ⟨p, hp, hfl⟩ := h.find_call hc
  obtain ⟨m, s', hrun⟩ := transition_commits toStatus (some reason) h.unclashed hp hfl.1
    (hfl.2.2 ▸ rfl) hto
  refine ⟨m, s', Tx.withTransaction_ok.mpr hrun, fun q hq hid => ?_⟩
  rw [status_of_transition hrun hq hid]
  revert hto
  cases toStatus <;> decide

/-- The bank rejected the charge, for whatever reason. -/
theorem Rail.Sound.of_failed (h : r.Sound) {c : ChargeCall} (hc : c ∈ r.ledger.charges)
    {reason : String}
    (hw : ((r.ledger.dropCharge c.paymentId).transact
      (moveTo c.restaurantId c.paymentId .failed reason)).1.Sound)
    (ht : Traced r.ledger.db ((r.ledger.dropCharge c.paymentId).transact
      (moveTo c.restaurantId c.paymentId .failed reason)).1.db) :
    ({ r with ledger := ((r.ledger.dropCharge c.paymentId).transact
      (moveTo c.restaurantId c.paymentId .failed reason)).1 } : Rail).Sound := by
  obtain ⟨m, s', hrun, hout⟩ := h.moveTo_status hc .failed reason (by decide)
  revert hw ht
  unfold World.transact
  rw [show (r.ledger.dropCharge c.paymentId).db = r.ledger.db from rfl, hrun]
  intro hw ht
  exact h.of_dropped hw ht rfl fun _ _ _ _ => hout

/-- A call that has an approval to park is not over. -/
theorem Rail.Sound.setParking (h : r.Sound) (parking : Parking) :
    ({ r with ledger := r.ledger.setParking paymentId parking } : Rail).Sound := by
  have hids : ∀ c : ChargeCall,
      (if c.paymentId = paymentId then { c with parking := some parking } else c).paymentId =
        c.paymentId ∧
      (if c.paymentId = paymentId then { c with parking := some parking } else c).restaurantId =
        c.restaurantId := by
    intro c
    split <;> exact ⟨rfl, rfl⟩
  refine h.of_traced (h.ledger.set_parking _ _) (refl_of Traced _) (fun c' hc' => ?_)
    fun c hc _ => .inl ⟨_, List.mem_map_of_mem hc, (hids c).1⟩
  obtain ⟨c, hc, rfl⟩ := List.mem_map.mp hc'
  exact .inr ⟨c, hc, (hids c).1.symm, (hids c).2.symm⟩

theorem status_of_settleApproved {s s' : Db} {billId : Uuid} {amount : Int}
    {reference : Option String} {now : Time} {v : SettlementView} {p : Payment}
    (h : (settleApproved restaurantId billId paymentId amount reference now).run s = .ok v s')
    (hp : p ∈ s'.payments) (hid : p.id = paymentId) : p.status = .succeeded := by
  unfold settleApproved at h
  simp only [Tx.withTransaction_ok, Tx.bind_ok, Tx.pure_ok] at h
  obtain ⟨_, _, -, _, _, -, _, s₃, hmove, _, _, htouch, -, rfl⟩ := h
  obtain ⟨charges, -, rfl⟩ := touchCharge_ok htouch
  exact status_of_transition hmove hp hid

/-- The reply of the bank: the charge comes to an outcome, or its approval is to be parked. -/
theorem Rail.Sound.afterReply (h : r.Sound) {c : ChargeCall} (hc : c ∈ r.ledger.charges) (now : Time)
    (reply : Except ChargeError ChargeResult) :
    ({ r with ledger := (r.ledger.afterReply c now reply).1 } : Rail).Sound := by
  have hw := (h.ledger.fair_afterReply hc now reply).sound
  have ht := ledger_traced.afterReply (w := r.ledger) c now reply
  revert hw ht
  unfold World.afterReply
  split
  · intro hw ht
    obtain ⟨m, s', hrun, hout⟩ := h.moveTo_status hc .inDoubt
      "Mercantil returned no conclusive response" (by decide)
    refine h.of_dropped hw ht rfl fun _ _ _ _ p hp hid => hout p ?_ hid
    rwa [← Tx.exec_of_ok hrun]
  · intro hw ht
    exact h.of_failed hc hw ht
  · intro hw ht
    exact h.of_failed hc hw ht
  · simp only
    split
    · rename_i hrun
      intro hw ht
      refine h.of_dropped hw ht rfl fun _ _ _ _ p hp hid => ?_
      rw [status_of_settleApproved hrun hp hid]
      decide
    · rename_i hrun
      obtain rfl := atomic_tx _ _ _ _ hrun
      intro hw ht
      exact h.setParking _

theorem World.transact_charges {α : Type} (w : World) (x : Tx Err Db α) :
    (w.transact x).1.charges = w.charges := by
  unfold World.transact
  split <;> rfl

theorem World.afterDecision_charges (w : World) (c : ResolveCall) (found : Mercantil.Match)
    (now : Time) :
    (w.afterDecision c found now).1.charges = w.charges := by
  unfold World.afterDecision
  split
  · rfl
  · split <;> rfl

/-- The steps of `createC2PPayment`. -/
def LedgerOp.isCharge : LedgerOp → Bool
  | .submitCharge .. | .bankReplies .. | .parkCharge .. => true
  | _ => false

theorem charges_step (w : World) (op : LedgerOp) (hop : op.isCharge = false) :
    (op.step w).1.charges = w.charges := by
  cases op with
  | submitCharge => cases hop
  | bankReplies => cases hop
  | parkCharge => cases hop
  | resolveCharge =>
    simp only [LedgerOp.step]
    split
    · split <;> rfl
    · rfl
  | expireResolution =>
    simp only [LedgerOp.step]
    split
    · exact World.transact_charges (w.dropResolve _) _
    · rfl
  | settleResolution =>
    simp only [LedgerOp.step]
    split
    · exact World.afterDecision_charges w _ _ _
    · rfl
  | bankShows | bankUnreachable | parkResolution =>
    simp only [LedgerOp.step]
    split <;> rfl
  | _ => exact World.transact_charges w _

theorem Rail.Sound.parkCharge (h : r.Sound) {now : Time}
    (hwrites : r.Writes (.ledger (.parkCharge paymentId now))) :
    ({ r with ledger := (LedgerOp.step r.ledger (.parkCharge paymentId now)).1 } : Rail).Sound := by
  have hw := (h.ledger.fair_step (.parkCharge paymentId now)).sound
  have ht := traced_step r.ledger (.parkCharge paymentId now)
  revert hw ht
  simp only [LedgerOp.step]
  split
  · rename_i id restaurantId billId amount parking hfind
    intro hw ht
    have hid := List.find?_some hfind
    simp only [decide_eq_true_eq] at hid
    subst hid
    have hc := List.mem_of_find?_eq_some hfind
    obtain ⟨p, hp, hfl⟩ := h.find_call hc
    obtain ⟨s', hrun⟩ := parkUnappliable_commits now h.unclashed hp hfl.1 hfl.2.2
      (hwrites _ hc rfl parking rfl)
    refine h.of_dropped hw ht rfl fun _ _ _ _ q hq hqid => ?_
    rw [status_of_parkUnappliable hrun (Tx.exec_of_ok hrun ▸ hq) hqid]
    decide
  · exact fun _ _ => h

/-- A step of the ledger, after which no approval collides where it is parked. -/
theorem Rail.Sound.ledgerStep (h : r.Sound) (op : LedgerOp) (hwrites : r.Writes (.ledger op)) :
    ({ r with ledger := (op.step r.ledger).1 } : Rail).Sound := by
  cases hop : op.isCharge with
  | false =>
    exact h.of_same_calls (h.ledger.fair_step op).sound (traced_step _ op) (charges_step _ op hop)
  | true =>
    cases op with
    | submitCharge paymentId now q => exact h.submitCharge now q
    | bankReplies paymentId now reply =>
      simp only [LedgerOp.step]
      split
      · rename_i c hc
        exact h.afterReply (List.mem_of_find?_eq_some hc) now reply
      · exact h
    | parkCharge paymentId now => exact h.parkCharge hwrites
    | _ => cases hop

/-- A call that ends before it has asked the bank. -/
theorem Rail.Sound.dropCharge (h : r.Sound)
    (hout : ∀ c ∈ r.ledger.charges, c.paymentId = paymentId → paymentId ∉ r.asked) :
    ({ r with ledger := r.ledger.dropCharge paymentId } : Rail).Sound :=
  h.of_dropped (h.ledger.drop (.refl _ _)) (refl_of Traced _) rfl
    fun c hc hid hasked => absurd hasked (hout c hc hid)

/-- What every step keeps, as long as no call that has asked the bank is cut short: one case for
each. -/
theorem Rail.Sound.step (h : r.Sound) (op : RailOp) (hwrites : r.Writes op) :
    (rail.step r op).1.Sound := by
  cases op with
  | ledger op =>
    simp only [rail, RailOp.step]
    split
    · exact h
    · exact h.ledgerStep op hwrites
  | askBank paymentId =>
    simp only [rail, RailOp.step]
    split
    · rename_i c hfind
      have hc := List.mem_of_find?_eq_some hfind
      have hid : c.paymentId = paymentId := by
        have := List.find?_some hfind
        simp only [decide_eq_true_eq] at this
        exact this.1
      refine ⟨h.ledger, h.unclashed, h.calls, fun id hasked => ?_, fun p hp hasked hover => ?_⟩
      · rcases List.mem_cons.mp hasked with rfl | hasked
        · exact ⟨c.restaurantId, hid ▸ h.calls c hc⟩
        · exact h.rows id hasked
      · rcases List.mem_cons.mp hasked with hpid | hasked
        · exact absurd (hid.trans hpid.symm) (hover c hc)
        · exact h.ended p hp hasked hover
    · exact h
  | crash paymentId =>
    exact h.dropCharge fun c hc hid hasked => hwrites hasked c hc hid
  | replyLost paymentId reply err =>
    simp only [rail, RailOp.step]
    split
    · rename_i c hfind
      split
      · exact h
      · rcases hwrites with ⟨providerPaymentId, bankReference, rfl⟩ | hparking
        · exact h.setParking _
        · -- The call waits for its reply, so it has nothing to park yet.
          have hc := List.find?_some hfind
          simp only [decide_eq_true_eq] at hc
          have hsome := hparking c (List.mem_of_find?_eq_some hfind) hc.1
          rw [Option.isNone_iff_eq_none] at hc
          rw [hc.2] at hsome
          cases hsome
    · exact h
  | parkLost paymentId =>
    simp only [rail, RailOp.step]
    split
    · rename_i id restaurantId billId amount parking hfind
      have hid := List.find?_some hfind
      simp only [decide_eq_true_eq] at hid
      have hnone := hwrites _ (List.mem_of_find?_eq_some hfind) hid
      cases hnone
    · exact h
  | resolveLost callId =>
    exact h.of_same_calls (h.ledger.drop_resolve (.refl _ _)) (refl_of Traced _) rfl

/-- A charge in doubt is found by `resolveC2PPayment`, which goes on with it. -/
theorem Rail.Sound.acts {p : Payment} (h : r.Sound) (hp : p ∈ r.ledger.db.payments)
    (hasked : p.id ∈ r.asked) (hdoubt : p.status = .inDoubt) :
    r.ledger.Acts p.restaurantId p.id := by
  intro callId now actorUserId
  obtain ⟨restaurantId, hrow, q, hq, hqid, -, hprov⟩ := h.rows p.id hasked
  obtain rfl : q = p := Table.eq_of_key hq hp hqid
  obtain ⟨charge, hcharge, hid⟩ := List.mem_map.mp hrow
  have hfind : r.ledger.db.payments.find? q.id = some q := Table.find?_eq_some.mpr ⟨hp, rfl⟩
  have hfound : r.ledger.db.payment? q.restaurantId q.id = some q :=
    payment?_eq_some.mpr ⟨hfind, rfl⟩
  have hread := readCharge_commits hfound (Table.find?_eq_some.mpr ⟨hcharge, hid⟩)
  refine ⟨q.snapshot charge, rfl, ?_, ?_⟩
  · simp only [LedgerOp.step, hread]
    have hstatus : (q.snapshot charge).status = .inDoubt := hdoubt
    rw [if_neg (not_not.mpr hstatus)]
  · obtain ⟨s', hrun⟩ := expireResolution_commits (c := q.snapshot charge) now actorUserId h.unclashed
      hfound hdoubt (hprov ▸ rfl)
    exact ⟨s', hrun, fun q hq hqid => status_of_expireResolution hrun hq hqid⟩

end Step

/-! ## Whole runs -/

/-- As long as no call that has asked the bank is cut short, `resolveC2PPayment` acts on every charge
that the bank was asked for, whose call is over and that has no end, and `listUnresolved` shows it:
after every run from a database with its indexes, with no call waiting. -/
theorem charges_resolvable (db : Db) (h : db.Opened) (hunclashed : db.Unclashed) (ops : List RailOp)
    (hw : rail.Every Rail.Writes (.start db) ops) : (rail.run (.start db) ops).Resolvable := by
  have hsound : (rail.run (.start db) ops).Sound :=
    Machine.invariant (fun _ op h hw => Rail.Sound.step h op hw) (Rail.Sound.start h hunclashed) hw
  intro p hp hasked hover hopen
  have hdoubt : p.status = .inDoubt := by
    have hout := hsound.ended p hp hasked hover
    revert hout hopen
    cases p.status <;> decide
  refine ⟨hsound.acts hp hasked hdoubt, fun now => List.mem_filter.mpr ⟨hp, ?_⟩⟩
  obtain ⟨restaurantId, hrow, -⟩ := hsound.rows p.id hasked
  obtain ⟨charge, hcharge, hid⟩ := List.mem_map.mp hrow
  have hfind := Table.find?_eq_some.mpr ⟨hcharge, hid⟩
  simp [hfind, hdoubt]

/-- A charge in doubt, with another whose call ends before the bank was asked. -/
theorem evening_resolvable :
    let r := rail.run (.start evening)
      [ .ledger (.submitCharge 21 0
          { restaurantId := 1, billId := 10, amountVes := some 40,
            payer := ⟨"0105", "V1", "04141234567", "1"⟩ }),
        .askBank 21,
        .ledger (.submitCharge 22 0
          { restaurantId := 1, billId := 12, amountVes := some 30,
            payer := ⟨"0105", "V2", "04149876543", "2"⟩ }),
        .ledger (.bankReplies 21 5 (.error (.c2p .bankIndeterminate ""))),
        .crash 22 ]
    (r.ledger.db.payments.rows.map fun p => (p.id, p.status)) = [(21, .inDoubt), (22, .pending)] ∧
      r.Resolvable := by
  refine ⟨by decide +kernel, charges_resolvable evening evening_opened (by decide) _ ?_⟩
  exact ⟨trivial, trivial, trivial, trivial, fun h => absurd h (by decide +kernel), trivial⟩

/-- The bank's answer to a charge is inconclusive, and so is the write of it: the charge is left
`PENDING`, `resolveC2PPayment` answers that it is resolved already, and `listUnresolved` shows it. -/
theorem evening_stranded :
    let r := rail.run (.start evening)
      [ .ledger (.submitCharge 21 0
          { restaurantId := 1, billId := 10, amountVes := some 40,
            payer := ⟨"0105", "V1", "04141234567", "1"⟩ }),
        .askBank 21,
        .replyLost 21 (.error (.c2p .bankIndeterminate "")) (.error "Connection terminated") ]
    (r.ledger.db.payments.rows.map fun p => (p.id, p.status)) = [(21, .pending)] ∧
      21 ∈ r.asked ∧ (∀ c ∈ r.ledger.charges, c.paymentId ≠ 21) ∧
      ((listUnresolved r.ledger.db 1 50 1000000).map Payment.id) = [21] ∧
      ¬r.ledger.Acts 1 21 ∧ ¬r.Resolvable := by
  intro r
  have hpay : ∃ p ∈ r.ledger.db.payments, p.id = 21 ∧ p.restaurantId = 1 ∧ p.status = .pending := by
    decide +kernel
  have hover : ∀ c ∈ r.ledger.charges, c.paymentId ≠ 21 := by decide +kernel
  have hasked : 21 ∈ r.asked := by decide +kernel
  have hacts : ¬r.ledger.Acts 1 21 := by
    intro h
    obtain ⟨c, -, hstep, -⟩ := h 40 1000000 none
    have hsame : (LedgerOp.step r.ledger (.resolveCharge 40 1000000 1 21 none)).1.resolves.length =
        0 := by
      decide +kernel
    rw [hstep] at hsame
    simp at hsame
  refine ⟨by decide +kernel, hasked, hover, by decide +kernel, hacts, fun h => ?_⟩
  obtain ⟨p, hp, hid, hrest, hpending⟩ := hpay
  have hopen : p.status ∉ [.ambiguous, .succeeded, .failed] := by
    rw [hpending]
    decide
  have hp21 := (h p hp (hid ▸ hasked) (hid ▸ hover) hopen).1
  rw [hid, hrest] at hp21
  exact hacts hp21

end Splite
