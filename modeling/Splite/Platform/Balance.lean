import Splite.Platform.Charges

/-!
# What is owed, in bolívares (`services/subscriptionNotices.js`, `services/platformBilling.js`)

The owner is shown what is left of an open charge at the rate of the day, and pays that many bolívares.
The payment is recorded at the same rate.

* `divideByRate_applyRate`: at a rate of at least one bolívar a dollar, the dollars come back.
* `shown_settles`: so the payment of what is shown settles the charge.
-/

namespace Splite

/-! ## There and back -/

section Rates

variable {m m' r r' v v' : Int} {label label' : String}

theorem divideByRate_applyRate (hm : 0 ≤ m) (hr : RATE_SCALE ≤ r)
    (h : applyRate m r label = .ok v) : divideByRate v r label' = .ok m := by
  have hscale : 0 < RATE_SCALE := by decide
  have hv := applyRate_eq_ok h
  unfold applyRate at h
  obtain ⟨w, hdiv, hrange⟩ := Except.bind_eq_ok.mp h
  obtain ⟨-, rfl⟩ := divideRound_eq_ok.mp hdiv
  have hback : divideRound (v * RATE_SCALE) r = .ok m := by
    refine divideRound_eq_ok.mpr ⟨by omega, ?_⟩
    rw [hv, roundHalfAway_round_trip hm hscale hr]
  -- What comes back is not more than what was in range.
  have hle : m ≤ roundHalfAway (m * r) RATE_SCALE := le_roundHalfAway_mul hm hscale hr
  unfold divideByRate
  exact Except.bind_eq_ok.mpr ⟨m, hback, assertInRange_of_le hm hle ⟨v, hrange⟩⟩

theorem applyRate_mono (hr : 0 ≤ r) (hle : m ≤ m') (h : applyRate m r label = .ok v)
    (h' : applyRate m' r label' = .ok v') : v ≤ v' := by
  rw [applyRate_eq_ok h, applyRate_eq_ok h']
  exact roundHalfAway_mono (by decide) (mul_le_mul_of_nonneg_right hle hr)

theorem applyRate_mono_rate (hm : 0 ≤ m) (hle : r ≤ r') (h : applyRate m r label = .ok v)
    (h' : applyRate m r' label' = .ok v') : v ≤ v' := by
  rw [applyRate_eq_ok h, applyRate_eq_ok h']
  exact roundHalfAway_mono (by decide) (mul_le_mul_of_nonneg_left hle hm)

end Rates

/-! ## What is shown -/

/-- `remainingUsd` of `chargeView(row)`. -/
def SubscriptionCharge.remainingUsd (charge : SubscriptionCharge) (appliedUsd : Int) : Int :=
  if charge.status = .open ∧ charge.amountUsd > appliedUsd then charge.amountUsd - appliedUsd else 0

/-- `toVes(usdMinor, rate)`; there may be no rate. -/
def Notices.toVes (usdMinor : Int) (rate : Option Int) : Except Err (Option Int) :=
  match rate with
  | none => .ok none
  | some rate => do return some (← applyRate usdMinor (← parseRate rate) "Converted amount")

/-- `remainingVesToday` of a charge that `forRestaurant` lists. -/
def ChargeBook.remainingVesToday (b : ChargeBook) (rate : Option Int) : Except Err (Option Int) :=
  if b.charge.status = .open then Notices.toVes (b.charge.remainingUsd b.appliedUsd) rate else .ok none

/-- The payment of so many bolívares on a charge, at a rate. -/
def SubscriptionCharge.inVes (charge : SubscriptionCharge) (amount rate : Int) (settle : Bool) :
    PaymentInput :=
  ⟨some charge.id, .ves, amount, some rate, settle⟩

section Shown

variable {b b' : ChargeBook} {rate v applied : Int} {settle : Bool}

theorem SubscriptionCharge.remainingUsd_nonneg {charge : SubscriptionCharge} {appliedUsd : Int} :
    0 ≤ charge.remainingUsd appliedUsd := by
  unfold SubscriptionCharge.remainingUsd
  split <;> omega

theorem ChargeBook.le_remainingUsd (h : b.charge.status = .open) :
    b.charge.amountUsd ≤ b.appliedUsd + b.charge.remainingUsd b.appliedUsd := by
  unfold SubscriptionCharge.remainingUsd
  by_cases hleft : b.charge.amountUsd > b.appliedUsd
  · rw [if_pos ⟨h, hleft⟩]
    omega
  · rw [if_neg fun hand => hleft hand.2]
    omega

/-- A charge is shown while it is open, converted at the rate. -/
theorem remainingVesToday_eq_some (h : b.remainingVesToday (some rate) = .ok (some v)) :
    b.charge.status = .open ∧
      applyRate (b.charge.remainingUsd b.appliedUsd) rate "Converted amount" = .ok v := by
  unfold ChargeBook.remainingVesToday at h
  split at h
  · rename_i hopen
    unfold Notices.toVes at h
    dsimp only at h
    obtain ⟨r, hrate, hconvert⟩ := Except.bind_eq_ok.mp h
    obtain ⟨w, happly, hshown⟩ := Except.bind_eq_ok.mp hconvert
    obtain ⟨-, rfl⟩ := parseRate_eq_ok hrate
    obtain rfl : w = v := Option.some.inj (Except.pure_eq_ok.mp hshown)
    exact ⟨hopen, happly⟩
  · cases h

/-- The payment of what is shown takes off exactly what is left. -/
theorem preparePayment_shown (hr : RATE_SCALE ≤ rate)
    (h : b.remainingVesToday (some rate) = .ok (some v)) :
    preparePayment (b.charge.inVes v rate settle) = .ok (b.charge.remainingUsd b.appliedUsd) := by
  obtain ⟨-, happly⟩ := remainingVesToday_eq_some h
  have hpos : ¬rate ≤ 0 := by
    unfold RATE_SCALE at hr
    omega
  have hparse : parseRate rate = .ok rate := if_neg hpos
  unfold preparePayment SubscriptionCharge.inVes
  dsimp only
  rw [hparse, Except.ok_bind]
  exact divideByRate_applyRate SubscriptionCharge.remainingUsd_nonneg hr happly

/-- A payment that covers what is left is recorded and closes the charge. -/
theorem recordPaymentWith_covers {charge : SubscriptionCharge} {sum : Int} {r : Recording}
    (hopen : charge.status = .open) (hown : charge.restaurantId = r.restaurantId)
    (hamount : 0 < r.input.amount) (happlied : 0 ≤ r.applied)
    (hcovers : charge.amountUsd ≤ sum + r.applied) :
    ∃ payment, recordPaymentWith charge sum r = .ok payment ∧ payment.closedCharge = true ∧
      payment.chargeId = some charge.id ∧ payment.appliedUsd = r.applied := by
  have htakes : charge.takes r.restaurantId = .ok () := by
    simp [SubscriptionCharge.takes, Except.require, hown, hopen]
  have hvalid : r.valid = .ok () := by simp [Recording.valid, Except.require, hamount, happlied]
  unfold recordPaymentWith
  rw [htakes, hvalid, Except.ok_bind, Except.ok_bind]
  refine ⟨_, rfl, ?_, rfl, rfl⟩
  simp [hcovers]

end Shown

/-! ## The call that records it -/

/-- The statements of `recordPayment`, with no other call beside it. -/
def recordAlone (b : ChargeBook) (id : Nat) (restaurantId : Uuid) (input : PaymentInput) : ChargeBook :=
  (charges.machine.run (Sessions.start b)
    [.start id (.recordPayment restaurantId input), .go id, .go id, .go id, .go id]).committed

section Alone

variable {b : ChargeBook} {id : Nat} {restaurantId : Uuid} {input : PaymentInput} {applied : Int}

theorem recordAlone_ok {payment : SubscriptionPayment} (hprepare : preparePayment input = .ok applied)
    (hcharge : input.chargeId = some b.charge.id)
    (h : recordPaymentWith b.charge b.appliedUsd ⟨restaurantId, input, applied, none⟩ = .ok payment) :
    recordAlone b id restaurantId input = b.record payment none := by
  have hbegun : charges.next b [] (.begun (.recordPayment restaurantId input)) =
      .goes b (.lockCharge (.record ⟨restaurantId, input, applied, none⟩)) [] := by
    simp [charges, ChargePhase.next, hprepare]
  have hlock : charges.next b [] (.lockCharge (.record ⟨restaurantId, input, applied, none⟩)) =
      .goes b (.waitCharge (.record ⟨restaurantId, input, applied, none⟩) b.appliedUsd) [] := by
    simp [charges, ChargePhase.next, hcharge]
  have hwait : charges.next b []
      (.waitCharge (.record ⟨restaurantId, input, applied, none⟩) b.appliedUsd) =
      .goes b (.recorded payment input.settle none b.appliedUsd) [] := by
    simp [charges, ChargePhase.next, h]
  have hcommit : charges.next b [] (.recorded payment input.settle none b.appliedUsd) =
      .ends (b.record payment none) [] := rfl
  unfold recordAlone
  simp only [Machine.run_cons, Machine.run_nil]
  rw [Protocol.start_alone]
  change (charges.machine.step (charges.machine.step (charges.machine.step (charges.machine.step
    (.alone b id (.begun (.recordPayment restaurantId input))) (.go id)).1 (.go id)).1 (.go id)).1
      (.go id)).1.committed = _
  rw [Protocol.go_alone_goes hbegun, Protocol.go_alone_goes hlock, Protocol.go_alone_goes hwait,
    Protocol.go_alone_ends hcommit]
  rfl

/-- At a rate of at least one bolívar a dollar, conversion and its inverse give the dollars back, the
conversion is monotone, and the payment of the bolívares shown for an open charge, recorded at the rate
that they were shown at and whatever else was paid since, covers the charge and closes it. -/
theorem shown_settles :
    (∀ (m r v : Int) (label label' : String), 0 ≤ m → RATE_SCALE ≤ r →
      applyRate m r label = .ok v → divideByRate v r label' = .ok m) ∧
    (∀ (m m' r v v' : Int) (label label' : String), 0 ≤ m → m ≤ m' → RATE_SCALE ≤ r →
      applyRate m r label = .ok v → applyRate m' r label' = .ok v' → v ≤ v') ∧
    (∀ (m r r' v v' : Int) (label label' : String), 0 ≤ m → RATE_SCALE ≤ r → r ≤ r' →
      applyRate m r label = .ok v → applyRate m r' label' = .ok v' → v ≤ v') ∧
    ∀ (b b' : ChargeBook) (rate v : Int) (settle : Bool) (id : Nat), RATE_SCALE ≤ rate →
      b.remainingVesToday (some rate) = .ok (some v) → 0 < v →
      b'.charge = b.charge → b.appliedUsd ≤ b'.appliedUsd →
      let after := recordAlone b' id b.charge.restaurantId (b.charge.inVes v rate settle)
      after.charge.status = .paid ∧ after.charge.amountUsd ≤ after.appliedUsd := by
  refine ⟨fun m r v _ _ hm hr h => divideByRate_applyRate hm hr h,
    fun m m' r v v' _ _ _ hle hr h h' => applyRate_mono (le_trans (by decide) hr) hle h h',
    fun m r r' v v' _ _ hm _ hle h h' => applyRate_mono_rate hm hle h h', ?_⟩
  intro b b' rate v settle id hr hshown hv hcharge happlied after
  have hprepare : preparePayment (b.charge.inVes v rate settle) = _ := preparePayment_shown hr hshown
  obtain ⟨hopen, -⟩ := remainingVesToday_eq_some hshown
  have hcovers := ChargeBook.le_remainingUsd hopen
  obtain ⟨payment, hrecord, hclosed, hid, hsum⟩ := @recordPaymentWith_covers b'.charge b'.appliedUsd
    ⟨b.charge.restaurantId, b.charge.inVes v rate settle, b.charge.remainingUsd b.appliedUsd, none⟩
    (by rw [hcharge, hopen]) (by rw [hcharge]) hv SubscriptionCharge.remainingUsd_nonneg
    (by rw [hcharge]; dsimp only; omega)
  have hafter : after = b'.record payment none :=
    recordAlone_ok hprepare (by rw [hcharge]; rfl) hrecord
  rw [hafter, status_record, amountUsd_record, appliedUsd_record, if_pos hclosed, if_pos hid, hsum, hcharge]
  dsimp only
  exact ⟨rfl, by omega⟩

end Alone

/-- A hundred dollars at 36.5 are shown as 3650 bolívares, which settle them. -/
theorem july_shown_settles :
    (ChargeBook.created july ∅).remainingVesToday (some 3650000000) = .ok (some 365000) ∧
      (recordAlone (ChargeBook.created july ∅) 0 july.restaurantId
        (july.inVes 365000 3650000000 false)).charge.status = .paid :=
  have hshown : (ChargeBook.created july ∅).remainingVesToday (some 3650000000) =
      .ok (some 365000) := by decide +kernel
  ⟨hshown, (shown_settles.2.2.2 (ChargeBook.created july ∅) (ChargeBook.created july ∅) 3650000000 365000
    false 0 (by decide) hshown (by decide) rfl le_rfl).1⟩

end Splite
