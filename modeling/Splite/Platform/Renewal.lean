import Splite.Platform.Charges
import Mathlib.Data.List.MinMax

/-!
# Renewal (`services/billingRun.js`, `createCharge` of `services/platformBilling.js`)

Passes of `renew` beside each other and beside charges and voids by hand, statement by statement. A
pass picks the restaurants that are due with one query, and creates each charge in a transaction that
locks the restaurant and begins where the latest charge of then ends.

* `renewalRule`: what a pass has read stays true until its charge is committed.
* `renewed_when_due`: when a renewal does not bill ahead.
* `staysDue_of_serial`: calls that do not overlap do not.
-/

namespace Splite

inductive PlanTier where
  | trial
  | starter
  | pro
  | enterprise
  deriving DecidableEq, Repr

def PlanTier.text : PlanTier → String
  | .trial => "TRIAL"
  | .starter => "STARTER"
  | .pro => "PRO"
  | .enterprise => "ENTERPRISE"

inductive BillingCycle where
  | monthly
  | annual
  deriving DecidableEq, Repr

def BillingCycle.text : BillingCycle → String
  | .monthly => "MONTHLY"
  | .annual => "ANNUAL"

/-- The months of a period. -/
def BillingCycle.months : BillingCycle → Nat
  | .monthly => 1
  | .annual => 12

theorem BillingCycle.months_pos (cycle : BillingCycle) : 0 < cycle.months := by
  cases cycle <;> decide

inductive SubscriptionStatus where
  | active
  | suspended
  | cancelled
  deriving DecidableEq, Repr

/-- A restaurant with its subscription, as the queries join them. -/
structure BillingClient where
  id : Uuid
  planTier : PlanTier
  billingCycle : BillingCycle
  customPriceUsd : Option Int
  status : SubscriptionStatus
  deriving DecidableEq, Repr

/-- A row of `plan_prices`. -/
structure PlanPrice where
  tier : PlanTier
  billingCycle : BillingCycle
  amountUsd : Int
  effectiveFrom : Day
  deriving DecidableEq, Repr

instance : Keyed BillingClient Uuid := ⟨BillingClient.id⟩

/-- What is committed; `today` is the day in Caracas, and `nextId` the next random id. -/
structure BillingDb where
  today : Day
  clients : Table BillingClient
  prices : List PlanPrice
  charges : List SubscriptionCharge
  nextId : Uuid

namespace BillingDb

/-- The charges of a restaurant that are not void. -/
def live (b : BillingDb) (restaurantId : Uuid) : List SubscriptionCharge :=
  b.charges.filter fun c => c.restaurantId = restaurantId ∧ c.status ≠ .void

/-- `SELECT period_end … ORDER BY period_end DESC LIMIT 1`, and `max(c.period_end)`. -/
def latestEnd (b : BillingDb) (restaurantId : Uuid) : Option Day :=
  ((b.live restaurantId).map (·.periodEnd)).max?

/-- The restaurants that the query of `renew` selects. -/
def due (b : BillingDb) (today : Day) : List Uuid :=
  (b.clients.rows.filter fun r => r.planTier ≠ .trial ∧ r.status = .active ∧
    ∃ last ∈ b.latestEnd r.id, last ≤ today).map (·.id)

/-- `listPrice(client, tier, cycle, onDate)`. -/
def listPrice (b : BillingDb) (tier : PlanTier) (cycle : BillingCycle) (onDate : Day) : Option Int :=
  ((b.prices.filter fun p => p.tier = tier ∧ p.billingCycle = cycle ∧ p.effectiveFrom ≤ onDate).argmax
    (·.effectiveFrom)).map (·.amountUsd)

/-- What a period that begins at `start` costs a restaurant. -/
def amount (b : BillingDb) (client : BillingClient) (start : Day) : Option Int :=
  match client.customPriceUsd with
  | some price => some price
  | none => if client.planTier = .trial then none else b.listPrice client.planTier client.billingCycle start

/-- A charge is committed. -/
def insert (b : BillingDb) (charge : SubscriptionCharge) : BillingDb :=
  { b with charges := b.charges ++ [{ charge with id := b.nextId }], nextId := b.nextId + 1 }

def edit (b : BillingDb) (client : BillingClient) : BillingDb :=
  { b with
    clients := b.clients.update client.id (fun r => { client with id := r.id }) fun _ => rfl }

/-- A charge that is open is voided. -/
def void (b : BillingDb) (chargeId : Uuid) : BillingDb :=
  { b with charges := b.charges.map fun c =>
      if c.id = chargeId ∧ c.status = .open then { c with status := .void } else c }

end BillingDb

/-! ## Passes and charges -/

def MAX_CATCH_UP : Nat := 12

/-- Where a pass is: the restaurant of now, how many charges of it have been created, and the
restaurants that are left. -/
structure Pass where
  today : Day
  restaurantId : Uuid
  created : Nat
  left : List Uuid
  deriving DecidableEq, Repr

/-- The pass goes on with the next restaurant. -/
def Pass.next? (p : Pass) : Option Pass :=
  match p.left with
  | [] => none
  | r :: left => some { p with restaurantId := r, created := 0, left }

/-- The pass goes on once it has created a charge: with another one of the restaurant when that does not
come up to today. -/
def Pass.after? (p : Pass) (charge : SubscriptionCharge) : Option Pass :=
  if p.today < charge.periodEnd then p.next?
  else if p.created + 1 < MAX_CATCH_UP then some { p with created := p.created + 1 }
  else p.next?

/-- Who calls `createCharge`: a person, perhaps with the start of the period, or a pass. -/
inductive Caller where
  | person (restaurantId : Uuid) (periodStart : Option Day)
  | pass (p : Pass)
  deriving DecidableEq, Repr

def Caller.restaurantId : Caller → Uuid
  | .person restaurantId _ => restaurantId
  | .pass p => p.restaurantId

def Caller.periodStart : Caller → Option Day
  | .person _ periodStart => periodStart
  | .pass _ => none

inductive BillingCall where
  | renew (today : Day)
  | createCharge (restaurantId : Uuid) (periodStart : Option Day)
  | voidCharge (chargeId : Uuid)
  /-- Another day begins. -/
  | dawn
  /-- Somebody edits a subscription or the price list. -/
  | edit (client : BillingClient)
  | price (price : PlanPrice)
  deriving DecidableEq, Repr

/-- The next statement. -/
inductive BillingPhase where
  /-- The query of `renew`, or all of a call that is one statement. -/
  | begun (call : BillingCall)
  /-- `SELECT … FOR UPDATE OF r`. -/
  | lockRestaurant (caller : Caller)
  | readLast (caller : Caller) (client : BillingClient)
  | readPrice (caller : Caller) (client : BillingClient) (start : Day)
  | insertCharge (caller : Caller) (charge : SubscriptionCharge)
  /-- The charge is written; `COMMIT`. -/
  | inserted (caller : Caller) (charge : SubscriptionCharge)
  deriving DecidableEq, Repr

/-- It has locked the row of the restaurant. -/
def BillingPhase.holds (restaurantId : Uuid) : BillingPhase → Bool
  | .readLast caller _ | .readPrice caller _ _ | .insertCharge caller _ | .inserted caller _ =>
    caller.restaurantId = restaurantId
  | _ => false

/-- A charge that is created, with the day of the pass that creates it, or an error. -/
inductive BillingEvent where
  | created (pass : Option Day) (charge : SubscriptionCharge)
  | failed (err : Err)
  deriving DecidableEq, Repr

/-- A pass goes on, if there is more to do. -/
def renewing (b : BillingDb) (answer : List BillingEvent) :
    Option Pass → Advance BillingDb BillingPhase BillingEvent
  | none => .ends b answer
  | some p => .goes b (.lockRestaurant (.pass p)) answer

/-- `createCharge` throws, and a pass skips the restaurant. -/
def Caller.fails (caller : Caller) (b : BillingDb) (err : Err) :
    Advance BillingDb BillingPhase BillingEvent :=
  match caller with
  | .person _ _ => .ends b [.failed err]
  | .pass p => renewing b [.failed err] p.next?

def priceMissing (client : BillingClient) : Err :=
  .api .subscriptionPriceMissing
    "There is no price for this plan and cycle, and no agreed price for this restaurant"
    [("tier", client.planTier.text), ("billingCycle", client.billingCycle.text)]

/-- The next statement, beside the other calls. -/
def BillingPhase.next (b : BillingDb) (others : List BillingPhase) :
    BillingPhase → Advance BillingDb BillingPhase BillingEvent
  | .begun (.renew today) =>
    match b.due today with
    | [] => .ends b []
    | r :: left => .goes b (.lockRestaurant (.pass ⟨today, r, 0, left⟩)) []
  | .begun (.createCharge restaurantId periodStart) =>
    .goes b (.lockRestaurant (.person restaurantId periodStart)) []
  | .begun (.voidCharge chargeId) => .ends (b.void chargeId) []
  | .begun .dawn => .ends { b with today := b.today.next } []
  | .begun (.edit client) => .ends (b.edit client) []
  | .begun (.price price) => .ends { b with prices := b.prices ++ [price] } []
  | .lockRestaurant caller =>
    if others.any (BillingPhase.holds caller.restaurantId) then .waits
    else
      match b.clients.find? caller.restaurantId with
      | none => caller.fails b (.api .restaurantNotFound "Restaurant not found" [])
      | some client => .goes b (.readLast caller client) []
  | .readLast caller client =>
    .goes b (.readPrice caller client
      ((caller.periodStart.or (b.latestEnd caller.restaurantId)).getD b.today)) []
  | .readPrice caller client start =>
    match b.amount client start with
    | some amount =>
      if h : 0 < amount then
        .goes b (.insertCharge caller ⟨0, caller.restaurantId, start,
          start.addMonths client.billingCycle.months, amount, .open,
          start.lt_addMonths client.billingCycle.months_pos, h⟩) []
      else caller.fails b (priceMissing client)
    | none => caller.fails b (priceMissing client)
  | .insertCharge caller charge =>
    if ∃ c ∈ b.live caller.restaurantId, c.periodStart = charge.periodStart then
      caller.fails b (.api .subscriptionChargeExists "That period already has a charge"
        [("periodStart", charge.periodStart.text)])
    else .goes b (.inserted caller charge) []
  | .inserted caller charge =>
    match caller with
    | .person _ _ => .ends (b.insert charge) [.created none charge]
    | .pass p => renewing (b.insert charge) [.created (some p.today) charge] (p.after? charge)

/-- The calls about the charges of all restaurants. -/
def renewal : Protocol BillingDb BillingPhase BillingCall BillingEvent where
  start := .begun
  next := BillingPhase.next

/-! ## What a pass has read -/

/-- A period of a restaurant that a pass has begun to bill starts where its latest charge ends, and not
after the day of the pass. -/
def Caller.Due (caller : Caller) (b : BillingDb) (start : Day) : Prop :=
  ∀ p, caller = .pass p → b.latestEnd p.restaurantId = some start ∧ start ≤ p.today

/-- What a call knows from the reading of the latest charge on. -/
def BillingPhase.Sound (b : BillingDb) : BillingPhase → Prop
  | .readPrice caller _ start => caller.Due b start
  | .insertCharge caller charge | .inserted caller charge =>
    charge.restaurantId = caller.restaurantId ∧ caller.Due b charge.periodStart
  | _ => True

/-- No two calls have locked one restaurant. -/
def BillingPhase.Apart (t u : BillingPhase) : Prop :=
  ∀ restaurantId, t.holds restaurantId = true → u.holds restaurantId = false

/-- The pass of a call that has read the latest charge of a restaurant and not committed the next. -/
def BillingPhase.renews : BillingPhase → Option Pass
  | .readPrice (.pass p) _ _ | .insertCharge (.pass p) _ | .inserted (.pass p) _ => some p
  | _ => none

/-- When a pass reads the latest charge of a restaurant, the restaurant is still due by the query of the
pass; and no charge is voided that is the latest one of a restaurant while a pass renews it. -/
def StaysDue (b : BillingDb) (others : List BillingPhase) : BillingPhase → Prop
  | .readLast (.pass p) _ => ∃ last ∈ b.latestEnd p.restaurantId, last ≤ p.today
  | .begun (.voidCharge chargeId) => ∀ u ∈ others, ∀ p ∈ u.renews,
    (b.void chargeId).latestEnd p.restaurantId = b.latestEnd p.restaurantId
  | _ => True

instance (b : BillingDb) (us : List BillingPhase) (t : BillingPhase) : Decidable (StaysDue b us t) := by
  unfold StaysDue
  split <;> infer_instance

section Statements

variable {b b' : BillingDb} {t t' : BillingPhase} {us : List BillingPhase}
  {answer answer' : List BillingEvent} {caller : Caller} {err : Err}

theorem latestEnd_insert {charge : SubscriptionCharge} {restaurantId : Uuid}
    (h : charge.restaurantId ≠ restaurantId) :
    (b.insert charge).latestEnd restaurantId = b.latestEnd restaurantId := by
  have hlive : (b.insert charge).live restaurantId = b.live restaurantId := by
    simp [BillingDb.live, BillingDb.insert, h]
  rw [BillingDb.latestEnd, hlive, BillingDb.latestEnd]

theorem renewing_goes {p : Option Pass} (h : renewing b answer p = .goes b' t' answer') :
    b' = b ∧ ∃ p', p = some p' ∧ t' = .lockRestaurant (.pass p') := by
  cases p with
  | none => cases h
  | some p =>
    cases h
    exact ⟨rfl, p, rfl, rfl⟩

theorem renewing_ends {p : Option Pass} (h : renewing b answer p = .ends b' answer') : b' = b := by
  cases p with
  | none =>
    cases h
    rfl
  | some p => cases h

theorem fails_goes (h : caller.fails b err = .goes b' t' answer) :
    b' = b ∧ ∃ p, t' = .lockRestaurant (.pass p) := by
  cases caller with
  | person restaurantId periodStart => cases h
  | pass p =>
    obtain ⟨rfl, p', -, rfl⟩ := renewing_goes h
    exact ⟨rfl, p', rfl⟩

theorem fails_ends (h : caller.fails b err = .ends b' answer) : b' = b := by
  cases caller with
  | person restaurantId periodStart =>
    cases h
    rfl
  | pass p => exact renewing_ends h

/-- The call has written its charge. -/
def BillingPhase.isInserted : BillingPhase → Bool
  | .inserted _ _ => true
  | _ => false

/-- What is committed by a statement that ends well or goes on: nothing that a pass looks at, a void, or
the charge that a call has written. -/
inductive Billed (b b' : BillingDb) (t : BillingPhase) : Prop where
  | unread : b'.charges = b.charges → t.isInserted = false → Billed b b' t
  | void (chargeId : Uuid) : t = .begun (.voidCharge chargeId) → b' = b.void chargeId → Billed b b' t
  | created (caller : Caller) (charge : SubscriptionCharge) : t = .inserted caller charge →
      b' = b.insert charge → Billed b b' t

theorem next_ends_billed (h : t.next b us = .ends b' answer) : Billed b b' t := by
  cases t with
  | begun call =>
    cases call with
    | renew today =>
      unfold BillingPhase.next at h
      dsimp only at h
      split at h <;> cases h
      exact .unread rfl rfl
    | createCharge restaurantId periodStart => cases h
    | voidCharge chargeId =>
      cases h
      exact .void chargeId rfl rfl
    | dawn =>
      cases h
      exact .unread rfl rfl
    | edit client =>
      cases h
      exact .unread rfl rfl
    | price price =>
      cases h
      exact .unread rfl rfl
  | lockRestaurant caller =>
    unfold BillingPhase.next at h
    dsimp only at h
    split at h
    · cases h
    · split at h
      · exact .unread (by rw [fails_ends h]) rfl
      · cases h
  | readLast caller client => cases h
  | readPrice caller client start =>
    unfold BillingPhase.next at h
    dsimp only at h
    split at h
    · split at h
      · cases h
      · exact .unread (by rw [fails_ends h]) rfl
    · exact .unread (by rw [fails_ends h]) rfl
  | insertCharge caller charge =>
    unfold BillingPhase.next at h
    dsimp only at h
    split at h
    · exact .unread (by rw [fails_ends h]) rfl
    · cases h
  | inserted caller charge =>
    refine .created caller charge rfl ?_
    cases caller with
    | person restaurantId periodStart =>
      cases h
      rfl
    | pass p => exact renewing_ends h

/-- Where a call goes on. -/
inductive BillingGoes (b b' : BillingDb) (us : List BillingPhase) : BillingPhase → BillingPhase → Prop where
  /-- It is about to lock a restaurant, behind what it has committed. -/
  | lock (t : BillingPhase) (caller : Caller) : Billed b b' t →
      BillingGoes b b' us t (.lockRestaurant caller)
  | locked (caller : Caller) (client : BillingClient) : b' = b →
      (∀ u ∈ us, u.holds caller.restaurantId = false) →
      BillingGoes b b' us (.lockRestaurant caller) (.readLast caller client)
  | started (caller : Caller) (client : BillingClient) : b' = b →
      BillingGoes b b' us (.readLast caller client) (.readPrice caller client
        ((caller.periodStart.or (b.latestEnd caller.restaurantId)).getD b.today))
  | priced (caller : Caller) (client : BillingClient) (charge : SubscriptionCharge) : b' = b →
      charge.restaurantId = caller.restaurantId → charge.status = .open →
      BillingGoes b b' us (.readPrice caller client charge.periodStart) (.insertCharge caller charge)
  | inserted (caller : Caller) (charge : SubscriptionCharge) : b' = b →
      BillingGoes b b' us (.insertCharge caller charge) (.inserted caller charge)

theorem next_goes_on (h : t.next b us = .goes b' t' answer) : BillingGoes b b' us t t' := by
  cases t with
  | begun call =>
    cases call with
    | renew today =>
      unfold BillingPhase.next at h
      dsimp only at h
      split at h <;> cases h
      exact .lock _ _ (.unread rfl rfl)
    | createCharge restaurantId periodStart =>
      cases h
      exact .lock _ _ (.unread rfl rfl)
    | voidCharge chargeId => cases h
    | dawn => cases h
    | edit client => cases h
    | price price => cases h
  | lockRestaurant caller =>
    unfold BillingPhase.next at h
    dsimp only at h
    split at h
    · cases h
    · rename_i hfree
      split at h
      · obtain ⟨rfl, p, rfl⟩ := fails_goes h
        exact .lock _ _ (.unread rfl rfl)
      · cases h
        exact .locked _ _ rfl (by simpa using hfree)
  | readLast caller client =>
    cases h
    exact .started caller client rfl
  | readPrice caller client start =>
    unfold BillingPhase.next at h
    dsimp only at h
    split at h
    · split at h
      · rename_i amount _ hpos
        cases h
        exact .priced caller client ⟨0, caller.restaurantId, start,
          start.addMonths client.billingCycle.months, amount, .open,
          start.lt_addMonths client.billingCycle.months_pos, hpos⟩ rfl rfl rfl
      · obtain ⟨rfl, p, rfl⟩ := fails_goes h
        exact .lock _ _ (.unread rfl rfl)
    · obtain ⟨rfl, p, rfl⟩ := fails_goes h
      exact .lock _ _ (.unread rfl rfl)
  | insertCharge caller charge =>
    unfold BillingPhase.next at h
    dsimp only at h
    split at h
    · obtain ⟨rfl, p, rfl⟩ := fails_goes h
      exact .lock _ _ (.unread rfl rfl)
    · cases h
      exact .inserted caller charge rfl
  | inserted caller charge =>
    cases caller with
    | person restaurantId periodStart => cases h
    | pass p =>
      obtain ⟨rfl, p', -, rfl⟩ := renewing_goes h
      exact .lock _ _ (.created (.pass p) charge rfl rfl)

/-- Only behind the lock of a restaurant does a call hold it. -/
theorem BillingGoes.holds (h : BillingGoes b b' us t t') {restaurantId : Uuid}
    (hholds : t'.holds restaurantId = true) :
    t.holds restaurantId = true ∨ ∀ u ∈ us, u.holds restaurantId = false := by
  cases h with
  | lock => cases hholds
  | locked caller client _ hfree =>
    obtain rfl : caller.restaurantId = restaurantId := by simpa [BillingPhase.holds] using hholds
    exact .inr hfree
  | started => exact .inl hholds
  | priced => exact .inl hholds
  | inserted => exact .inl hholds

/-- A call that goes on has committed nothing or the charge of a pass. -/
theorem BillingGoes.billed (h : BillingGoes b b' us t t') : Billed b b' t := by
  cases h with
  | lock _ _ hb => exact hb
  | locked _ _ hb => exact .unread (by rw [hb]) rfl
  | started _ _ hb => exact .unread (by rw [hb]) rfl
  | priced _ _ _ hb => exact .unread (by rw [hb]) rfl
  | inserted _ _ hb => exact .unread (by rw [hb]) rfl

/-- It knows of the latest charge what it has just read. -/
theorem BillingGoes.sound (h : BillingGoes b b' us t t') (ht : t.Sound b) (hc : StaysDue b us t) :
    t'.Sound b' := by
  cases h with
  | lock => trivial
  | locked => trivial
  | started caller client hb =>
    subst hb
    rintro p rfl
    obtain ⟨last, hlast, hle⟩ := hc
    have hlast : b'.latestEnd p.restaurantId = some last := hlast
    change b'.latestEnd p.restaurantId = some ((b'.latestEnd p.restaurantId).getD b'.today) ∧
      (b'.latestEnd p.restaurantId).getD b'.today ≤ p.today
    rw [hlast]
    exact ⟨rfl, hle⟩
  | priced caller client charge hb hid =>
    subst hb
    exact ⟨hid, ht⟩
  | inserted caller charge hb =>
    subst hb
    exact ht

theorem latestEnd_congr {restaurantId : Uuid} (h : b'.charges = b.charges) :
    b'.latestEnd restaurantId = b.latestEnd restaurantId := by
  simp only [BillingDb.latestEnd, BillingDb.live, h]

/-- What another call commits leaves what a pass has read. -/
theorem BillingPhase.Sound.billed {u : BillingPhase} (hu : u.Sound b) (ht : t.Sound b)
    (hapart : t.Apart u) (hmem : u ∈ us) (hc : StaysDue b us t) (hb : Billed b b' t) : u.Sound b' := by
  have hsame : ∀ p ∈ u.renews, b'.latestEnd p.restaurantId = b.latestEnd p.restaurantId := by
    intro p hp
    cases hb with
    | unread h _ => exact latestEnd_congr h
    | void chargeId htv hb' =>
      subst htv hb'
      exact hc u hmem p hp
    | created caller charge hti hb' =>
      subst hti hb'
      have hholds : u.holds p.restaurantId = true := by
        unfold BillingPhase.renews at hp
        split at hp <;> cases hp <;> simp [BillingPhase.holds, Caller.restaurantId]
      refine latestEnd_insert fun heq => ?_
      have hfree := hapart p.restaurantId (by
        simp only [BillingPhase.holds, decide_eq_true_eq]
        rw [← ht.1, heq])
      exact absurd hholds (by simp [hfree])
  cases u with
  | readPrice caller client start =>
    rintro p rfl
    rw [hsame p rfl]
    exact hu p rfl
  | insertCharge caller charge =>
    refine ⟨hu.1, ?_⟩
    rintro p rfl
    rw [hsame p rfl]
    exact hu.2 p rfl
  | inserted caller charge =>
    refine ⟨hu.1, ?_⟩
    rintro p rfl
    rw [hsame p rfl]
    exact hu.2 p rfl
  | _ => trivial

end Statements

/-- What a pass has read stays true until it commits its charge, when the restaurant stays due. -/
theorem renewalRule : renewal.Rule (fun _ => True) StaysDue (fun _ => True) BillingPhase.Sound
    BillingPhase.Apart where
  symm t u h restaurantId := Protocol.excludes_symm (h restaurantId)
  start b call _ _ := ⟨trivial, fun _ _ _ => nofun⟩
  goes b us t _ ht hus hc b' t' answer hnext := by
    have hgoes := next_goes_on hnext
    refine ⟨trivial, hgoes.sound ht hc, fun u hu =>
      ⟨(hus u hu).1.billed ht (hus u hu).2 hu hc hgoes.billed, ?_⟩⟩
    intro restaurantId hlocked
    rcases hgoes.holds hlocked with hold | hfree
    · exact (hus u hu).2 restaurantId hold
    · exact hfree u hu
  ends b us t _ ht hus hc b' answer hnext :=
    ⟨trivial, fun u hu =>
      (hus u hu).1.billed ht (hus u hu).2 hu hc (next_ends_billed hnext)⟩

/-- A charge that the move creates for a pass begins where the latest charge of the restaurant ended, and
not after the day of the pass. -/
def RenewsInTime (w : Sessions BillingDb BillingPhase) (m : Move BillingCall) : Prop :=
  ∀ day charge, .created (some day) charge ∈ (renewal.machine.step w m).2 →
    charge.periodStart ≤ day ∧ w.committed.latestEnd charge.restaurantId = some charge.periodStart

/-- A charge for a pass is created by a call that has just written it. -/
theorem created_mem {b : BillingDb} {us : List BillingPhase} {t : BillingPhase} {day : Day}
    {charge : SubscriptionCharge} (h : .created (some day) charge ∈ (renewal.next b us t).answer) :
    ∃ p : Pass, p.today = day ∧ t = .inserted (.pass p) charge := by
  have hrenewing : ∀ {answer : List BillingEvent} {p : Option Pass},
      .created (some day) charge ∈ (renewing b answer p).answer →
        .created (some day) charge ∈ answer := by
    intro answer p h
    cases p <;> exact h
  have hfails : ∀ {caller : Caller} {err : Err},
      .created (some day) charge ∈ (caller.fails b err).answer → False := by
    intro caller err h
    cases caller with
    | person restaurantId periodStart => simp [Caller.fails, Advance.answer] at h
    | pass p => simpa using hrenewing h
  change _ ∈ (BillingPhase.next b us t).answer at h
  cases t with
  | begun call =>
    cases call with
    | renew today =>
      unfold BillingPhase.next at h
      dsimp only at h
      split at h <;> cases h
    | _ => cases h
  | lockRestaurant caller =>
    unfold BillingPhase.next at h
    dsimp only at h
    split at h
    · cases h
    · split at h
      · exact (hfails h).elim
      · cases h
  | readLast caller client => cases h
  | readPrice caller client start =>
    unfold BillingPhase.next at h
    dsimp only at h
    split at h
    · split at h
      · cases h
      · exact (hfails h).elim
    · exact (hfails h).elim
  | insertCharge caller charge' =>
    unfold BillingPhase.next at h
    dsimp only at h
    split at h
    · exact (hfails h).elim
    · cases h
  | inserted caller charge' =>
    cases caller with
    | person restaurantId periodStart => simp [BillingPhase.next, Advance.answer] at h
    | pass p =>
      have hmem : .created (some day) charge ∈ [BillingEvent.created (some p.today) charge'] := by
        unfold BillingPhase.next at h
        dsimp only at h
        cases hafter : p.after? charge' with
        | none =>
          rw [hafter] at h
          exact h
        | some p' =>
          rw [hafter] at h
          exact h
      obtain ⟨hday, rfl⟩ : day = p.today ∧ charge = charge' := by simpa using hmem
      exact ⟨p, hday.symm, rfl⟩

/-- As long as the restaurants stay due, renewal does not bill ahead. -/
theorem renewed_when_due (b : BillingDb) (moves : List (Move BillingCall))
    (h : renewal.machine.Every (Protocol.Allowed (fun _ => True) StaysDue) (Sessions.start b) moves) :
    renewal.machine.Every RenewsInTime (Sessions.start b) moves := by
  refine renewalRule.every (fun w m hw _ => ?_) (.start trivial) h
  intro day charge hcreated
  obtain ⟨id, r, rfl, hfind, hanswer⟩ := Protocol.answer_mem hcreated
  obtain ⟨p, rfl, hstate⟩ := created_mem hanswer
  have hsound := hw.session r (Table.find?_mem hfind)
  rw [hstate] at hsound
  obtain ⟨hid, hdue⟩ := hsound
  obtain ⟨hlast, hle⟩ := hdue p rfl
  have hid : charge.restaurantId = p.restaurantId := hid
  exact ⟨hle, hid ▸ hlast⟩

/-! ## Calls that do not overlap -/

/-- The restaurants that a pass has still to renew are due, each of them once. -/
structure Pass.Owed (p : Pass) (b : BillingDb) : Prop where
  nodup : (p.restaurantId :: p.left).Nodup
  due : ∀ r ∈ p.restaurantId :: p.left, ∃ last ∈ b.latestEnd r, last ≤ p.today

/-- What a pass that nothing disturbs knows by its next statement. -/
def BillingPhase.Owed (b : BillingDb) : BillingPhase → Prop
  | .lockRestaurant (.pass p) | .readLast (.pass p) _ => p.Owed b
  | .readPrice (.pass p) _ start => p.Owed b ∧ b.latestEnd p.restaurantId = some start
  | .insertCharge (.pass p) charge | .inserted (.pass p) charge => p.Owed b ∧
    b.latestEnd p.restaurantId = some charge.periodStart ∧ charge.restaurantId = p.restaurantId ∧
      charge.status = .open
  | _ => True

theorem BillingDb.owed_of_due {b : BillingDb} {today : Day} {r : Uuid} {left : List Uuid}
    (h : b.due today = r :: left) : Pass.Owed ⟨today, r, 0, left⟩ b := by
  refine ⟨?_, fun r' hr' => ?_⟩
  · rw [← h]
    exact b.clients.nodup.sublist (List.filter_sublist.map _)
  · rw [← h] at hr'
    obtain ⟨client, hclient, rfl⟩ := List.mem_map.mp hr'
    have := (List.mem_filter.mp hclient).2
    simp only [decide_eq_true_eq] at this
    exact this.2.2

theorem Pass.Owed.next {p p' : Pass} {b b' : BillingDb} (h : p.Owed b) (hp : p.next? = some p')
    (hsame : ∀ r ∈ p.left, b'.latestEnd r = b.latestEnd r) : p'.Owed b' := by
  unfold Pass.next? at hp
  split at hp
  · cases hp
  · rename_i r left hleft
    cases hp
    refine ⟨?_, fun r' hr' => ?_⟩
    · have := h.nodup
      rw [hleft] at this
      exact this.tail
    · have hr' : r' ∈ p.left := hleft ▸ hr'
      rw [hsame r' hr']
      exact h.due r' (List.mem_cons_of_mem _ hr')

theorem latestEnd_insert_self {b : BillingDb} {charge : SubscriptionCharge} (hopen : charge.status = .open)
    (h : b.latestEnd charge.restaurantId = some charge.periodStart) :
    (b.insert charge).latestEnd charge.restaurantId = some charge.periodEnd := by
  have hlive : (b.insert charge).live charge.restaurantId =
      b.live charge.restaurantId ++ [{ charge with id := b.nextId }] := by
    simp [BillingDb.live, BillingDb.insert, hopen]
  unfold BillingDb.latestEnd at h ⊢
  rw [hlive, List.map_append, List.map_singleton, List.max?_eq_some_iff]
  rw [List.max?_eq_some_iff] at h
  refine ⟨List.mem_append_right _ (List.mem_singleton.mpr rfl), fun d hd => ?_⟩
  rcases List.mem_append.mp hd with hd | hd
  · exact (h.2 d hd).trans charge.period_check.le
  · exact (List.mem_singleton.mp hd).le

theorem Pass.Owed.after {p p' : Pass} {b : BillingDb} {charge : SubscriptionCharge} (h : p.Owed b)
    (hlast : b.latestEnd p.restaurantId = some charge.periodStart)
    (hid : charge.restaurantId = p.restaurantId) (hopen : charge.status = .open)
    (hp : p.after? charge = some p') : p'.Owed (b.insert charge) := by
  have hsame : ∀ r ∈ p.left, (b.insert charge).latestEnd r = b.latestEnd r := by
    intro r hr
    refine latestEnd_insert fun heq => ?_
    exact (List.nodup_cons.mp h.nodup).1 (hid ▸ heq ▸ hr)
  unfold Pass.after? at hp
  split at hp
  · exact h.next hp hsame
  · rename_i hend
    split at hp
    · cases hp
      refine ⟨h.nodup, fun r hr => ?_⟩
      rcases List.mem_cons.mp hr with rfl | hr
      · refine ⟨charge.periodEnd, ?_, not_lt.mp hend⟩
        have hlast' : b.latestEnd charge.restaurantId = some charge.periodStart := hid ▸ hlast
        change (b.insert charge).latestEnd p.restaurantId = some charge.periodEnd
        rw [← hid]
        exact latestEnd_insert_self hopen hlast'
      · change ∃ last ∈ (b.insert charge).latestEnd r, last ≤ p.today
        rw [hsame r hr]
        exact h.due r (List.mem_cons_of_mem _ hr)
    · exact h.next hp hsame

/-- Calls that do not overlap leave to a pass what it has picked. -/
theorem serialRule : renewal.Rule (fun _ => True) (fun _ us _ => us = []) (fun _ => True)
    BillingPhase.Owed (fun _ _ => True) where
  symm _ _ _ := trivial
  start _ _ _ _ := ⟨trivial, fun _ _ => trivial⟩
  ends b us t _ _ _ hus b' answer _ := ⟨trivial, by simp [hus]⟩
  goes b us t _ ht _ hus b' t' answer hnext := by
    refine ⟨trivial, ?_, by simp [hus]⟩
    have hrenewing : ∀ {b₁ : BillingDb} {answer₁ : List BillingEvent} {p : Option Pass},
        (∀ p' ∈ p, p'.Owed b₁) → renewing b₁ answer₁ p = .goes b' t' answer → t'.Owed b' := by
      intro b₁ answer₁ p hp h
      obtain ⟨rfl, p', rfl, rfl⟩ := renewing_goes h
      exact hp p' rfl
    have hfails : ∀ {caller : Caller} {err : Err}, (∀ p, caller = .pass p → p.Owed b) →
        caller.fails b err = .goes b' t' answer → t'.Owed b' := by
      intro caller err hp h
      cases caller with
      | person restaurantId periodStart => cases h
      | pass p => exact hrenewing (fun p' hp' => (hp p rfl).next hp' fun _ _ => rfl) h
    change BillingPhase.next b us t = _ at hnext
    cases t with
    | begun call =>
      cases call with
      | renew today =>
        unfold BillingPhase.next at hnext
        dsimp only at hnext
        split at hnext
        · cases hnext
        · rename_i r left hdue
          cases hnext
          exact BillingDb.owed_of_due hdue
      | createCharge restaurantId periodStart =>
        cases hnext
        trivial
      | _ => cases hnext
    | lockRestaurant caller =>
      unfold BillingPhase.next at hnext
      dsimp only at hnext
      split at hnext
      · cases hnext
      · split at hnext
        · refine hfails ?_ hnext
          rintro p rfl
          exact ht
        · cases hnext
          cases caller with
          | person restaurantId periodStart => trivial
          | pass p => exact ht
    | readLast caller client =>
      cases hnext
      cases caller with
      | person restaurantId periodStart => trivial
      | pass p =>
        obtain ⟨last, hlast, -⟩ := ht.due p.restaurantId List.mem_cons_self
        have hlast : b.latestEnd p.restaurantId = some last := hlast
        refine ⟨ht, ?_⟩
        change b.latestEnd p.restaurantId = some ((b.latestEnd p.restaurantId).getD b.today)
        rw [hlast]
        rfl
    | readPrice caller client start =>
      have howed : ∀ p, caller = .pass p → p.Owed b := by
        rintro p rfl
        exact ht.1
      unfold BillingPhase.next at hnext
      dsimp only at hnext
      split at hnext
      · split at hnext
        · cases hnext
          cases caller with
          | person restaurantId periodStart => trivial
          | pass p => exact ⟨ht.1, ht.2, rfl, rfl⟩
        · exact hfails howed hnext
      · exact hfails howed hnext
    | insertCharge caller charge =>
      unfold BillingPhase.next at hnext
      dsimp only at hnext
      split at hnext
      · refine hfails ?_ hnext
        rintro p rfl
        exact ht.1
      · cases hnext
        cases caller with
        | person restaurantId periodStart => trivial
        | pass p => exact ht
    | inserted caller charge =>
      cases caller with
      | person restaurantId periodStart => cases hnext
      | pass p =>
        obtain ⟨howed, hlast, hid, hopen⟩ := ht
        exact hrenewing (fun p' hp' => howed.after hlast hid hopen hp') hnext

/-- In a run whose calls do not overlap, every restaurant stays due until its pass renews it. -/
theorem staysDue_of_serial (b : BillingDb) (moves : List (Move BillingCall))
    (h : renewal.machine.Every (Protocol.Allowed (fun _ => True) fun _ us _ => us = [])
      (Sessions.start b) moves) :
    renewal.machine.Every (Protocol.Allowed (fun _ => True) StaysDue) (Sessions.start b) moves := by
  refine serialRule.every (fun w m hw hm => ?_) (.start trivial) h
  cases m with
  | start id call => trivial
  | abort id => trivial
  | go id =>
    intro r hr
    have howed := hw.session r (Table.find?_mem hr)
    have halone := hm r hr
    unfold StaysDue
    split
    · rename_i p client hstate
      rw [hstate] at howed
      exact howed.due p.restaurantId List.mem_cons_self
    · rw [halone]
      exact fun _ h => absurd h List.not_mem_nil
    · trivial

/-! ## The end of June -/

def bistro : BillingClient := ⟨1, .pro, .monthly, some 5000, .active⟩

theorem june_amount : (0 : Int) < 5000 := by decide

def june : SubscriptionCharge :=
  ⟨1, 1, ⟨24305, 1⟩, ⟨24306, 1⟩, 5000, .open, Day.lt_addMonths ⟨24305, 1⟩ Nat.one_pos, june_amount⟩

/-- The first of July, with June charged. -/
def endOfJune : BillingDb := ⟨⟨24306, 1⟩, ⟨[bistro], by decide⟩, [], [june], 2⟩

/-- One pass charges July. -/
theorem july_in_time : renewal.machine.Every RenewsInTime (Sessions.start endOfJune)
    [.start 0 (.renew ⟨24306, 1⟩), .go 0, .go 0, .go 0, .go 0, .go 0, .go 0] :=
  renewed_when_due _ _ (by decide +kernel)

/-- Two passes pick the restaurant for July, and the second one charges August. -/
theorem august_in_july : ∃ charge : SubscriptionCharge,
    .created (some ⟨24306, 1⟩) charge ∈ renewal.machine.outputs (Sessions.start endOfJune)
      [.start 0 (.renew ⟨24306, 1⟩), .start 1 (.renew ⟨24306, 1⟩), .go 0, .go 1, .go 0, .go 0, .go 0,
        .go 0, .go 0, .go 1, .go 1, .go 1, .go 1, .go 1] ∧
      ¬charge.periodStart ≤ ⟨24306, 1⟩ := by
  refine ⟨⟨0, 1, ⟨24307, 1⟩, ⟨24308, 1⟩, 5000, .open, Day.lt_addMonths ⟨24307, 1⟩ Nat.one_pos, by decide⟩,
    ?_, ?_⟩
  · decide +kernel
  · decide +kernel

end Splite
