import Splite.Platform.Renewal

/-!
# The periods of a restaurant

The charges of a restaurant that are not void, against each other: a charge that begins where the
latest one ends meets none of them, whatever is voided meanwhile. A charge whose start is given may
begin within one, or reach into one: the index of the table compares starts alone.

* `periodsRule`: who has locked a restaurant knows that no live period of it ends behind the start.
* `charged_once_iff`: no day is charged twice exactly when no charge with a start of its own is
  committed over a live period.
-/

namespace Splite

/-- Two charges have a day in common. -/
def SubscriptionCharge.Overlaps (c d : SubscriptionCharge) : Prop :=
  c.periodStart < d.periodEnd ∧ d.periodStart < c.periodEnd

instance (c d : SubscriptionCharge) : Decidable (c.Overlaps d) :=
  inferInstanceAs (Decidable (_ ∧ _))

theorem SubscriptionCharge.Overlaps.symm {c d : SubscriptionCharge} (h : c.Overlaps d) :
    d.Overlaps c := ⟨h.2, h.1⟩

/-- No day of a restaurant is charged by two charges that are not void. -/
def BillingDb.ChargedOnce (b : BillingDb) : Prop :=
  b.charges.Pairwise fun c d => c.restaurantId = d.restaurantId →
    c.status ≠ .void → d.status ≠ .void → ¬c.Overlaps d

instance (b : BillingDb) : Decidable b.ChargedOnce :=
  inferInstanceAs (Decidable (b.charges.Pairwise _))

/-- A call that has not been given a start knows that no live period ends behind the one it has. -/
def BillingPhase.Past (b : BillingDb) : BillingPhase → Prop
  | .readPrice caller _ start => caller.periodStart = none →
    ∀ c ∈ b.live caller.restaurantId, c.periodEnd ≤ start
  | .insertCharge caller charge | .inserted caller charge =>
    charge.restaurantId = caller.restaurantId ∧ charge.status = .open ∧
      (caller.periodStart = none →
        ∀ c ∈ b.live caller.restaurantId, c.periodEnd ≤ charge.periodStart)
  | _ => True

/-- A charge whose start has been given is committed over no live period of its restaurant. -/
def StartsFree (b : BillingDb) (_ : List BillingPhase) : BillingPhase → Prop
  | .inserted (.person restaurantId (some _)) charge =>
    ∀ c ∈ b.live restaurantId, ¬(charge.periodStart < c.periodEnd ∧ c.periodStart < charge.periodEnd)
  | _ => True

instance (b : BillingDb) (us : List BillingPhase) (t : BillingPhase) :
    Decidable (StartsFree b us t) := by
  unfold StartsFree
  split <;> infer_instance

section Statements

variable {b b' : BillingDb} {t t' u : BillingPhase} {us : List BillingPhase} {c charge : SubscriptionCharge}
  {restaurantId : Uuid}

theorem mem_live : c ∈ b.live restaurantId ↔
    c ∈ b.charges ∧ c.restaurantId = restaurantId ∧ c.status ≠ .void := by
  simp [BillingDb.live]

theorem le_of_latestEnd {last : Day} (h : b.latestEnd restaurantId = some last)
    (hc : c ∈ b.live restaurantId) : c.periodEnd ≤ last :=
  (List.max?_eq_some_iff.mp h).2 _ (List.mem_map.mpr ⟨c, hc, rfl⟩)

theorem live_eq_nil (h : b.latestEnd restaurantId = none) : b.live restaurantId = [] := by
  simpa [BillingDb.latestEnd] using h

/-- What is live behind a void was live before it. -/
theorem live_void {chargeId : Uuid} (hc : c ∈ (b.void chargeId).live restaurantId) :
    c ∈ b.live restaurantId := by
  obtain ⟨hmem, hid, hstatus⟩ := mem_live.mp hc
  obtain ⟨c', hc', rfl⟩ := List.mem_map.mp hmem
  split at hid
  · rename_i hvoid
    rw [if_pos hvoid] at hstatus
    exact absurd rfl hstatus
  · rename_i hvoid
    rw [if_neg hvoid] at hstatus ⊢
    exact mem_live.mpr ⟨hc', hid, hstatus⟩

theorem live_insert (hc : c ∈ (b.insert charge).live restaurantId)
    (hne : charge.restaurantId ≠ restaurantId) : c ∈ b.live restaurantId := by
  obtain ⟨hmem, hid, hstatus⟩ := mem_live.mp hc
  rcases List.mem_append.mp hmem with hold | hnew
  · exact mem_live.mpr ⟨hold, hid, hstatus⟩
  · obtain rfl := List.mem_singleton.mp hnew
    exact absurd hid hne

/-- Voids keep the rest apart. -/
theorem BillingDb.ChargedOnce.void (h : b.ChargedOnce) (chargeId : Uuid) :
    (b.void chargeId).ChargedOnce := by
  refine List.pairwise_map.mpr (List.Pairwise.imp ?_ h)
  intro c d hcd
  by_cases hc : c.id = chargeId ∧ c.status = .open
  · rw [if_pos hc]
    exact fun _ hstatus => absurd rfl hstatus
  · rw [if_neg hc]
    by_cases hd : d.id = chargeId ∧ d.status = .open
    · rw [if_pos hd]
      exact fun _ _ hstatus => absurd rfl hstatus
    · rw [if_neg hd]
      exact hcd

/-- A charge that is live fits among the others exactly when none of its restaurant overlaps it. -/
theorem chargedOnce_insert (h : b.ChargedOnce) (hlive : charge.status ≠ .void) :
    (b.insert charge).ChargedOnce ↔ ∀ c ∈ b.live charge.restaurantId, ¬charge.Overlaps c := by
  unfold BillingDb.ChargedOnce BillingDb.insert
  rw [List.pairwise_append]
  constructor
  · rintro ⟨-, -, hnew⟩ c hc hoverlaps
    obtain ⟨hmem, hid, hstatus⟩ := mem_live.mp hc
    exact hnew c hmem _ (List.mem_singleton.mpr rfl) hid hstatus hlive hoverlaps.symm
  · refine fun hfree => ⟨h, List.pairwise_singleton _ _, fun c hc d hd hid hstatus _ hoverlaps => ?_⟩
    obtain rfl := List.mem_singleton.mp hd
    exact hfree c (mem_live.mpr ⟨hc, hid, hstatus⟩) hoverlaps.symm

/-- What another call commits leaves no period behind the start that a call has. -/
theorem BillingPhase.Past.billed (hu : u.Past b) (ht : t.Past b) (hapart : t.Apart u)
    (hb : Billed b b' t) : u.Past b' := by
  have hlive : ∀ {caller : Caller}, u.holds caller.restaurantId = true →
      ∀ c ∈ b'.live caller.restaurantId, c ∈ b.live caller.restaurantId := by
    intro caller hholds c hc
    cases hb with
    | unread hsame _ =>
      rw [BillingDb.live, hsame] at hc
      exact hc
    | void chargeId _ hb' =>
      subst hb'
      exact live_void hc
    | created caller' charge hphase hb' =>
      subst hphase hb'
      refine live_insert hc fun heq => ?_
      have := hapart caller.restaurantId (by simp [BillingPhase.holds, ← ht.1, heq])
      simp [hholds] at this
  cases u with
  | readPrice caller client start =>
    exact fun hnone c hc => hu hnone c (hlive (by simp [BillingPhase.holds]) c hc)
  | insertCharge caller charge | inserted caller charge =>
    exact ⟨hu.1, hu.2.1, fun hnone c hc =>
      hu.2.2 hnone c (hlive (by simp [BillingPhase.holds]) c hc)⟩
  | _ => trivial

/-- A call that goes on has read the latest end behind its lock. -/
theorem BillingGoes.past (h : BillingGoes b b' us t t') (ht : t.Past b) : t'.Past b' := by
  cases h with
  | lock => trivial
  | locked => trivial
  | started caller client hb =>
    subst hb
    intro hnone c hc
    rw [hnone, Option.none_or]
    cases hlast : b'.latestEnd caller.restaurantId with
    | none =>
      rw [live_eq_nil hlast] at hc
      cases hc
    | some last => exact le_of_latestEnd hlast hc
  | priced caller client charge hb hid hopen =>
    subst hb
    exact ⟨hid, hopen, ht⟩
  | inserted caller charge hb =>
    subst hb
    exact ht

end Statements

/-- Who has locked a restaurant knows what is live of it. -/
theorem periodsRule : renewal.Rule (fun _ => True) (fun _ _ _ => True) (fun _ => True)
    BillingPhase.Past BillingPhase.Apart where
  symm t u h restaurantId := Protocol.excludes_symm (h restaurantId)
  start b call _ _ := ⟨trivial, fun _ _ _ => nofun⟩
  goes b us t _ ht hus _ b' t' answer hnext := by
    have hgoes := next_goes_on hnext
    refine ⟨trivial, hgoes.past ht, fun u hu =>
      ⟨(hus u hu).1.billed ht (hus u hu).2 hgoes.billed, fun restaurantId hlocked => ?_⟩⟩
    rcases hgoes.holds hlocked with hold | hfree
    · exact (hus u hu).2 restaurantId hold
    · exact hfree u hu
  ends b us t _ ht hus _ b' answer hnext :=
    ⟨trivial, fun u hu => (hus u hu).1.billed ht (hus u hu).2 (next_ends_billed hnext)⟩

/-! ## No day twice -/

/-- The move leaves no day charged twice. -/
def LeavesOnce (w : Sessions BillingDb BillingPhase) (m : Move BillingCall) : Prop :=
  (renewal.machine.step w m).1.committed.ChargedOnce

instance (w : Sessions BillingDb BillingPhase) (m : Move BillingCall) : Decidable (LeavesOnce w m) :=
  inferInstanceAs (Decidable (BillingDb.ChargedOnce _))

/-- A statement charges no day twice exactly when a start that has been given is free. -/
theorem chargedOnce_billed {b b' : BillingDb} {us : List BillingPhase} {t : BillingPhase}
    (h : b.ChargedOnce) (ht : t.Past b) (hb : Billed b b' t) : b'.ChargedOnce ↔ StartsFree b us t := by
  cases hb with
  | unread hsame hnot =>
    unfold BillingDb.ChargedOnce
    rw [hsame]
    refine iff_of_true h ?_
    unfold StartsFree
    split
    · cases hnot
    · trivial
  | void chargeId hphase hb' =>
    subst hphase hb'
    exact iff_of_true (h.void chargeId) trivial
  | created caller charge hphase hb' =>
    subst hphase hb'
    obtain ⟨hid, hopen, hpast⟩ := ht
    rw [chargedOnce_insert h (by rw [hopen]; nofun), hid]
    have hlater : caller.periodStart = none → ∀ c ∈ b.live caller.restaurantId, ¬charge.Overlaps c :=
      fun hnone c hc hoverlaps => absurd hoverlaps.1 (not_lt.mpr (hpast hnone c hc))
    cases caller with
    | pass p => exact iff_of_true (hlater rfl) trivial
    | person restaurantId periodStart =>
      cases periodStart with
      | none => exact iff_of_true (hlater rfl) trivial
      | some start => exact Iff.rfl

/-- Only for the lock of a restaurant does a call wait. -/
theorem lockRestaurant_of_waits {b : BillingDb} {us : List BillingPhase} {t : BillingPhase}
    (h : t.next b us = .waits) : ∃ caller, t = .lockRestaurant caller := by
  have hrenewing : ∀ {b : BillingDb} {answer : List BillingEvent} {p : Option Pass},
      renewing b answer p ≠ .waits := by
    intro b answer p
    cases p <;> nofun
  have hfails : ∀ {caller : Caller} {err : Err}, caller.fails b err ≠ .waits := by
    intro caller err
    cases caller with
    | person restaurantId periodStart => nofun
    | pass p => exact hrenewing
  cases t with
  | lockRestaurant caller => exact ⟨caller, rfl⟩
  | begun call =>
    cases call with
    | renew today =>
      unfold BillingPhase.next at h
      dsimp only at h
      split at h <;> cases h
    | _ => cases h
  | readLast caller client => cases h
  | readPrice caller client start =>
    unfold BillingPhase.next at h
    dsimp only at h
    split at h
    · split at h
      · cases h
      · exact absurd h hfails
    · exact absurd h hfails
  | insertCharge caller charge =>
    unfold BillingPhase.next at h
    dsimp only at h
    split at h
    · exact absurd h hfails
    · cases h
  | inserted caller charge =>
    cases caller with
    | person restaurantId periodStart => cases h
    | pass p => exact absurd h hrenewing

/-- In every run of charges, voids and passes, no day of a restaurant is ever charged twice exactly when
no charge with a start of its own is committed over a live period. -/
theorem charged_once_iff (b : BillingDb) (moves : List (Move BillingCall)) (h : b.ChargedOnce) :
    renewal.machine.Every LeavesOnce (Sessions.start b) moves ↔
      renewal.machine.Every (Protocol.Allowed (fun _ => True) StartsFree) (Sessions.start b) moves := by
  let I (w : Sessions BillingDb BillingPhase) : Prop :=
    Protocol.Holds (fun _ => True) BillingPhase.Past BillingPhase.Apart w ∧ w.committed.ChargedOnce
  refine Machine.every_iff (I := I) (fun w m ⟨hw, honce⟩ => ?_) (fun w m hw honce => ?_)
    ⟨.start trivial, h⟩
  · refine Protocol.iff_allowed (p := renewal) (P := LeavesOnce w) (fun m hsame _ => ?_)
      (fun r hfind => ?_) m
    · rw [LeavesOnce, hsame]
      exact honce
    · have ht := hw.session r (Table.find?_mem hfind)
      rw [LeavesOnce, Protocol.committed_go hfind]
      cases hnext : renewal.next w.committed (w.others r.id) r.state with
      | waits =>
        obtain ⟨caller, hstate⟩ := lockRestaurant_of_waits hnext
        refine iff_of_true honce ?_
        rw [hstate]
        trivial
      | goes b' t' answer => exact chargedOnce_billed honce ht (next_goes_on hnext).billed
      | ends b' answer => exact chargedOnce_billed honce ht (next_ends_billed hnext)
  · exact ⟨periodsRule.step w m hw.1 (Protocol.allowed_any m), honce⟩

/-! ## Half of June -/

/-- June is charged, and somebody charges a month from the middle of June. -/
theorem june_charged_twice : ¬renewal.machine.Every LeavesOnce (Sessions.start endOfJune)
    [.start 0 (.createCharge 1 (some ⟨24305, 15⟩)), .go 0, .go 0, .go 0, .go 0, .go 0, .go 0] := by
  decide +kernel

/-- From the end of June it is charged once. -/
theorem july_charged_once : renewal.machine.Every LeavesOnce (Sessions.start endOfJune)
    [.start 0 (.createCharge 1 (some ⟨24306, 1⟩)), .go 0, .go 0, .go 0, .go 0, .go 0, .go 0] :=
  (charged_once_iff _ _ (by decide +kernel)).mpr (by decide +kernel)

end Splite
