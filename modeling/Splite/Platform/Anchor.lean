import Splite.Platform.Renewal

/-!
# The day of the month on which a subscription renews (`services/billingRun.js`)

A restaurant on the monthly cycle that only the passes of `renew` charge, whatever else is committed
beside them. Each charge begins where the one before ends, so the day of the month is not the first
one's but what the months on the way have left of it.

* `anchoredRule`: the periods follow each other month by month from the first.
* `renewals_monthly`: where each of them begins, and when that is where one jump would begin.
-/

namespace Splite

/-- Calls that leave it to the passes to charge a restaurant on the monthly cycle. -/
def BillingCall.LeavesMonthly (restaurantId : Uuid) : BillingCall → Prop
  | .createCharge r _ => r ≠ restaurantId
  | .edit client => client.id = restaurantId → client.billingCycle = .monthly
  | _ => True

instance (restaurantId : Uuid) : ∀ call : BillingCall, Decidable (call.LeavesMonthly restaurantId)
  | .createCharge r _ => inferInstanceAs (Decidable (r ≠ restaurantId))
  | .edit client => inferInstanceAs (Decidable (client.id = restaurantId → client.billingCycle = .monthly))
  | .renew _ | .voidCharge _ | .dawn | .price _ => isTrue trivial

/-- No charge of the restaurant is voided. -/
def LeavesCharges (restaurantId : Uuid) (b : BillingDb) (_ : List BillingPhase) : BillingPhase → Prop
  | .begun (.voidCharge chargeId) => ∀ c ∈ b.live restaurantId, c.id ≠ chargeId
  | _ => True

instance (restaurantId : Uuid) (b : BillingDb) (us : List BillingPhase) :
    ∀ t, Decidable (LeavesCharges restaurantId b us t)
  | .begun (.voidCharge chargeId) => List.decidableBAll (fun c : SubscriptionCharge => c.id ≠ chargeId) _
  | .begun (.renew _) | .begun (.createCharge _ _) | .begun .dawn | .begun (.edit _) | .begun (.price _)
  | .lockRestaurant _ | .readLast _ _ | .readPrice _ _ _ | .insertCharge _ _ | .inserted _ _ => isTrue trivial

/-- A restaurant on the monthly cycle, charged month by month from `first` on. -/
structure BillingDb.Anchored (b : BillingDb) (restaurantId : Uuid) (first : Day) : Prop where
  monthly : ∀ client ∈ b.clients, client.id = restaurantId → client.billingCycle = .monthly
  begun : b.live restaurantId ≠ []
  periods : (b.live restaurantId).map (fun c => (c.periodStart, c.periodEnd)) =
    (List.range (b.live restaurantId).length).map fun k => (first.monthly k, first.monthly (k + 1))

/-- What a call knows of the next period of the restaurant. -/
def BillingPhase.Anchored (restaurantId : Uuid) (b : BillingDb) : BillingPhase → Prop
  | .begun call => call.LeavesMonthly restaurantId
  | .lockRestaurant caller => caller.restaurantId = restaurantId → caller.periodStart = none
  | .readLast caller client => caller.restaurantId = restaurantId →
    caller.periodStart = none ∧ client.billingCycle = .monthly
  | .readPrice caller client start => caller.restaurantId = restaurantId →
    b.latestEnd restaurantId = some start ∧ client.billingCycle = .monthly
  | .insertCharge caller charge | .inserted caller charge => charge.restaurantId = caller.restaurantId ∧
    (caller.restaurantId = restaurantId → charge.status = .open ∧
      b.latestEnd restaurantId = some charge.periodStart ∧
      charge.periodEnd = charge.periodStart.addMonths 1)

section Statements

variable {b b' : BillingDb} {t t' u : BillingPhase} {us : List BillingPhase} {restaurantId : Uuid}
  {first : Day} {answer : List BillingEvent} {charge : SubscriptionCharge}

/-! ## The charges of the restaurant -/

theorem live_congr (h : b'.charges = b.charges) : b'.live restaurantId = b.live restaurantId := by
  simp only [BillingDb.live, h]

theorem live_insert_of_open (hid : charge.restaurantId = restaurantId) (hopen : charge.status = .open) :
    (b.insert charge).live restaurantId = b.live restaurantId ++ [{ charge with id := b.nextId }] := by
  simp [BillingDb.live, BillingDb.insert, hid, hopen]

theorem live_insert_of_ne (h : charge.restaurantId ≠ restaurantId) :
    (b.insert charge).live restaurantId = b.live restaurantId := by
  simp [BillingDb.live, BillingDb.insert, h]

theorem live_void_of_ne {chargeId : Uuid} (h : ∀ c ∈ b.live restaurantId, c.id ≠ chargeId) :
    (b.void chargeId).live restaurantId = b.live restaurantId := by
  unfold BillingDb.live BillingDb.void at *
  dsimp only
  generalize b.charges = charges at h
  induction charges with
  | nil => rfl
  | cons c charges ih =>
    have hrest := ih fun c' hc' => h c' (by
      rw [List.filter_cons]
      split
      · exact List.mem_cons_of_mem _ hc'
      · exact hc')
    rw [List.map_cons, List.filter_cons, List.filter_cons, hrest]
    by_cases hvoided : c.id = chargeId ∧ c.status = .open
    · have hother : c.restaurantId ≠ restaurantId := fun hid => h c (by
        rw [List.filter_cons, if_pos (by simp [hid, hvoided.2])]
        exact List.mem_cons_self) hvoided.1
      rw [if_pos hvoided, if_neg (by simp [hother]), if_neg (by simp [hother])]
    · rw [if_neg hvoided]

/-- The latest period is the last one. -/
theorem BillingDb.Anchored.latestEnd (h : b.Anchored restaurantId first) :
    b.latestEnd restaurantId = some (first.monthly (b.live restaurantId).length) := by
  have hends : (b.live restaurantId).map (·.periodEnd) =
      (List.range (b.live restaurantId).length).map fun k => first.monthly (k + 1) := by
    have := congrArg (List.map Prod.snd) h.periods
    simpa [List.map_map, Function.comp_def] using this
  have hpos := List.length_pos_of_ne_nil h.begun
  unfold BillingDb.latestEnd
  rw [hends]
  refine List.max?_eq_some_iff.mpr ⟨List.mem_map.mpr ⟨(b.live restaurantId).length - 1, ?_, ?_⟩, ?_⟩
  · exact List.mem_range.mpr (by omega)
  · congr 1
    omega
  · intro e he
    obtain ⟨k, hk, rfl⟩ := List.mem_map.mp he
    exact Day.monthly_mono (List.mem_range.mp hk)

/-- The next period follows the last one. -/
theorem BillingDb.Anchored.insert (h : b.Anchored restaurantId first)
    (hid : charge.restaurantId = restaurantId) (hopen : charge.status = .open)
    (hstart : b.latestEnd restaurantId = some charge.periodStart)
    (hend : charge.periodEnd = charge.periodStart.addMonths 1) :
    (b.insert charge).Anchored restaurantId first where
  monthly := h.monthly
  begun := by simp [live_insert_of_open hid hopen]
  periods := by
    have hstart : first.monthly (b.live restaurantId).length = charge.periodStart :=
      Option.some.inj (h.latestEnd.symm.trans hstart)
    rw [live_insert_of_open hid hopen, List.map_append, h.periods, List.length_append, List.length_singleton,
      List.range_succ, List.map_append, List.map_singleton, List.map_singleton, Day.monthly_succ, hstart,
      ← hend]

theorem BillingDb.Anchored.congr (h : b.Anchored restaurantId first)
    (hlive : b'.live restaurantId = b.live restaurantId)
    (hmonthly : ∀ client ∈ b'.clients, client.id = restaurantId → client.billingCycle = .monthly) :
    b'.Anchored restaurantId first :=
  ⟨hmonthly, hlive ▸ h.begun, by rw [hlive]; exact h.periods⟩

/-! ## What one statement does -/

theorem clients_fails {caller : Caller} {err : Err} :
    ((caller.fails b err).committed b).clients = b.clients := by
  cases caller with
  | person restaurantId periodStart => rfl
  | pass p =>
    unfold Caller.fails renewing
    dsimp only
    split <;> rfl

/-- Only an edit changes the subscriptions. -/
theorem clients_next (b : BillingDb) (us : List BillingPhase) (t : BillingPhase) :
    ((t.next b us).committed b).clients = b.clients ∨
    ∃ client, t = .begun (.edit client) ∧ (t.next b us).committed b = b.edit client := by
  cases t with
  | begun call =>
    cases call with
    | edit client => exact .inr ⟨client, rfl, rfl⟩
    | renew today =>
      left
      unfold BillingPhase.next
      dsimp only
      split <;> rfl
    | _ => exact .inl rfl
  | lockRestaurant caller =>
    left
    unfold BillingPhase.next
    dsimp only
    split
    · rfl
    · split
      · exact clients_fails
      · rfl
  | readLast caller client => exact .inl rfl
  | readPrice caller client start =>
    left
    unfold BillingPhase.next
    dsimp only
    split
    · split
      · rfl
      · exact clients_fails
    · exact clients_fails
  | insertCharge caller charge =>
    left
    unfold BillingPhase.next
    dsimp only
    split
    · exact clients_fails
    · rfl
  | inserted caller charge =>
    left
    cases caller with
    | person restaurantId periodStart => rfl
    | pass p =>
      unfold BillingPhase.next renewing
      dsimp only
      split <;> rfl

theorem monthly_edit {client : BillingClient} (h : b.Anchored restaurantId first)
    (hclient : client.id = restaurantId → client.billingCycle = .monthly) :
    ∀ c ∈ (b.edit client).clients, c.id = restaurantId → c.billingCycle = .monthly := by
  intro c hc hid
  obtain ⟨old, hold, heq⟩ := List.mem_map.mp hc
  dsimp only at heq
  split at heq
  · rename_i hkey
    subst heq
    have hkey : old.id = client.id := by simpa [Keyed.key] using hkey
    exact hclient (hkey.symm.trans hid)
  · subst heq
    exact h.monthly old hold hid

/-- What a statement commits keeps the periods of the restaurant. -/
theorem anchored_committed (h : b.Anchored restaurantId first) (ht : t.Anchored restaurantId b)
    (hc : LeavesCharges restaurantId b us t) (hbilled : Billed b b' t)
    (hb' : (t.next b us).committed b = b') : b'.Anchored restaurantId first := by
  have hmonthly : ∀ c ∈ b'.clients, c.id = restaurantId → c.billingCycle = .monthly := by
    rcases clients_next b us t with hsame | ⟨client, rfl, hedit⟩
    · rw [hb'] at hsame
      rw [hsame]
      exact h.monthly
    · rw [hb'] at hedit
      rw [hedit]
      exact monthly_edit h ht
  cases hbilled with
  | unread hcharges _ => exact h.congr (live_congr hcharges) hmonthly
  | void chargeId htv hvoid =>
    subst htv hvoid
    exact h.congr (live_void_of_ne hc) hmonthly
  | created caller charge hti hins =>
    subst hti hins
    obtain ⟨hid, hnext⟩ := ht
    by_cases hr : caller.restaurantId = restaurantId
    · obtain ⟨hopen, hstart, hend⟩ := hnext hr
      exact h.insert (hid.trans hr) hopen hstart hend
    · exact h.congr (live_insert_of_ne fun heq => hr (hid.symm.trans heq)) hmonthly

/-- What a call goes on with knows what it has to. -/
theorem anchored_goes (h : b.Anchored restaurantId first) (ht : t.Anchored restaurantId b)
    (hnext : t.next b us = .goes b' t' answer) : t'.Anchored restaurantId b' := by
  cases t with
  | begun call =>
    cases call with
    | renew today =>
      unfold BillingPhase.next at hnext
      dsimp only at hnext
      split at hnext <;> cases hnext
      exact fun _ => rfl
    | createCharge r periodStart =>
      cases hnext
      exact fun heq => absurd heq ht
    | _ => cases hnext
  | lockRestaurant caller =>
    unfold BillingPhase.next at hnext
    dsimp only at hnext
    split at hnext
    · cases hnext
    · split at hnext
      · obtain ⟨-, p, rfl⟩ := fails_goes hnext
        exact fun _ => rfl
      · rename_i client hfind
        cases hnext
        exact fun heq => ⟨ht heq, h.monthly client (Table.find?_mem hfind)
          ((Table.find?_key hfind).trans heq)⟩
  | readLast caller client =>
    cases hnext
    intro heq
    obtain ⟨hnone, hmonthly⟩ := ht heq
    refine ⟨?_, hmonthly⟩
    rw [hnone, heq, h.latestEnd]
    rfl
  | readPrice caller client start =>
    unfold BillingPhase.next at hnext
    dsimp only at hnext
    split at hnext
    · split at hnext
      · cases hnext
        refine ⟨rfl, fun heq => ?_⟩
        obtain ⟨hstart, hmonthly⟩ := ht heq
        refine ⟨rfl, hstart, ?_⟩
        dsimp only
        rw [hmonthly]
        rfl
      · obtain ⟨-, p, rfl⟩ := fails_goes hnext
        exact fun _ => rfl
    · obtain ⟨-, p, rfl⟩ := fails_goes hnext
      exact fun _ => rfl
  | insertCharge caller charge =>
    unfold BillingPhase.next at hnext
    dsimp only at hnext
    split at hnext
    · obtain ⟨-, p, rfl⟩ := fails_goes hnext
      exact fun _ => rfl
    · cases hnext
      exact ht
  | inserted caller charge =>
    cases caller with
    | person r periodStart => cases hnext
    | pass p =>
      obtain ⟨-, p', -, rfl⟩ := renewing_goes hnext
      exact fun _ => rfl

/-- What another call commits leaves what a call knows of the restaurant. -/
theorem anchored_other (ht : t.Anchored restaurantId b) (hu : u.Anchored restaurantId b)
    (hapart : t.Apart u) (hc : LeavesCharges restaurantId b us t) (hbilled : Billed b b' t) :
    u.Anchored restaurantId b' := by
  have hsame : u.holds restaurantId = true → b'.latestEnd restaurantId = b.latestEnd restaurantId := by
    intro hholds
    cases hbilled with
    | unread hcharges _ => exact latestEnd_congr hcharges
    | void chargeId htv hvoid =>
      subst htv hvoid
      rw [BillingDb.latestEnd, live_void_of_ne hc, BillingDb.latestEnd]
    | created caller charge hti hins =>
      subst hti hins
      refine latestEnd_insert fun heq => ?_
      have hfree := hapart restaurantId (by simp [BillingPhase.holds, ← ht.1, heq])
      exact absurd hholds (by simp [hfree])
  cases u with
  | readPrice caller client start =>
    intro heq
    rw [hsame (by simp [BillingPhase.holds, heq])]
    exact hu heq
  | insertCharge caller charge =>
    refine ⟨hu.1, fun heq => ?_⟩
    rw [hsame (by simp [BillingPhase.holds, heq])]
    exact hu.2 heq
  | inserted caller charge =>
    refine ⟨hu.1, fun heq => ?_⟩
    rw [hsame (by simp [BillingPhase.holds, heq])]
    exact hu.2 heq
  | _ => exact hu

/-- The periods follow each other from the first. -/
theorem anchoredRule (restaurantId : Uuid) (first : Day) :
    renewal.Rule (BillingCall.LeavesMonthly restaurantId) (LeavesCharges restaurantId)
      (fun b => b.Anchored restaurantId first) (fun b t => t.Anchored restaurantId b)
      BillingPhase.Apart where
  symm t u h restaurantId := Protocol.excludes_symm (h restaurantId)
  start b call _ hcall := ⟨hcall, fun _ _ _ => nofun⟩
  goes b us t hb ht hus hc b' t' answer hnext := by
    have hgoes := next_goes_on hnext
    refine ⟨anchored_committed hb ht hc hgoes.billed ?_, anchored_goes hb ht hnext, fun u hu =>
      ⟨anchored_other ht (hus u hu).1 (hus u hu).2 hc hgoes.billed, ?_⟩⟩
    · change (renewal.next b us t).committed b = b'
      rw [hnext]
      rfl
    · intro r hlocked
      rcases hgoes.holds hlocked with hold | hfree
      · exact (hus u hu).2 r hold
      · exact hfree u hu
  ends b us t hb ht hus hc b' answer hnext := by
    have hbilled := next_ends_billed hnext
    refine ⟨anchored_committed hb ht hc hbilled ?_, fun u hu =>
      anchored_other ht (hus u hu).1 (hus u hu).2 hc hbilled⟩
    change (renewal.next b us t).committed b = b'
    rw [hnext]
    rfl

end Statements

/-! ## Where a period begins -/

/-- The periods of a restaurant on the monthly cycle that only the passes charge, from its first charge
on. The `k`-th later one begins `k` months later, on the first day of the month or on the last day of the
shortest month since; that is where the jump of `k` months leads exactly when no month on the way is
shorter than both. -/
theorem renewals_monthly (b : BillingDb) (restaurantId : Uuid) (first : SubscriptionCharge)
    (moves : List (Move BillingCall))
    (hmonthly : ∀ client ∈ b.clients, client.id = restaurantId → client.billingCycle = .monthly)
    (hfirst : b.live restaurantId = [first]) (hend : first.periodEnd = first.periodStart.addMonths 1)
    (hmoves : renewal.machine.Every (Protocol.Allowed (BillingCall.LeavesMonthly restaurantId)
      (LeavesCharges restaurantId)) (Sessions.start b) moves)
    (k : Nat) (charge : SubscriptionCharge)
    (hcharge : ((renewal.machine.run (Sessions.start b) moves).committed.live restaurantId)[k]? =
      some charge) :
    charge.periodStart = (fun d => d.addMonths 1)^[k] first.periodStart ∧
      charge.periodStart = ⟨first.periodStart.month + k, ((List.range k).map fun (i : Nat) =>
        Day.lastOf (first.periodStart.month + (i + 1))).foldl min first.periodStart.day⟩ ∧
      (0 < k → (charge.periodStart = first.periodStart.addMonths k ↔ ∀ i, 0 < i → i < k →
        min first.periodStart.day (Day.lastOf (first.periodStart.month + k)) ≤
          Day.lastOf (first.periodStart.month + i))) := by
  have hstart : b.Anchored restaurantId first.periodStart :=
    ⟨hmonthly, by simp [hfirst], by simp [hfirst, hend, Day.monthly]⟩
  have hrun := ((anchoredRule restaurantId first.periodStart).run (.start hstart) hmoves).committed
  obtain ⟨hlt, hget⟩ := List.getElem?_eq_some_iff.mp hcharge
  have hperiod : charge.periodStart = first.periodStart.monthly k := by
    have := congrArg (fun l => (l[k]?).map Prod.fst) hrun.periods
    simpa [hlt, hget] using this
  refine ⟨hperiod, hperiod.trans Day.monthly_eq, fun hk => ?_⟩
  obtain ⟨j, rfl⟩ := Nat.exists_eq_add_of_lt hk
  rw [Nat.zero_add] at hperiod ⊢
  rw [hperiod, Day.monthly_eq_addMonths_iff]
  push_cast
  constructor
  · intro h i hi hij
    obtain ⟨m, rfl⟩ := Nat.exists_eq_add_of_lt hi
    have := h m (by omega)
    simpa using this
  · intro h i hi
    have := h (i + 1) (by omega) (by omega)
    simpa using this

/-! ## From the end of January -/

/-- The first period begins on 31 January 2026. -/
def january : SubscriptionCharge :=
  ⟨1, 1, ⟨24312, 31⟩, ⟨24313, 28⟩, 5000, .open, Day.lt_addMonths ⟨24312, 31⟩ Nat.one_pos, june_amount⟩

theorem nodup_bistro : ([bistro].map Keyed.key).Nodup := List.nodup_singleton _

def endOfFebruary : BillingDb := ⟨⟨24313, 28⟩, ⟨[bistro], nodup_bistro⟩, [], [january], 2⟩

/-- A pass on 28 February, and one on 28 March. -/
def twoPasses : List (Move BillingCall) :=
  [.start 0 (.renew ⟨24313, 28⟩), .go 0, .go 0, .go 0, .go 0, .go 0, .go 0,
    .start 1 (.renew ⟨24314, 28⟩), .go 1, .go 1, .go 1, .go 1, .go 1, .go 1]

/-- The second later period begins on 28 March, not on the 31st. -/
theorem march_drifts : ∃ charge : SubscriptionCharge,
    ((renewal.machine.run (Sessions.start endOfFebruary) twoPasses).committed.live 1)[2]? = some charge ∧
      charge.periodStart = ⟨24314, 28⟩ ∧ charge.periodStart ≠ january.periodStart.addMonths 2 :=
  ⟨⟨3, 1, ⟨24314, 28⟩, ⟨24315, 28⟩, 5000, .open, Day.lt_addMonths ⟨24314, 28⟩ Nat.one_pos, june_amount⟩,
    by decide +kernel, rfl, by decide⟩

/-- What February leaves of the day. -/
theorem march_after_february : ∃ charge : SubscriptionCharge,
    ((renewal.machine.run (Sessions.start endOfFebruary) twoPasses).committed.live 1)[2]? = some charge ∧
      charge.periodStart = (fun d => d.addMonths 1)^[2] january.periodStart := by
  obtain ⟨charge, hcharge⟩ : ∃ charge, ((renewal.machine.run (Sessions.start endOfFebruary)
      twoPasses).committed.live 1)[2]? = some charge :=
    ⟨⟨3, 1, ⟨24314, 28⟩, ⟨24315, 28⟩, 5000, .open, Day.lt_addMonths ⟨24314, 28⟩ Nat.one_pos,
      june_amount⟩, by decide +kernel⟩
  exact ⟨charge, hcharge, (renewals_monthly endOfFebruary 1 january twoPasses (by decide) (by decide)
    (by decide) (by decide +kernel) 2 charge hcharge).1⟩

end Splite
