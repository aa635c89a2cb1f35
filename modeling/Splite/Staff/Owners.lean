import Splite.Auth.Sessions
import Splite.Lib.Refusal

/-!
# The people of a restaurant (`services/staff.js`)

`updateStaff` calls beside each other, statement by statement. A call locks the row of the person; a
call that takes an owner away also locks the row of the restaurant, and counts the other owners behind
it.

* `staffingRule`: what a call has counted stays true until it commits.
* `owner_remains`: a restaurant keeps an active owner, and a call that is refused changes nothing.
-/

namespace Splite

/-! ## Standing -/

/-- `RANK[role]`, of a role that there is. -/
def RANK : String → Option Nat
  | "OWNER" => some 3
  | "MANAGER" => some 2
  | "CASHIER" => some 1
  | "WAITER" => some 1
  | _ => none

/-- `RANK[role] ?? 0`. -/
def rank (role : String) : Nat := (RANK role).getD 0

/-- Who calls, as the access token has it. -/
structure Actor where
  id : Uuid
  role : String
  deriving DecidableEq, Repr

def outranks (actorRole targetRole : String) : Bool :=
  actorRole = "OWNER" || rank targetRole < rank actorRole

def assertMayAssign (actorRole role : String) : Except Err Unit :=
  if actorRole = "OWNER" then .ok ()
  else if rank role < rank actorRole then .ok ()
  else .error (.api .staffRoleTooHigh "You cannot grant a role at or above your own"
    [("actorRole", actorRole), ("role", role)])

/-- `lockTarget`, once the lock is there. -/
def lockTarget (s : AuthState) (restaurantId : Uuid) (actor : Actor) (userId : Uuid) :
    Except Err User :=
  match s.users.find? userId with
  | none => .error (.api .staffNotFound "No such person at this restaurant" [])
  | some target =>
    if target.restaurantId ≠ restaurantId then
      .error (.api .staffNotFound "No such person at this restaurant" [])
    else if target.id = actor.id then
      .error (.api .staffSelfForbidden "You cannot change your own role or standing"
        [("hint", "Another owner can do this for you")])
    else if outranks actor.role target.role then .ok target
    else .error (.api .staffOutranked "That person is at or above your own role"
      [("actorRole", actor.role), ("targetRole", target.role)])

theorem lockTarget_ok {s : AuthState} {restaurantId : Uuid} {actor : Actor} {userId : Uuid}
    {target : User} (h : lockTarget s restaurantId actor userId = .ok target) :
    s.users.find? userId = some target ∧ target.restaurantId = restaurantId := by
  unfold lockTarget at h
  split at h
  · cases h
  · rename_i target' hfind
    split at h
    · cases h
    · rename_i hid
      split at h
      · cases h
      · split at h
        · cases h
          exact ⟨hfind, not_not.mp hid⟩
        · cases h

/-! ## `updateStaff` -/

/-- The arguments of `updateStaff`; `now` is the instant of the revocation after it. -/
structure StaffUpdate where
  restaurantId : Uuid
  actor : Actor
  userId : Uuid
  role : Option String
  active : Option Bool
  now : Time
  deriving DecidableEq, Repr

namespace StaffUpdate

def leavingOwner (c : StaffUpdate) (target : User) : Bool :=
  target.role = "OWNER" && (c.role.any (· ≠ "OWNER") || c.active = some false)

/-- `SET role = COALESCE($3, role), active = COALESCE($4, active)`. -/
def row (c : StaffUpdate) (u : User) : User :=
  { u with role := c.role.getD u.role, active := c.active.getD u.active }

theorem row_key (c : StaffUpdate) (u : User) : Keyed.key (c.row u) = Keyed.key u := rfl

def standingChanged (c : StaffUpdate) (previousRole : String) : Bool :=
  c.active = some false || c.role.any (· ≠ previousRole)

/-- The `UPDATE` of the call. -/
def write (c : StaffUpdate) (s : AuthState) : AuthState :=
  { s with
    users := s.users.updateWhere (fun u => u.id = c.userId && u.restaurantId = c.restaurantId) c.row
      c.row_key }

theorem mem_write {c : StaffUpdate} {s : AuthState} {u : User} : u ∈ (c.write s).users ↔
    ∃ o ∈ s.users, u = if o.id = c.userId && o.restaurantId = c.restaurantId then c.row o else o :=
  @Table.mem_updateWhere _ _ _ s.users u _ c.row c.row_key

theorem find?_write {c : StaffUpdate} {s : AuthState} {userId : Uuid} :
    (c.write s).users.find? userId = (s.users.find? userId).map fun o =>
      if o.id = c.userId && o.restaurantId = c.restaurantId then c.row o else o :=
  @Table.find?_updateWhere _ _ _ _ s.users userId _ c.row c.row_key

end StaffUpdate

/-- The next statement of a call. -/
inductive StaffPhase where
  /-- `assertMayAssign`, and `BEGIN`. -/
  | begun (c : StaffUpdate)
  | lockTarget (c : StaffUpdate)
  /-- `assertOwnerRemains`. -/
  | lockRestaurant (c : StaffUpdate) (target : User)
  | countOwners (c : StaffUpdate) (target : User)
  | update (c : StaffUpdate) (target : User)
  /-- The row is written; `COMMIT`. -/
  | updated (c : StaffUpdate) (target : User)
  | revoke (c : StaffUpdate) (target : User)
  deriving DecidableEq, Repr

/-- It has locked the row of the person. -/
def StaffPhase.locksUser (userId : Uuid) : StaffPhase → Bool
  | .lockRestaurant c _ | .countOwners c _ | .update c _ | .updated c _ => c.userId = userId
  | _ => false

/-- It has locked the row of the restaurant. -/
def StaffPhase.locksRestaurant (restaurantId : Uuid) : StaffPhase → Bool
  | .countOwners c _ => c.restaurantId = restaurantId
  | .update c target | .updated c target => c.leavingOwner target && c.restaurantId = restaurantId
  | _ => false

inductive StaffEvent where
  | updated (user : User) (sessionsRevoked : Nat)
  | refused (err : Err)
  deriving DecidableEq, Repr

/-- `role = 'OWNER' AND active = true`, of the restaurant. -/
def User.isOwner (u : User) (restaurantId : Uuid) : Bool :=
  u.restaurantId = restaurantId && u.role = "OWNER" && u.active

/-- How many owners `assertOwnerRemains` counts. -/
def remainingOwners (s : AuthState) (restaurantId excludingUserId : Uuid) : Nat :=
  (s.users.rows.filter fun u => u.isOwner restaurantId && u.id ≠ excludingUserId).length

/-- The next statement, beside the other calls. -/
def StaffPhase.next (s : AuthState) (others : List StaffPhase) :
    StaffPhase → Advance AuthState StaffPhase StaffEvent
  | .begun c =>
    match c.role.elim (.ok ()) (assertMayAssign c.actor.role) with
    | .error err => .ends s [.refused err]
    | .ok () => .goes s (.lockTarget c) []
  | .lockTarget c =>
    if others.any (StaffPhase.locksUser c.userId) then .waits
    else
      match Splite.lockTarget s c.restaurantId c.actor c.userId with
      | .error err => .ends s [.refused err]
      | .ok target =>
        .goes s (if c.leavingOwner target then .lockRestaurant c target else .update c target) []
  | .lockRestaurant c target =>
    if others.any (StaffPhase.locksRestaurant c.restaurantId) then .waits
    else .goes s (.countOwners c target) []
  | .countOwners c target =>
    if remainingOwners s c.restaurantId target.id = 0 then
      .ends s [.refused (.api .staffLastOwner "A restaurant must keep one active owner"
        [("hint", "Appoint another owner first")])]
    else .goes s (.update c target) []
  | .update c target =>
    if c.role.all fun role => (RANK role).isSome then .goes s (.updated c target) []
    else .ends s [.refused (.checkViolation "users_role_check")]
  | .updated c target => .goes (c.write s) (.revoke c target) []
  | .revoke c target =>
    -- After the commit, so that a failure here would not undo it.
    if c.standingChanged target.role then
      match (revokeAllSessionsForUser c.now c.userId).run s with
      | .ok revoked s' => .ends s' [.updated (c.row target) revoked]
      | .error err s' => .ends s' [.refused err]
    else .ends s [.updated (c.row target) 0]

def staffing : Protocol AuthState StaffPhase StaffUpdate StaffEvent where
  start := .begun
  next := StaffPhase.next

/-! ## What a call has counted -/

/-- Somebody else is an active owner of the restaurant. -/
def OtherOwner (s : AuthState) (restaurantId userId : Uuid) : Prop :=
  ∃ u ∈ s.users, u.isOwner restaurantId = true ∧ u.id ≠ userId

/-- The restaurant has an active owner. -/
def HasOwner (s : AuthState) (restaurantId : Uuid) : Prop :=
  ∃ u ∈ s.users, u.isOwner restaurantId = true

instance (s : AuthState) (restaurantId : Uuid) : Decidable (HasOwner s restaurantId) :=
  inferInstanceAs (Decidable (∃ u ∈ s.users.rows, u.isOwner restaurantId = true))

/-- The row that a call has locked is the one that it has read. -/
structure Reads (s : AuthState) (c : StaffUpdate) (target : User) : Prop where
  row : s.users.find? c.userId = some target
  restaurant : target.restaurantId = c.restaurantId

/-- What a call knows by its next statement. -/
def StaffPhase.Sound (s : AuthState) : StaffPhase → Prop
  | .lockRestaurant c target | .countOwners c target => Reads s c target
  | .update c target | .updated c target => Reads s c target ∧
    (c.leavingOwner target = true → OtherOwner s c.restaurantId c.userId)
  | _ => True

/-- No two calls have locked one row. -/
structure StaffPhase.Apart (t u : StaffPhase) : Prop where
  user : ∀ userId, t.locksUser userId = true → u.locksUser userId = false
  restaurant : ∀ restaurantId, t.locksRestaurant restaurantId = true →
    u.locksRestaurant restaurantId = false

section Statements

variable {s s' : AuthState} {t t' u : StaffPhase} {us : List StaffPhase} {answer : List StaffEvent}
  {c : StaffUpdate} {target o : User} {restaurantId : Uuid}

theorem exists_other_of_remaining {userId : Uuid} (h : remainingOwners s restaurantId userId ≠ 0) :
    OtherOwner s restaurantId userId := by
  obtain ⟨o, ho⟩ := List.exists_mem_of_length_pos (Nat.pos_of_ne_zero h)
  obtain ⟨hmem, howner⟩ := List.mem_filter.mp ho
  rw [Bool.and_eq_true, decide_eq_true_eq] at howner
  exact ⟨o, hmem, howner⟩

/-- An owner who is not the one that the call takes away is still one after it. -/
theorem StaffUpdate.owner_after (hreads : Reads s c target) (ho : o ∈ s.users)
    (howner : o.isOwner restaurantId = true)
    (hstays : c.leavingOwner target = true → o.id = c.userId → o.restaurantId ≠ c.restaurantId) :
    ∃ o' ∈ (c.write s).users, o'.isOwner restaurantId = true ∧ o'.id = o.id := by
  have hmem : (if o.id = c.userId && o.restaurantId = c.restaurantId then c.row o else o) ∈
      (c.write s).users := StaffUpdate.mem_write.mpr ⟨o, ho, rfl⟩
  refine ⟨_, hmem, ?_⟩
  split
  · rename_i hhit
    simp only [Bool.and_eq_true, decide_eq_true_eq] at hhit
    obtain rfl : o = target :=
      Table.eq_of_key ho (Table.find?_mem hreads.row) (hhit.1.trans (Table.find?_key hreads.row).symm)
    have hnot : c.leavingOwner o = false := by
      cases hleaving : c.leavingOwner o with
      | false => rfl
      | true => exact absurd hhit.2 (hstays hleaving hhit.1)
    simp only [User.isOwner, Bool.and_eq_true, decide_eq_true_eq] at howner
    obtain ⟨⟨hrid, hrole⟩, hactive⟩ := howner
    simp only [StaffUpdate.leavingOwner, hrole, decide_true, Bool.true_and, Bool.or_eq_false_iff,
      decide_eq_false_iff_not] at hnot
    have hrole' : c.role.getD o.role = "OWNER" := by
      cases hc : c.role with
      | none => exact hrole
      | some role => simpa [hc] using hnot.1
    have hactive' : c.active.getD o.active = true := by
      cases hc : c.active with
      | none => exact hactive
      | some active => simpa [hc] using hnot.2
    exact ⟨by simp [User.isOwner, StaffUpdate.row, hrid, hrole', hactive'], rfl⟩
  · exact ⟨howner, rfl⟩

/-- The call has committed. -/
def StaffPhase.Accepted : StaffPhase → Prop
  | .revoke _ _ => True
  | _ => False

def StaffEvent.IsRefused : StaffEvent → Prop
  | .refused _ => True
  | .updated _ _ => False

/-- A statement commits nothing, the row of its call, or behind that the end of some sessions. -/
inductive Staffed (s s' : AuthState) (t : StaffPhase) : Prop where
  | same : s' = s → ¬t.Accepted → Staffed s s' t
  | updated (c : StaffUpdate) (target : User) : t = .updated c target → s' = c.write s → Staffed s s' t
  | revoked : t.Accepted → s'.users = s.users → Staffed s s' t

theorem next_ends_staffed (h : t.next s us = .ends s' answer) :
    Staffed s s' t ∧ ((∃ o ∈ answer, o.IsRefused) → s' = s ∧ ¬t.Accepted) := by
  cases t with
  | begun c =>
    unfold StaffPhase.next at h
    dsimp only at h
    split at h <;> cases h
    exact ⟨.same rfl nofun, fun _ => ⟨rfl, nofun⟩⟩
  | lockTarget c =>
    unfold StaffPhase.next at h
    dsimp only at h
    split at h
    · cases h
    · split at h <;> cases h
      exact ⟨.same rfl nofun, fun _ => ⟨rfl, nofun⟩⟩
  | lockRestaurant c target =>
    unfold StaffPhase.next at h
    dsimp only at h
    split at h <;> cases h
  | countOwners c target =>
    unfold StaffPhase.next at h
    dsimp only at h
    split at h <;> cases h
    exact ⟨.same rfl nofun, fun _ => ⟨rfl, nofun⟩⟩
  | update c target =>
    unfold StaffPhase.next at h
    dsimp only at h
    split at h <;> cases h
    exact ⟨.same rfl nofun, fun _ => ⟨rfl, nofun⟩⟩
  | updated c target => cases h
  | revoke c target =>
    unfold StaffPhase.next at h
    dsimp only at h
    have hnot : ∀ {n : Nat}, ¬∃ o ∈ [StaffEvent.updated (c.row target) n], o.IsRefused := by
      rintro n ⟨o, ho, hrefused⟩
      obtain rfl := List.mem_singleton.mp ho
      exact hrefused
    split at h
    · change Advance.ends _ _ = Advance.ends s' answer at h
      cases h
      exact ⟨.revoked trivial rfl, fun h => absurd h hnot⟩
    · cases h
      exact ⟨.revoked trivial rfl, fun h => absurd h hnot⟩

/-- A call that goes on has not committed before, knows what it has read, and no other call holds what it
has locked. -/
structure GoesOn (s s' : AuthState) (us : List StaffPhase) (t t' : StaffPhase) : Prop where
  staffed : Staffed s s' t
  before : ¬t.Accepted
  after : s' = s ∨ t'.Accepted
  sound : t.Sound s → t'.Sound s'
  user : ∀ userId, t'.locksUser userId = true →
    t.locksUser userId = true ∨ ∀ u ∈ us, u.locksUser userId = false
  restaurant : ∀ restaurantId, t'.locksRestaurant restaurantId = true →
    t.locksRestaurant restaurantId = true ∨ ∀ u ∈ us, u.locksRestaurant restaurantId = false

theorem next_goes_staffed (h : t.next s us = .goes s' t' answer) : answer = [] ∧ GoesOn s s' us t t' := by
  cases t with
  | begun c =>
    unfold StaffPhase.next at h
    dsimp only at h
    split at h <;> cases h
    exact ⟨rfl, .same rfl nofun, nofun, .inl rfl, fun _ => trivial, nofun, nofun⟩
  | lockTarget c =>
    unfold StaffPhase.next at h
    dsimp only at h
    split at h
    · cases h
    · rename_i hfree
      split at h
      · cases h
      · rename_i target hlocked
        cases h
        obtain ⟨hrow, hrid⟩ := lockTarget_ok hlocked
        have hfree' : ∀ u ∈ us, u.locksUser c.userId = false := by simpa using hfree
        refine ⟨rfl, .same rfl nofun, nofun, .inl rfl, fun _ => ?_, fun userId hlocks => .inr ?_, ?_⟩
        · split
          · exact ⟨hrow, hrid⟩
          · rename_i hstays
            exact ⟨⟨hrow, hrid⟩, fun hleaving => absurd hleaving hstays⟩
        · obtain rfl : c.userId = userId := by
            split at hlocks <;> simpa [StaffPhase.locksUser] using hlocks
          exact hfree'
        · intro restaurantId hlocks
          split at hlocks
          · cases hlocks
          · rename_i hstays
            simp [StaffPhase.locksRestaurant, hstays] at hlocks
  | lockRestaurant c target =>
    unfold StaffPhase.next at h
    dsimp only at h
    split at h
    · cases h
    · rename_i hfree
      cases h
      refine ⟨rfl, .same rfl nofun, nofun, .inl rfl, id, fun _ => .inl, fun restaurantId hlocks => ?_⟩
      obtain rfl : c.restaurantId = restaurantId := by simpa [StaffPhase.locksRestaurant] using hlocks
      exact .inr (by simpa using hfree)
  | countOwners c target =>
    unfold StaffPhase.next at h
    dsimp only at h
    split at h
    · cases h
    · rename_i hremains
      cases h
      refine ⟨rfl, .same rfl nofun, nofun, .inl rfl, fun ht => ⟨ht, fun _ => ?_⟩, fun _ => .inl, ?_⟩
      · have hkey : target.id = c.userId := Table.find?_key ht.row
        exact hkey ▸ exists_other_of_remaining hremains
      · intro restaurantId hlocks
        simp only [StaffPhase.locksRestaurant, Bool.and_eq_true] at hlocks
        exact .inl hlocks.2
  | update c target =>
    unfold StaffPhase.next at h
    dsimp only at h
    split at h
    · cases h
      exact ⟨rfl, .same rfl nofun, nofun, .inl rfl, id, fun _ => .inl, fun _ => .inl⟩
    · cases h
  | updated c target =>
    cases h
    exact ⟨rfl, .updated c target rfl rfl, nofun, .inr trivial, fun _ => trivial, nofun, nofun⟩
  | revoke c target =>
    unfold StaffPhase.next at h
    dsimp only at h
    split at h
    · change Advance.ends _ _ = Advance.goes s' t' answer at h
      cases h
    · cases h

/-- What another call commits leaves what a call has read and counted. -/
theorem StaffPhase.Sound.staffed (hu : u.Sound s) (ht : t.Sound s) (hapart : t.Apart u)
    (h : Staffed s s' t) : u.Sound s' := by
  have hreads : ∀ {c : StaffUpdate} {target : User}, u.locksUser c.userId = true → Reads s c target →
      Reads s' c target := by
    intro c target hlocks hreads
    cases h with
    | same hs' =>
      subst hs'
      exact hreads
    | revoked _ hsame => exact ⟨by rw [hsame]; exact hreads.row, hreads.restaurant⟩
    | updated c' target' hphase hs' =>
      subst hphase hs'
      refine ⟨?_, hreads.restaurant⟩
      have hne : c'.userId ≠ c.userId := by
        intro heq
        have := hapart.user c.userId (by simpa [StaffPhase.locksUser] using heq)
        simp [hlocks] at this
      have hkey : target.id = c.userId := Table.find?_key hreads.row
      rw [StaffUpdate.find?_write, hreads.row, Option.map_some]
      simp [hkey, Ne.symm hne]
  have hother : ∀ {c : StaffUpdate}, u.locksRestaurant c.restaurantId = true →
      OtherOwner s c.restaurantId c.userId → OtherOwner s' c.restaurantId c.userId := by
    rintro c hlocks ⟨o, ho, howner, hne⟩
    cases h with
    | same hs' =>
      subst hs'
      exact ⟨o, ho, howner, hne⟩
    | revoked _ hsame => exact ⟨o, by rw [hsame]; exact ho, howner, hne⟩
    | updated c' target' hphase hs' =>
      subst hphase hs'
      obtain ⟨o', ho', howner', hid⟩ := StaffUpdate.owner_after ht.1 ho howner (by
        intro hleaving _ hrid
        have horid : o.restaurantId = c.restaurantId := by
          simp only [User.isOwner, Bool.and_eq_true, decide_eq_true_eq] at howner
          exact howner.1.1
        have := hapart.restaurant c.restaurantId (by
          simp [StaffPhase.locksRestaurant, hleaving, ← hrid, horid])
        simp [hlocks] at this)
      exact ⟨o', ho', howner', by rw [hid]; exact hne⟩
  cases u with
  | lockRestaurant c target => exact hreads (by simp [StaffPhase.locksUser]) hu
  | countOwners c target => exact hreads (by simp [StaffPhase.locksUser]) hu
  | update c target | updated c target =>
    refine ⟨hreads (by simp [StaffPhase.locksUser]) hu.1, fun hleaving => ?_⟩
    exact hother (by simp [StaffPhase.locksRestaurant, hleaving]) (hu.2 hleaving)
  | _ => trivial

/-- What a call commits leaves the restaurant an owner. -/
theorem HasOwner.staffed (h : HasOwner s restaurantId) (ht : t.Sound s) (hs : Staffed s s' t) :
    HasOwner s' restaurantId := by
  obtain ⟨o, ho, howner⟩ := h
  cases hs with
  | same hs' =>
    subst hs'
    exact ⟨o, ho, howner⟩
  | revoked _ hsame => exact ⟨o, by rw [hsame]; exact ho, howner⟩
  | updated c target hphase hs' =>
    subst hphase hs'
    by_cases hleft : c.leavingOwner target = true ∧ o.id = c.userId ∧ o.restaurantId = c.restaurantId
    · -- Another owner has been counted.
      obtain ⟨hleaving, -, hrid⟩ := hleft
      obtain ⟨o', ho', howner', hne⟩ := ht.2 hleaving
      have horid : o.restaurantId = restaurantId := by
        simp only [User.isOwner, Bool.and_eq_true, decide_eq_true_eq] at howner
        exact howner.1.1
      obtain ⟨o'', ho'', howner'', -⟩ :=
        StaffUpdate.owner_after ht.1 ho' howner' fun _ heq => absurd heq hne
      exact ⟨o'', ho'', by rw [← horid, hrid]; exact howner''⟩
    · obtain ⟨o', ho', howner', -⟩ := StaffUpdate.owner_after ht.1 ho howner
        fun hleaving hid hrid => hleft ⟨hleaving, hid, hrid⟩
      exact ⟨o', ho', howner'⟩

end Statements

/-- What a call has read and counted stays true until it commits. -/
theorem staffingRule (restaurantId : Uuid) : staffing.Rule (fun _ => True) (fun _ _ _ => True)
    (HasOwner · restaurantId) StaffPhase.Sound StaffPhase.Apart where
  symm t u h := ⟨fun userId => Protocol.excludes_symm (h.user userId),
    fun restaurantId => Protocol.excludes_symm (h.restaurant restaurantId)⟩
  start s c _ _ := ⟨trivial, fun _ _ => ⟨nofun, nofun⟩⟩
  goes s us t hI ht hus _ s' t' answer hnext := by
    obtain ⟨-, hgoes⟩ := next_goes_staffed hnext
    refine ⟨hI.staffed ht hgoes.staffed, hgoes.sound ht, fun u hu =>
      ⟨(hus u hu).1.staffed ht (hus u hu).2 hgoes.staffed, ?_, ?_⟩⟩
    · intro userId hlocks
      rcases hgoes.user userId hlocks with hold | hfree
      · exact (hus u hu).2.user userId hold
      · exact hfree u hu
    · intro restaurantId hlocks
      rcases hgoes.restaurant restaurantId hlocks with hold | hfree
      · exact (hus u hu).2.restaurant restaurantId hold
      · exact hfree u hu
  ends s us t hI ht hus _ s' answer hnext := by
    obtain ⟨hs, -⟩ := next_ends_staffed hnext
    exact ⟨hI.staffed ht hs, fun u hu => (hus u hu).1.staffed ht (hus u hu).2 hs⟩

/-- A call that is refused has not committed. -/
theorem staffing_hushed : staffing.Hushed StaffPhase.Accepted StaffEvent.IsRefused where
  quiet s us t s' t' answer hnext := (next_goes_staffed hnext).2.after
  keeps s us t s' t' answer ht hnext := absurd ht (next_goes_staffed hnext).2.before
  refused s us t := by
    rintro ⟨o, ho, hrefused⟩
    cases hnext : staffing.next s us t with
    | waits =>
      rw [hnext] at ho
      cases ho
    | goes s' t' answer =>
      rw [hnext, show (Advance.goes s' t' answer).answer = answer from rfl,
        (next_goes_staffed hnext).1] at ho
      cases ho
    | ends s' answer =>
      rw [hnext] at ho
      exact (next_ends_staffed hnext).2 ⟨o, ho, hrefused⟩

/-! ## The last owner -/

/-- Whatever calls of `updateStaff` run beside each other, a restaurant that has an active owner keeps
one at every commit, and a call that is refused has changed nothing. -/
theorem owner_remains (s : AuthState) (restaurantId : Uuid) (moves : List (Move StaffUpdate))
    (h : HasOwner s restaurantId) :
    staffing.machine.Every (fun w m => HasOwner (staffing.machine.step w m).1.committed restaurantId)
        (Sessions.start s) moves ∧
      staffing.QuietWhen StaffEvent.IsRefused (Sessions.start s) moves := by
  refine ⟨?_, staffing_hushed.quietWhen _ _⟩
  refine (staffingRule restaurantId).every (fun w m hw hm => ?_) (.start h)
    (Protocol.every_allowed fun _ _ _ => trivial)
  exact ((staffingRule restaurantId).step w m hw hm).committed

/-! ## Two owners who remove each other -/

def twoOwners : AuthState where
  users := ⟨[⟨1, 1, "ana@example.com", "OWNER", true, none⟩,
    ⟨2, 1, "luis@example.com", "OWNER", true, none⟩], by decide⟩
  sessions := ∅
  audit := []

/-- Both have locked the row of the other; the second one waits for the restaurant. -/
theorem last_owner_stays :
    staffing.machine.Every (fun w m => HasOwner (staffing.machine.step w m).1.committed 1)
        (Sessions.start twoOwners)
        [.start 0 ⟨1, ⟨1, "OWNER"⟩, 2, none, some false, 0⟩,
          .start 1 ⟨1, ⟨2, "OWNER"⟩, 1, some "WAITER", none, 0⟩,
          .go 0, .go 1, .go 0, .go 1, .go 0, .go 1, .go 0, .go 1, .go 0, .go 1, .go 1, .go 1] ∧
      staffing.QuietWhen StaffEvent.IsRefused (Sessions.start twoOwners)
        [.start 0 ⟨1, ⟨1, "OWNER"⟩, 2, none, some false, 0⟩,
          .start 1 ⟨1, ⟨2, "OWNER"⟩, 1, some "WAITER", none, 0⟩,
          .go 0, .go 1, .go 0, .go 1, .go 0, .go 1, .go 0, .go 1, .go 0, .go 1, .go 1, .go 1] :=
  owner_remains twoOwners 1 _ (by decide)

end Splite
