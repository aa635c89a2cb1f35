import Splite.Staff.Owners
import Splite.Lib.Spending
import Splite.Mercantil.Matcher

/-!
# Invitations to the staff (`services/staffInvitations.js`)

`createInvitation`, `revokeInvitation` and `acceptInvitation` beside each other, statement by statement.
What a transaction has written and not committed is in its phase, with the rows that it has locked; a
statement waits for them, and looks at its row again behind that.

* `invitingRule`: an address has one open invitation, and a call that has locked one is the only one that
  closes it.
* `links_exclusive`: each link lets in once, and none does behind a revocation or a newer link.
-/

namespace Splite

/-- A row of `staff_invitations`, with its check that it is closed in one way. -/
structure StaffInvitation where
  id : Uuid
  restaurantId : Uuid
  email : String
  role : String
  tokenHash : String
  invitedBy : Uuid
  createdAt : Time
  expiresAt : Time
  acceptedAt : Option Time
  acceptedUserId : Option Uuid
  revokedAt : Option Time
  closed_check : ¬(acceptedAt.isSome = true ∧ revokedAt.isSome = true)
  deriving DecidableEq, Repr

instance : Keyed StaffInvitation Uuid := ⟨StaffInvitation.id⟩

namespace StaffInvitation

def isOpen (r : StaffInvitation) : Bool := r.acceptedAt.isNone && r.revokedAt.isNone

/-- What `staff_invitations_open_idx` is on. -/
def address (r : StaffInvitation) : Uuid × List Char := (r.restaurantId, lowered r.email)

/-- `SET revoked_at = now()`, of a row that has not been accepted. -/
def revoke (now : Time) (r : StaffInvitation) : StaffInvitation :=
  if h : r.acceptedAt.isSome = true then r
  else { r with revokedAt := some now, closed_check := fun hclosed => h hclosed.1 }

/-- `SET accepted_at = now(), accepted_user_id = $2`, of a row that has not been revoked. -/
def accept (now : Time) (userId : Uuid) (r : StaffInvitation) : StaffInvitation :=
  if h : r.revokedAt.isSome = true then r
  else { r with acceptedAt := some now, acceptedUserId := some userId
                closed_check := fun hclosed => h hclosed.2 }

theorem revoke_key (now : Time) (r : StaffInvitation) : Keyed.key (revoke now r) = Keyed.key r := by
  unfold revoke
  split <;> rfl

theorem accept_key (now : Time) (userId : Uuid) (r : StaffInvitation) :
    Keyed.key (accept now userId r) = Keyed.key r := by
  unfold accept
  split <;> rfl

end StaffInvitation

/-- The tables as committed, and the clock. -/
structure InvitationDb where
  auth : AuthState
  invitations : Table StaffInvitation
  now : Time
  deriving DecidableEq

/-- Milliseconds. -/
def INVITATION_TTL : Time := 7 * 24 * 60 * 60 * 1000

/-- The arguments of `createInvitation`, with the id and the token of the new row. -/
structure NewInvitation where
  restaurantId : Uuid
  actor : Actor
  email : String
  role : String
  id : Uuid
  token : String
  deriving DecidableEq, Repr

def NewInvitation.address (c : NewInvitation) : Uuid × List Char := (c.restaurantId, lowered c.email)

/-- The arguments of `acceptInvitation`, with the ids of the new account and of its session. -/
structure Acceptance where
  token : String
  displayName : Option String
  userId : Uuid
  jti : Uuid
  deriving DecidableEq, Repr

inductive InviteCall where
  | create (c : NewInvitation)
  | revoke (restaurantId : Uuid) (actor : Actor) (invitationId : Uuid)
  | accept (a : Acceptance)
  | elapse (ms : Nat)
  deriving DecidableEq, Repr

/-- The next statement; `started` is `now()` of its transaction. -/
inductive InvitePhase where
  | begun (call : InviteCall)
  /-- `SELECT 1 FROM users …` -/
  | checkEmail (c : NewInvitation) (started : Time)
  /-- The `UPDATE` of `createInvitation` takes its snapshot. -/
  | seeing (c : NewInvitation) (started : Time)
  /-- It has found an open row, and waits for it. -/
  | replacing (c : NewInvitation) (started : Time) (id : Uuid)
  /-- The row is revoked, if it was still open. -/
  | inserting (c : NewInvitation) (started : Time) (revoked : Option Uuid)
  /-- `COMMIT` of `createInvitation`. -/
  | inserted (c : NewInvitation) (started : Time) (revoked : Option Uuid)
  /-- The `UPDATE` of `revokeInvitation`. -/
  | revoking (restaurantId invitationId : Uuid) (started : Time)
  /-- `SELECT … FOR UPDATE` of `acceptInvitation`. -/
  | locking (a : Acceptance) (started : Time)
  | creating (a : Acceptance) (inv : StaffInvitation) (started : Time)
  | created (a : Acceptance) (inv : StaffInvitation) (user : User) (started : Time)
  /-- The invitation is stamped; `issueSession`, and `COMMIT`. -/
  | stamped (a : Acceptance) (inv : StaffInvitation) (user : User) (started : Time)
  deriving DecidableEq, Repr

namespace InvitePhase

/-- It has locked the row. -/
def locks (id : Uuid) : InvitePhase → Bool
  | .inserting _ _ revoked | .inserted _ _ revoked => revoked = some id
  | .creating _ inv _ | .created _ inv _ _ | .stamped _ inv _ _ => inv.id = id
  | _ => false

/-- It has written the row. -/
def writes (id : Uuid) : InvitePhase → Bool
  | .inserting _ _ revoked | .inserted _ _ revoked => revoked = some id
  | .stamped _ inv _ _ => inv.id = id
  | _ => false

/-- It has inserted an invitation which has the address, the id or the token of `c`. -/
def inserts (c : NewInvitation) : InvitePhase → Bool
  | .inserted c' _ _ => c'.address = c.address || c'.id = c.id || c'.token = c.token
  | _ => false

/-- It has inserted an account which has the address or the id. -/
def insertsUser (email : String) (userId : Uuid) : InvitePhase → Bool
  | .created _ _ user _ | .stamped _ _ user _ => lowered user.email = lowered email || user.id = userId
  | _ => false

end InvitePhase

inductive InviteEvent where
  | invited (inv : StaffInvitation)
  | revoked (id : Uuid)
  | accepted (inv : StaffInvitation) (user : User) (started : Time)
  | refused (err : Err)
  deriving DecidableEq, Repr

namespace InvitationDb

/-- The open invitation of an address; its index leaves one. -/
def open? (s : InvitationDb) (address : Uuid × List Char) : Option StaffInvitation :=
  s.invitations.rows.find? fun r => r.isOpen && r.address = address

end InvitationDb

section Services

variable {Token : Type} (codec : TokenCodec Token) (config : AuthConfig) (hashToken : String → String)

/-- The row that `createInvitation` inserts. -/
def NewInvitation.row (c : NewInvitation) (started : Time) : StaffInvitation where
  id := c.id
  restaurantId := c.restaurantId
  email := c.email
  role := c.role
  tokenHash := hashToken c.token
  invitedBy := c.actor.id
  createdAt := started
  expiresAt := started + INVITATION_TTL
  acceptedAt := none
  acceptedUserId := none
  revokedAt := none
  closed_check := by simp

/-- The account that `acceptInvitation` inserts. -/
def Acceptance.user (a : Acceptance) (inv : StaffInvitation) : User where
  id := a.userId
  restaurantId := inv.restaurantId
  email := inv.email
  role := inv.role
  active := true
  displayName := (a.displayName.map fun name => String.ofList (Mercantil.trimmed name.toList)).filter
    fun name => name ≠ ""

/-- `SELECT … WHERE token_hash = $1 AND accepted_at IS NULL AND revoked_at IS NULL AND expires_at >
now()`. -/
def InvitationDb.link? (s : InvitationDb) (token : String) (started : Time) : Option StaffInvitation :=
  s.invitations.rows.find? fun r =>
    r.tokenHash = hashToken token && r.isOpen && started < r.expiresAt

/-- What a unique index refuses a new invitation for. -/
def InvitationDb.clash (s : InvitationDb) (c : NewInvitation) (revoked : Option Uuid) : Option String :=
  if (s.invitations.find? c.id).isSome then some "staff_invitations_pkey"
  else if s.invitations.rows.any (·.tokenHash = hashToken c.token) then
    some "staff_invitations_token_hash_key"
  else if s.invitations.rows.any fun r => r.isOpen && r.address = c.address && some r.id ≠ revoked then
    some "staff_invitations_open_idx"
  else none

/-- What `createInvitation` commits. -/
def InvitationDb.invite (s : InvitationDb) (c : NewInvitation) (started : Time) (revoked : Option Uuid) :
    Option InvitationDb :=
  let revokedRows := revoked.elim s.invitations fun id =>
    s.invitations.update id (StaffInvitation.revoke started) (StaffInvitation.revoke_key started)
  (revokedRows.insert? (c.row hashToken started)).map fun invitations => { s with invitations }

/-- What `acceptInvitation` commits, with the session. -/
def InvitationDb.join (s : InvitationDb) (a : Acceptance) (inv : StaffInvitation) (user : User)
    (started : Time) : Except Err InvitationDb :=
  match s.auth.users.insert? user with
  | none => .error (.uniqueViolation "users_pkey")
  | some users =>
    match (issueSession codec config s.now a.jti user).run { s.auth with users } with
    | .error err _ => .error err
    | .ok _ auth => .ok { s with
        auth
        invitations := s.invitations.update inv.id (StaffInvitation.accept started user.id)
          (StaffInvitation.accept_key started user.id) }

/-- The next statement, beside the other calls. -/
def InvitePhase.next (s : InvitationDb) (others : List InvitePhase) :
    InvitePhase → Advance InvitationDb InvitePhase InviteEvent
  | .begun (.create c) =>
    match assertMayAssign c.actor.role c.role with
    | .error err => .ends s [.refused err]
    | .ok () => .goes s (.checkEmail c s.now) []
  | .begun (.revoke restaurantId actor invitationId) =>
    match (s.invitations.find? invitationId).filter fun r =>
        r.restaurantId = restaurantId && r.isOpen with
    | none => .ends s [.refused (.api .staffInvitationNotFound "Invitation not found" [])]
    | some inv =>
      match assertMayAssign actor.role inv.role with
      | .error err => .ends s [.refused err]
      | .ok () => .goes s (.revoking restaurantId invitationId s.now) []
  | .begun (.accept a) => .goes s (.locking a s.now) []
  | .begun (.elapse ms) => .ends { s with now := s.now + ms } []
  | .checkEmail c started =>
    if s.auth.users.rows.any fun u => (u.restaurantId, lowered u.email) = c.address then
      .ends s [.refused (.api .staffEmailTaken "Somebody here already uses that address"
        [("email", c.email)])]
    else .goes s (.seeing c started) []
  | .seeing c started =>
    match s.open? c.address with
    | none => .goes s (.inserting c started none) []
    | some r => .goes s (.replacing c started r.id) []
  | .replacing c started id =>
    if others.any (locks id) then .waits
    else .goes s (.inserting c started ((s.invitations.find? id).filter (·.isOpen) |>.map (·.id))) []
  | .inserting c started revoked =>
    if (RANK c.role).isNone then .ends s [.refused (.checkViolation "staff_invitations_role_check")]
    else if others.any (inserts c) then .waits
    else
      match s.clash hashToken c revoked with
      | none => .goes s (.inserted c started revoked) []
      | some constraint =>
        -- A row that another call has closed and not committed may still stay open.
        if constraint = "staff_invitations_open_idx" ∧
            (s.open? c.address).any (fun r => others.any (writes r.id)) then .waits
        else .ends s [.refused (.uniqueViolation constraint)]
  | .inserted c started revoked =>
    match s.invite hashToken c started revoked with
    | none => .ends s [.refused (.uniqueViolation "staff_invitations_pkey")]
    | some s' => .ends s' [.invited (c.row hashToken started)]
  | .revoking restaurantId invitationId started =>
    if others.any (locks invitationId) then .waits
    else
      match (s.invitations.find? invitationId).filter fun r => r.restaurantId = restaurantId with
      | none => .ends s []
      | some inv =>
        -- `CHECK (NOT (accepted_at IS NOT NULL AND revoked_at IS NOT NULL))`.
        if inv.acceptedAt.isSome then
          .ends s [.refused (.checkViolation "staff_invitations_closed_check")]
        else
          .ends { s with
            invitations := s.invitations.update invitationId (StaffInvitation.revoke started)
              (StaffInvitation.revoke_key started) }
            [.revoked invitationId]
  | .locking a started =>
    match s.link? hashToken a.token started with
    | none => .ends s [.refused (.api .invitationInvalid "This invitation is not valid anymore" [])]
    | some inv =>
      if others.any (locks inv.id) then .waits else .goes s (.creating a inv started) []
  | .creating a inv started =>
    if others.any (insertsUser inv.email a.userId) then .waits
    else if s.auth.users.rows.any fun u => lowered u.email = lowered inv.email || u.id = a.userId then
      .ends s [.refused (.api .invitationEmailInUse
        "That address already has a Splite account; ask to be invited with another one" [])]
    else .goes s (.created a inv (a.user inv) started) []
  | .created a inv user started => .goes s (.stamped a inv user started) []
  | .stamped a inv user started =>
    match s.join codec config a inv user started with
    | .error err => .ends s [.refused err]
    | .ok s' => .ends s' [.accepted inv user started]

def inviting : Protocol InvitationDb InvitePhase InviteCall InviteEvent where
  start := .begun
  next := InvitePhase.next codec config hashToken

end Services

/-! ## What is locked -/

namespace InvitationDb

/-- An address has one open invitation. -/
def OneOpen (s : InvitationDb) : Prop :=
  ∀ r ∈ s.invitations, ∀ r' ∈ s.invitations, r.isOpen = true → r'.isOpen = true →
    r.address = r'.address → r = r'

/-- The invitation is as it was when it was locked: open, and not expired when the transaction began. -/
structure Linked (s : InvitationDb) (inv : StaffInvitation) (started : Time) : Prop where
  row : s.invitations.find? inv.id = some inv
  isOpen : inv.isOpen = true
  expires : started < inv.expiresAt

/-- The row that a call has revoked in its transaction is open, and of its address. -/
def Revokes (s : InvitationDb) (c : NewInvitation) (revoked : Option Uuid) : Prop :=
  ∀ id ∈ revoked, ∃ r, s.invitations.find? id = some r ∧ r.isOpen = true ∧ r.address = c.address

end InvitationDb

namespace InvitePhase

/-- What a call knows by its next statement. -/
def Sound (s : InvitationDb) : InvitePhase → Prop
  | .replacing c _ id => ∃ r, s.invitations.find? id = some r ∧ r.address = c.address
  | .inserting c _ revoked => s.Revokes c revoked
  | .inserted c _ revoked => s.Revokes c revoked ∧
    ∀ r ∈ s.invitations, r.isOpen = true → r.address = c.address → revoked = some r.id
  | .creating _ inv started => s.Linked inv started
  | .created a inv user started | .stamped a inv user started => s.Linked inv started ∧ user = a.user inv
  | _ => True

/-- It has inserted an invitation for the address. -/
def insertsAt (address : Uuid × List Char) : InvitePhase → Bool
  | .inserted c _ _ => c.address = address
  | _ => false

/-- No two calls have locked one row, or have inserted for one address. -/
structure Apart (t u : InvitePhase) : Prop where
  row : ∀ id, t.locks id = true → u.locks id = false
  address : ∀ address, t.insertsAt address = true → u.insertsAt address = false

theorem Apart.symm {t u : InvitePhase} (h : t.Apart u) : u.Apart t where
  row id := Protocol.excludes_symm (h.row id)
  address address := Protocol.excludes_symm (h.address address)

end InvitePhase

def InviteEvent.IsRefused : InviteEvent → Prop
  | .refused _ => True
  | _ => False

section Statements

variable {Token : Type} {codec : TokenCodec Token} {config : AuthConfig} {hashToken : String → String}
  {s s' : InvitationDb} {t t' u : InvitePhase} {us : List InvitePhase} {answer : List InviteEvent}

/-- What a statement commits and answers. -/
inductive InviteDoes (codec : TokenCodec Token) (config : AuthConfig) (hashToken : String → String)
    (s s' : InvitationDb) (us : List InvitePhase) (t : InvitePhase) : List InviteEvent → Prop where
  | quiet (answer : List InviteEvent) : s'.invitations = s.invitations → s'.auth = s.auth →
      (∀ e ∈ answer, e.IsRefused ∧ s' = s) → answer.length ≤ 1 →
      InviteDoes codec config hashToken s s' us t answer
  | invited (c : NewInvitation) (started : Time) (revoked : Option Uuid) :
      t = .inserted c started revoked → s.invite hashToken c started revoked = some s' →
      InviteDoes codec config hashToken s s' us t [.invited (c.row hashToken started)]
  | revoked (restaurantId id : Uuid) (started : Time) (inv : StaffInvitation) :
      t = .revoking restaurantId id started → (∀ u ∈ us, u.locks id = false) →
      s.invitations.find? id = some inv → inv.acceptedAt = none →
      s' = { s with
        invitations := s.invitations.update id (StaffInvitation.revoke started)
          (StaffInvitation.revoke_key started) } →
      InviteDoes codec config hashToken s s' us t [.revoked id]
  | accepted (a : Acceptance) (inv : StaffInvitation) (user : User) (started : Time) :
      t = .stamped a inv user started → s.join codec config a inv user started = .ok s' →
      InviteDoes codec config hashToken s s' us t [.accepted inv user started]

/-- Where a statement leaves its call: nothing is committed, what it locks it had locked or nobody has, and
so with what it inserts. -/
structure InviteGoes (s s' : InvitationDb) (us : List InvitePhase) (t t' : InvitePhase)
    (answer : List InviteEvent) : Prop where
  same : s' = s
  silent : answer = []
  sound : t.Sound s → t'.Sound s
  row : ∀ id, t'.locks id = true → t.locks id = true ∨ ∀ u ∈ us, u.locks id = false
  address : ∀ address, t'.insertsAt address = true → ∀ u ∈ us, u.insertsAt address = false

theorem not_any_of_ite {p : InvitePhase → Bool} (h : ¬us.any p = true) : ∀ u ∈ us, p u = false := by
  simpa using h

theorem invitation_clash_eq_none {c : NewInvitation} {revoked : Option Uuid}
    (h : s.clash hashToken c revoked = none) :
    ∀ r ∈ s.invitations, r.isOpen = true → r.address = c.address → revoked = some r.id := by
  unfold InvitationDb.clash at h
  split at h
  · cases h
  · split at h
    · cases h
    · split at h
      · cases h
      · rename_i hnone
        intro r hr hopen haddress
        by_contra hne
        refine hnone (List.any_eq_true.mpr ⟨r, hr, ?_⟩)
        simp [hopen, haddress, Ne.symm hne]

theorem next_goes_invite (h : t.next codec config hashToken s us = .goes s' t' answer) :
    InviteGoes s s' us t t' answer := by
  cases t with
  | begun call =>
    cases call with
    | create c =>
      unfold InvitePhase.next at h
      dsimp only at h
      split at h <;> cases h
      exact ⟨rfl, rfl, fun _ => trivial, by rintro _ ⟨⟩, by rintro _ ⟨⟩⟩
    | revoke restaurantId actor invitationId =>
      unfold InvitePhase.next at h
      dsimp only at h
      split at h
      · cases h
      · split at h <;> cases h
        exact ⟨rfl, rfl, fun _ => trivial, by rintro _ ⟨⟩, by rintro _ ⟨⟩⟩
    | accept a =>
      cases h
      exact ⟨rfl, rfl, fun _ => trivial, by rintro _ ⟨⟩, by rintro _ ⟨⟩⟩
    | elapse ms => cases h
  | checkEmail c started =>
    unfold InvitePhase.next at h
    dsimp only at h
    split at h <;> cases h
    exact ⟨rfl, rfl, fun _ => trivial, by rintro _ ⟨⟩, by rintro _ ⟨⟩⟩
  | seeing c started =>
    unfold InvitePhase.next at h
    dsimp only at h
    split at h
    · cases h
      exact ⟨rfl, rfl, fun _ _ hid => by simp at hid, fun id hid => by simp [InvitePhase.locks] at hid,
        by rintro _ ⟨⟩⟩
    · rename_i r hr
      cases h
      have haddress := List.find?_some hr
      simp only [Bool.and_eq_true, decide_eq_true_eq] at haddress
      exact ⟨rfl, rfl, fun _ => ⟨r, Table.find?_eq_some.mpr ⟨List.mem_of_find?_eq_some hr, rfl⟩,
        haddress.2⟩, by rintro _ ⟨⟩, by rintro _ ⟨⟩⟩
  | replacing c started id =>
    unfold InvitePhase.next at h
    dsimp only at h
    split at h
    · cases h
    · rename_i hfree
      cases h
      have hfree := not_any_of_ite hfree
      refine ⟨rfl, rfl, ?_, fun id' hid' => .inr ?_, by rintro _ ⟨⟩⟩
      · rintro ⟨r, hr, haddress⟩ id' hid'
        rw [hr] at hid'
        obtain ⟨r', hr', rfl⟩ := Option.map_eq_some_iff.mp hid'
        obtain ⟨hsome, hopen⟩ := Option.filter_eq_some_iff.mp hr'
        cases hsome
        obtain rfl : r.id = id := Table.find?_key hr
        exact ⟨r, hr, hopen, haddress⟩
      · have hid' : ((s.invitations.find? id).filter (·.isOpen)).map (·.id) = some id' := by
          simpa [InvitePhase.locks] using hid'
        obtain ⟨r', hr', rfl⟩ := Option.map_eq_some_iff.mp hid'
        have hkey : r'.id = id := Table.find?_key (Option.filter_eq_some_iff.mp hr').1
        rw [hkey]
        exact hfree
  | inserting c started revoked =>
    unfold InvitePhase.next at h
    dsimp only at h
    split at h
    · cases h
    · split at h
      · cases h
      · rename_i hfree
        split at h
        · rename_i hclash
          cases h
          have hfree := not_any_of_ite hfree
          refine ⟨rfl, rfl, fun hsound => ⟨hsound, invitation_clash_eq_none hclash⟩,
            fun id hid => .inl hid, ?_⟩
          intro address haddress u hu
          have haddress : c.address = address := by simpa [InvitePhase.insertsAt] using haddress
          have hnot := hfree u hu
          subst haddress
          cases u with
          | inserted c' started' revoked' =>
            simp only [InvitePhase.inserts, Bool.or_eq_false_iff] at hnot
            exact hnot.1.1
          | _ => rfl
        · split at h <;> cases h
  | inserted c started revoked =>
    unfold InvitePhase.next at h
    dsimp only at h
    split at h <;> cases h
  | revoking restaurantId id started =>
    unfold InvitePhase.next at h
    dsimp only at h
    split at h
    · cases h
    · split at h
      · cases h
      · split at h <;> cases h
  | locking a started =>
    unfold InvitePhase.next at h
    dsimp only at h
    split at h
    · cases h
    · rename_i inv hlink
      split at h
      · cases h
      · rename_i hfree
        cases h
        have hfree := not_any_of_ite hfree
        have hlinked := List.find?_some hlink
        simp only [Bool.and_eq_true, decide_eq_true_eq] at hlinked
        refine ⟨rfl, rfl, fun _ => ⟨?_, hlinked.1.2, hlinked.2⟩, fun id hid => .inr ?_, by rintro _ ⟨⟩⟩
        · exact Table.find?_eq_some.mpr ⟨List.mem_of_find?_eq_some hlink, rfl⟩
        · obtain rfl : inv.id = id := by simpa [InvitePhase.locks] using hid
          exact hfree
  | creating a inv started =>
    unfold InvitePhase.next at h
    dsimp only at h
    split at h
    · cases h
    · split at h <;> cases h
      exact ⟨rfl, rfl, fun hsound => ⟨hsound, rfl⟩, fun id hid => .inl hid, by rintro _ ⟨⟩⟩
  | created a inv user started =>
    cases h
    exact ⟨rfl, rfl, id, fun id hid => .inl hid, by rintro _ ⟨⟩⟩
  | stamped a inv user started =>
    unfold InvitePhase.next at h
    dsimp only at h
    split at h <;> cases h

theorem next_ends_invite (h : t.next codec config hashToken s us = .ends s' answer) :
    InviteDoes codec config hashToken s s' us t answer := by
  have hrefused : ∀ err, InviteDoes codec config hashToken s s us t [.refused err] := fun err =>
    .quiet _ rfl rfl (fun e he => by
      obtain rfl := List.mem_singleton.mp he
      exact ⟨trivial, rfl⟩) le_rfl
  cases t with
  | begun call =>
    cases call with
    | create c =>
      unfold InvitePhase.next at h
      dsimp only at h
      split at h <;> cases h
      exact hrefused _
    | revoke restaurantId actor invitationId =>
      unfold InvitePhase.next at h
      dsimp only at h
      split at h
      · cases h
        exact hrefused _
      · split at h <;> cases h
        exact hrefused _
    | accept a => cases h
    | elapse ms =>
      cases h
      exact .quiet _ rfl rfl (fun e he => absurd he List.not_mem_nil) Nat.one_pos.le
  | checkEmail c started =>
    unfold InvitePhase.next at h
    dsimp only at h
    split at h <;> cases h
    exact hrefused _
  | seeing c started =>
    unfold InvitePhase.next at h
    dsimp only at h
    split at h <;> cases h
  | replacing c started id =>
    unfold InvitePhase.next at h
    dsimp only at h
    split at h <;> cases h
  | inserting c started revoked =>
    unfold InvitePhase.next at h
    dsimp only at h
    split at h
    · cases h
      exact hrefused _
    · split at h
      · cases h
      · split at h
        · cases h
        · split at h <;> cases h
          exact hrefused _
  | inserted c started revoked =>
    unfold InvitePhase.next at h
    dsimp only at h
    split at h
    · cases h
      exact hrefused _
    · rename_i s₁ hinvite
      cases h
      exact .invited c started revoked rfl hinvite
  | revoking restaurantId id started =>
    unfold InvitePhase.next at h
    dsimp only at h
    split at h
    · cases h
    · rename_i hfree
      split at h
      · cases h
        exact .quiet _ rfl rfl (fun e he => absurd he List.not_mem_nil) Nat.one_pos.le
      · rename_i inv hinv
        split at h
        · cases h
          exact hrefused _
        · rename_i haccepted
          cases h
          exact .revoked restaurantId id started inv rfl (not_any_of_ite hfree)
            (Option.filter_eq_some_iff.mp hinv).1 (by simpa using haccepted) rfl
  | locking a started =>
    unfold InvitePhase.next at h
    dsimp only at h
    split at h
    · cases h
      exact hrefused _
    · split at h <;> cases h
  | creating a inv started =>
    unfold InvitePhase.next at h
    dsimp only at h
    split at h
    · cases h
    · split at h <;> cases h
      exact hrefused _
  | created a inv user started => cases h
  | stamped a inv user started =>
    unfold InvitePhase.next at h
    dsimp only at h
    split at h
    · cases h
      exact hrefused _
    · rename_i s₁ hjoin
      cases h
      exact .accepted a inv user started rfl hjoin

/-- The row of an invitation after a statement, and who may have closed it. -/
structure RowStays (s' : InvitationDb) (us : List InvitePhase) (t : InvitePhase) (r r' : StaffInvitation) :
    Prop where
  row : s'.invitations.find? r.id = some r'
  id : r'.id = r.id
  address : r'.address = r.address
  closed : r' = r ∨ r'.isOpen = false ∧ (t.locks r.id = true ∨ ∀ u ∈ us, u.locks r.id = false)

theorem revoke_isOpen {now : Time} {r : StaffInvitation} : (r.revoke now).isOpen = false := by
  unfold StaffInvitation.revoke
  split
  · rename_i h
    obtain ⟨since, haccepted⟩ := Option.isSome_iff_exists.mp h
    simp [StaffInvitation.isOpen, haccepted]
  · simp [StaffInvitation.isOpen]

theorem accept_isOpen {now : Time} {userId : Uuid} {r : StaffInvitation} :
    (r.accept now userId).isOpen = false := by
  unfold StaffInvitation.accept
  split
  · rename_i h
    obtain ⟨since, hrevoked⟩ := Option.isSome_iff_exists.mp h
    simp [StaffInvitation.isOpen, hrevoked]
  · simp [StaffInvitation.isOpen]

theorem revoke_address {now : Time} {r : StaffInvitation} : (r.revoke now).address = r.address := by
  unfold StaffInvitation.revoke
  split <;> rfl

theorem accept_address {now : Time} {userId : Uuid} {r : StaffInvitation} :
    (r.accept now userId).address = r.address := by
  unfold StaffInvitation.accept
  split <;> rfl

theorem join_ok {a : Acceptance} {inv : StaffInvitation} {user : User} {started : Time}
    (h : s.join codec config a inv user started = .ok s') :
    (∃ users, s.auth.users.insert? user = some users ∧ s'.auth.users = users) ∧
      s'.invitations = s.invitations.update inv.id (StaffInvitation.accept started user.id)
        (StaffInvitation.accept_key started user.id) := by
  unfold InvitationDb.join at h
  split at h
  · cases h
  · rename_i users husers
    split at h
    · cases h
    · rename_i issued auth hissue
      cases h
      refine ⟨⟨users, husers, ?_⟩, rfl⟩
      obtain ⟨_, _, -, -, -, rfl⟩ := issueSession_ok hissue
      rfl

/-- The rows behind an invitation: the one of before is revoked, and the new one is there. -/
theorem invite_rows {c : NewInvitation} {started : Time} {revoked : Option Uuid}
    (h : s.invite hashToken c started revoked = some s') : s'.auth = s.auth ∧
      (∀ r ∈ s.invitations, s'.invitations.find? r.id =
        some (if revoked = some r.id then r.revoke started else r)) ∧
      s'.invitations.find? c.id = some (c.row hashToken started) ∧
      ∀ r' ∈ s'.invitations, r' = c.row hashToken started ∨
        ∃ r ∈ s.invitations, r' = if revoked = some r.id then r.revoke started else r := by
  unfold InvitationDb.invite at h
  dsimp only at h
  obtain ⟨invitations, hins, rfl⟩ := Option.map_eq_some_iff.mp h
  have hkey : Keyed.key (c.row hashToken started) = c.id := rfl
  have hrows : ∀ r ∈ s.invitations, (revoked.elim s.invitations fun id =>
      s.invitations.update id (StaffInvitation.revoke started)
        (StaffInvitation.revoke_key started)).find? r.id =
      some (if revoked = some r.id then r.revoke started else r) := by
    intro r hr
    have hfind : s.invitations.find? r.id = some r := Table.find?_eq_some.mpr ⟨hr, rfl⟩
    cases revoked with
    | none => simpa using hfind
    | some id =>
      rw [Option.elim_some, Table.find?_update_with _ (StaffInvitation.revoke_key started), hfind]
      by_cases hid : r.id = id
      · simp [hid]
      · simp [hid, Ne.symm hid]
  refine ⟨rfl, fun r hr => ?_, ?_, fun r' hr' => ?_⟩
  · rw [Table.find?_insert? hins, if_neg, hrows r hr]
    intro heq
    have hmem := Table.find?_mem (hrows r hr)
    refine (Table.insert?_eq_some.mp hins).1 _ hmem ?_
    rw [Table.find?_key (hrows r hr), heq]
  · rw [Table.find?_insert? hins, if_pos hkey.symm]
  · rcases (Table.mem_insert? hins).mp hr' with hr' | rfl
    · right
      cases revoked with
      | none => exact ⟨r', hr', by simp⟩
      | some id =>
        obtain ⟨r, hr, rfl⟩ := (@Table.mem_update _ _ _ _ s.invitations r' id
          (StaffInvitation.revoke started) (StaffInvitation.revoke_key started)).mp hr'
        refine ⟨r, hr, ?_⟩
        have hkey : Keyed.key r = r.id := rfl
        by_cases hid : r.id = id
        · simp [hkey, hid]
        · simp [hkey, hid, Ne.symm hid]
    · exact .inl rfl

/-- Each row is left, and closed by nobody but who has locked it, or who has found it free. -/
theorem InviteDoes.stays (h : InviteDoes codec config hashToken s s' us t answer) {r : StaffInvitation}
    (hr : r ∈ s.invitations) : ∃ r', RowStays s' us t r r' := by
  have hfind : s.invitations.find? r.id = some r := Table.find?_eq_some.mpr ⟨hr, rfl⟩
  cases h with
  | quiet _ hsame => exact ⟨r, by rw [hsame]; exact hfind, rfl, rfl, .inl rfl⟩
  | invited c started revoked hphase hinvite =>
    obtain ⟨-, hrows, -, -⟩ := invite_rows hinvite
    have hafter := hrows r hr
    by_cases hid : revoked = some r.id
    · rw [if_pos hid] at hafter
      subst hphase
      exact ⟨_, hafter, StaffInvitation.revoke_key started r, revoke_address,
        .inr ⟨revoke_isOpen, .inl (by simp [InvitePhase.locks, hid])⟩⟩
    · rw [if_neg hid] at hafter
      exact ⟨_, hafter, rfl, rfl, .inl rfl⟩
  | revoked restaurantId id started inv _ hfree _ _ hs' =>
    subst hs'
    have hafter := Table.find?_update_with (t := s.invitations) (k := id) (StaffInvitation.revoke started)
      (StaffInvitation.revoke_key started) r.id
    rw [hfind] at hafter
    by_cases hid : r.id = id
    · rw [if_pos hid] at hafter
      exact ⟨_, hafter, StaffInvitation.revoke_key started r, revoke_address,
        .inr ⟨revoke_isOpen, .inr (hid ▸ hfree)⟩⟩
    · rw [if_neg hid] at hafter
      exact ⟨_, hafter, rfl, rfl, .inl rfl⟩
  | accepted a inv user started hphase hjoin =>
    obtain ⟨-, hinvitations⟩ := join_ok hjoin
    have hafter := Table.find?_update_with (t := s.invitations) (k := inv.id)
      (StaffInvitation.accept started user.id) (StaffInvitation.accept_key started user.id) r.id
    rw [hfind, ← hinvitations] at hafter
    by_cases hid : r.id = inv.id
    · rw [if_pos hid] at hafter
      subst hphase
      exact ⟨_, hafter, StaffInvitation.accept_key started user.id r, accept_address,
        .inr ⟨accept_isOpen, .inl (by simp [InvitePhase.locks, hid])⟩⟩
    · rw [if_neg hid] at hafter
      exact ⟨_, hafter, rfl, rfl, .inl rfl⟩

/-- A row that is new is the one that the call has inserted. -/
theorem InviteDoes.new_row (h : InviteDoes codec config hashToken s s' us t answer) {r' : StaffInvitation}
    (hr' : r' ∈ s'.invitations) (hnew : ∀ r ∈ s.invitations, r.id ≠ r'.id) :
    ∃ c started revoked, t = .inserted c started revoked ∧ r' = c.row hashToken started ∧
      s.invite hashToken c started revoked = some s' ∧ answer = [.invited r'] := by
  have hupdate : ∀ {id : Uuid} (f : StaffInvitation → StaffInvitation)
      (hf : ∀ r, Keyed.key (f r) = Keyed.key r), r' ∉ s.invitations.update id f hf := by
    intro id f hf hmem
    obtain ⟨r, hr, rfl⟩ := Table.mem_update.mp hmem
    refine hnew r hr ?_
    split
    · exact (hf r).symm
    · rfl
  cases h with
  | quiet _ hsame => exact absurd rfl (hnew r' (hsame ▸ hr'))
  | invited c started revoked hphase hinvite =>
    obtain ⟨-, -, -, hrows⟩ := invite_rows hinvite
    rcases hrows r' hr' with rfl | ⟨r, hr, rfl⟩
    · exact ⟨c, started, revoked, hphase, rfl, hinvite, rfl⟩
    · refine absurd ?_ (hnew r hr)
      split
      · exact (StaffInvitation.revoke_key started r).symm
      · rfl
  | revoked restaurantId id started inv _ _ _ _ hs' =>
    subst hs'
    exact absurd hr' (hupdate (StaffInvitation.revoke started) (StaffInvitation.revoke_key started))
  | accepted a inv user started _ hjoin =>
    rw [(join_ok hjoin).2] at hr'
    exact absurd hr' (hupdate (StaffInvitation.accept started user.id)
      (StaffInvitation.accept_key started user.id))

/-- A row that is open was so before, or is the one that the call has inserted. -/
theorem InviteDoes.open_row (h : InviteDoes codec config hashToken s s' us t answer) {r' : StaffInvitation}
    (hr' : r' ∈ s'.invitations) (hopen : r'.isOpen = true) : r' ∈ s.invitations ∨
      ∃ c started revoked, t = .inserted c started revoked ∧ r' = c.row hashToken started ∧
        s.invite hashToken c started revoked = some s' ∧ answer = [.invited r'] := by
  by_cases hold : ∃ r ∈ s.invitations, r.id = r'.id
  · obtain ⟨r, hr, hid⟩ := hold
    obtain ⟨r'', hstays⟩ := h.stays hr
    obtain rfl : r'' = r' :=
      Table.eq_of_key (Table.find?_mem hstays.row) hr' ((Table.find?_key hstays.row).trans hid)
    rcases hstays.closed with rfl | ⟨hclosed, -⟩
    · exact .inl hr
    · rw [hclosed] at hopen
      cases hopen
  · exact .inr (h.new_row hr' fun r hr hid => hold ⟨r, hr, hid⟩)

/-- An open row of before is not the one of a new invitation for its address. -/
theorem invited_closes {c : NewInvitation} {started : Time} {revoked : Option Uuid} {r : StaffInvitation}
    (hsound : (InvitePhase.inserted c started revoked).Sound s)
    (hinvite : s.invite hashToken c started revoked = some s') (hr : r ∈ s.invitations)
    (hopen : r.isOpen = true) (haddress : r.address = c.address) : r ∉ s'.invitations := by
  intro hafter
  have hfind := (invite_rows hinvite).2.1 r hr
  rw [hsound.2 r hr hopen haddress, if_pos rfl] at hfind
  obtain heq : r = r.revoke started :=
    Table.eq_of_key hafter (Table.find?_mem hfind) (StaffInvitation.revoke_key started r).symm
  rw [heq, revoke_isOpen] at hopen
  cases hopen

theorem InviteDoes.oneOpen (h : InviteDoes codec config hashToken s s' us t answer) (hs : s.OneOpen)
    (ht : t.Sound s) : s'.OneOpen := by
  have hmixed : ∀ {r c started revoked}, r ∈ s.invitations → r ∈ s'.invitations → r.isOpen = true →
      t = .inserted c started revoked → s.invite hashToken c started revoked = some s' →
      r.address ≠ c.address := by
    intro r c started revoked hr hr' hopen hphase hinvite haddress
    subst hphase
    exact invited_closes ht hinvite hr hopen haddress hr'
  intro r₁ h₁ r₂ h₂ hopen₁ hopen₂ haddress
  rcases h.open_row h₁ hopen₁ with hold₁ | ⟨c, started, revoked, hphase, rfl, hinvite, -⟩
  · rcases h.open_row h₂ hopen₂ with hold₂ | ⟨c, started, revoked, hphase, rfl, hinvite, -⟩
    · exact hs r₁ hold₁ r₂ hold₂ hopen₁ hopen₂ haddress
    · exact absurd haddress (hmixed hold₁ h₁ hopen₁ hphase hinvite)
  · rcases h.open_row h₂ hopen₂ with hold₂ | ⟨c', started', revoked', hphase', rfl, -, -⟩
    · exact absurd haddress.symm (hmixed hold₂ h₂ hopen₂ hphase hinvite)
    · rw [hphase] at hphase'
      cases hphase'
      rfl

/-- What a call knows stays so, whatever another one commits. -/
theorem InviteDoes.sound_other (h : InviteDoes codec config hashToken s s' us t answer) (hu : u.Sound s)
    (hapart : t.Apart u) (hmem : u ∈ us) : u.Sound s' := by
  have hlocked : ∀ {r}, r ∈ s.invitations → u.locks r.id = true → s'.invitations.find? r.id = some r := by
    intro r hr hlocks
    obtain ⟨r', hstays⟩ := h.stays hr
    rcases hstays.closed with rfl | ⟨-, hown | hfree⟩
    · exact hstays.row
    · rw [hapart.row _ hown] at hlocks
      cases hlocks
    · rw [hfree u hmem] at hlocks
      cases hlocks
  have hrevokes : ∀ {c : NewInvitation} {revoked : Option Uuid}, s.Revokes c revoked →
      (∀ id, u.locks id = true ↔ revoked = some id) → s'.Revokes c revoked := by
    intro c revoked hrevokes hlocks id hid
    obtain ⟨r, hr, hopen, haddress⟩ := hrevokes id hid
    obtain rfl : r.id = id := Table.find?_key hr
    exact ⟨r, hlocked (Table.find?_mem hr) ((hlocks _).mpr hid), hopen, haddress⟩
  have hlinked : ∀ {inv : StaffInvitation} {started : Time}, s.Linked inv started →
      u.locks inv.id = true → s'.Linked inv started := fun hlink hlocks =>
    ⟨hlocked (Table.find?_mem hlink.row) hlocks, hlink.isOpen, hlink.expires⟩
  cases u with
  | replacing c started id =>
    obtain ⟨r, hr, haddress⟩ := hu
    obtain rfl : r.id = id := Table.find?_key hr
    obtain ⟨r', hstays⟩ := h.stays (Table.find?_mem hr)
    exact ⟨r', hstays.row, hstays.address.trans haddress⟩
  | inserting c started revoked => exact hrevokes hu fun id => by simp [InvitePhase.locks]
  | inserted c started revoked =>
    refine ⟨hrevokes hu.1 fun id => by simp [InvitePhase.locks], fun r hr hopen haddress => ?_⟩
    rcases h.open_row hr hopen with hold | ⟨c', started', revoked', hphase, rfl, -, -⟩
    · exact hu.2 r hold hopen haddress
    · subst hphase
      have haddress : c'.address = c.address := haddress
      have hnot := hapart.address c.address (by simp [InvitePhase.insertsAt, haddress])
      simp [InvitePhase.insertsAt] at hnot
  | creating a inv started => exact hlinked hu (by simp [InvitePhase.locks])
  | created a inv user started => exact ⟨hlinked hu.1 (by simp [InvitePhase.locks]), hu.2⟩
  | stamped a inv user started => exact ⟨hlinked hu.1 (by simp [InvitePhase.locks]), hu.2⟩
  | begun | checkEmail | seeing | revoking | locking => trivial

end Statements

section Runs

variable {Token : Type} {codec : TokenCodec Token} {config : AuthConfig} {hashToken : String → String}

/-- Calls lock apart, and each address keeps one open invitation. -/
theorem invitingRule : (inviting codec config hashToken).Rule (fun _ => True) (fun _ _ _ => True)
    InvitationDb.OneOpen (fun s t => t.Sound s) InvitePhase.Apart where
  symm _ _ := InvitePhase.Apart.symm
  start s call _ _ := ⟨trivial, fun _ _ => ⟨nofun, nofun⟩⟩
  goes s us t hs ht hus _ s' t' answer hnext := by
    have hgoes := next_goes_invite hnext
    obtain rfl := hgoes.same
    refine ⟨hs, hgoes.sound ht, fun u hu =>
      ⟨(hus u hu).1, ?_, fun address ha => hgoes.address address ha u hu⟩⟩
    intro id hlocks
    rcases hgoes.row id hlocks with hold | hfree
    · exact (hus u hu).2.row id hold
    · exact hfree u hu
  ends s us t hs ht hus _ s' answer hnext := by
    have hdoes := next_ends_invite hnext
    exact ⟨hdoes.oneOpen hs ht, fun u hu => hdoes.sound_other (hus u hu).1 (hus u hu).2 hu⟩

variable (codec config hashToken) in
/-- What any move does is what some statement does. -/
theorem invite_move {w : Sessions InvitationDb InvitePhase}
    (hw : Protocol.Holds InvitationDb.OneOpen (fun s t => t.Sound s) InvitePhase.Apart w)
    (m : Move InviteCall) : ∃ us t, t.Sound w.committed ∧
      InviteDoes codec config hashToken w.committed
        ((inviting codec config hashToken).machine.step w m).1.committed us t
        ((inviting codec config hashToken).machine.step w m).2 := by
  rcases Protocol.move_cases (p := inviting codec config hashToken) w m with
    ⟨r, hfind, -, hcommitted, hanswer⟩ | ⟨hcommitted, hanswer, -⟩
  · rw [hcommitted, hanswer]
    refine ⟨w.others r.id, r.state, hw.session r (Table.find?_mem hfind), ?_⟩
    cases hnext : (inviting codec config hashToken).next w.committed (w.others r.id) r.state with
    | waits => exact .quiet _ rfl rfl (fun e he => absurd he List.not_mem_nil) Nat.one_pos.le
    | goes s' t' answer =>
      have hgoes := next_goes_invite hnext
      obtain rfl := hgoes.same
      obtain rfl := hgoes.silent
      exact .quiet _ rfl rfl (fun e he => absurd he List.not_mem_nil) Nat.one_pos.le
    | ends s' answer => exact next_ends_invite hnext
  · rw [hcommitted, hanswer]
    exact ⟨[], .begun (.elapse 0), trivial,
      .quiet _ rfl rfl (fun e he => absurd he List.not_mem_nil) Nat.one_pos.le⟩

/-! ## One use -/

/-- The account that an invitation has led to. -/
def InviteEvent.accepts : InviteEvent → Option Uuid
  | .accepted inv _ _ => some inv.id
  | _ => none

/-- The invitation is over. -/
def InviteEvent.Closes : InviteEvent → Uuid → Prop
  | .accepted inv _ _, id => inv.id = id
  | .revoked id', id => id' = id
  | _, _ => False

/-- An invitation with its address. -/
structure Link where
  id : Uuid
  address : Uuid × List Char

def InviteEvent.opens : InviteEvent → Option Link
  | .accepted inv _ _ => some ⟨inv.id, inv.address⟩
  | _ => none

/-- Another invitation for the address is there. -/
def InviteEvent.Supersedes : InviteEvent → Link → Prop
  | .invited inv, link => link.address = inv.address ∧ link.id ≠ inv.id
  | _, _ => False

def InviteEvent.Creates : InviteEvent → Link → Prop
  | .invited inv, link => link.address = inv.address ∧ link.id = inv.id
  | _, _ => False

/-- At every moment an address has one open invitation, and none is both accepted and revoked. An account
is created from one that is open, with its role, in a transaction that has begun before it expires. -/
structure Admits (codec : TokenCodec Token) (config : AuthConfig) (hashToken : String → String)
    (w : Sessions InvitationDb InvitePhase) (m : Move InviteCall) : Prop where
  oneOpen : ((inviting codec config hashToken).machine.step w m).1.committed.OneOpen
  closed : ∀ r ∈ ((inviting codec config hashToken).machine.step w m).1.committed.invitations,
    ¬(r.acceptedAt.isSome = true ∧ r.revokedAt.isSome = true)
  accepted : ∀ inv user started,
    .accepted inv user started ∈ ((inviting codec config hashToken).machine.step w m).2 →
      w.committed.Linked inv started ∧
      user ∈ ((inviting codec config hashToken).machine.step w m).1.committed.auth.users ∧
      user.role = inv.role ∧ user.restaurantId = inv.restaurantId ∧ user.email = inv.email
  joined : ∀ user ∈ ((inviting codec config hashToken).machine.step w m).1.committed.auth.users,
    user ∈ w.committed.auth.users ∨ ∃ inv started,
      .accepted inv user started ∈ ((inviting codec config hashToken).machine.step w m).2

theorem admits {w : Sessions InvitationDb InvitePhase}
    (hw : Protocol.Holds InvitationDb.OneOpen (fun s t => t.Sound s) InvitePhase.Apart w)
    (m : Move InviteCall) : Admits codec config hashToken w m := by
  obtain ⟨us, t, ht, hdoes⟩ := invite_move codec config hashToken hw m
  refine ⟨hdoes.oneOpen hw.committed ht, fun r _ => r.closed_check, fun inv user started hmem => ?_,
    fun user huser => ?_⟩
  · generalize hanswer : ((inviting codec config hashToken).machine.step w m).2 = answer at hdoes hmem
    cases hdoes with
    | quiet _ _ _ hrefused => exact absurd (hrefused _ hmem).1 id
    | invited => exact absurd (List.mem_singleton.mp hmem) nofun
    | revoked => exact absurd (List.mem_singleton.mp hmem) nofun
    | accepted a inv' user' started' hphase hjoin =>
      cases List.mem_singleton.mp hmem
      subst hphase
      obtain ⟨hlinked, rfl⟩ := ht
      obtain ⟨⟨users, hins, husers⟩, -⟩ := join_ok hjoin
      exact ⟨hlinked, husers ▸ (Table.mem_insert? hins).mpr (.inr rfl), rfl, rfl, rfl⟩
  · generalize hanswer : ((inviting codec config hashToken).machine.step w m).2 = answer at hdoes
    generalize hafter : ((inviting codec config hashToken).machine.step w m).1.committed = s' at hdoes huser
    cases hdoes with
    | quiet _ _ hauth => exact .inl (hauth ▸ huser)
    | invited c started revoked _ hinvite => exact .inl ((invite_rows hinvite).1 ▸ huser)
    | revoked restaurantId id started inv _ _ _ _ hs' =>
      subst hs'
      exact .inl huser
    | accepted a inv user' started hphase hjoin =>
      obtain ⟨⟨users, hins, husers⟩, -⟩ := join_ok hjoin
      rw [husers] at huser
      rcases (Table.mem_insert? hins).mp huser with huser | rfl
      · exact .inl huser
      · exact .inr ⟨inv, started, List.mem_singleton.mpr rfl⟩

/-- What holds of the calls at every moment. -/
abbrev Invited (w : Sessions InvitationDb InvitePhase) : Prop :=
  Protocol.Holds InvitationDb.OneOpen (fun s t => t.Sound s) InvitePhase.Apart w

theorem answer_length {w : Sessions InvitationDb InvitePhase} (hw : Invited w) (m : Move InviteCall) :
    ((inviting codec config hashToken).machine.step w m).2.length ≤ 1 := by
  obtain ⟨us, t, -, hdoes⟩ := invite_move codec config hashToken hw m
  generalize ((inviting codec config hashToken).machine.step w m).2 = answer at hdoes
  cases hdoes with
  | quiet _ _ _ _ hlength => exact hlength
  | invited | revoked | accepted => exact le_rfl

/-- An invitation that is closed stays so, and lets nobody in. -/
theorem closedRule : (inviting codec config hashToken).machine.SpendingRule Invited (fun _ _ => True)
    InviteEvent.Closes InviteEvent.accepts (fun _ _ => False)
    (fun w id => ∃ r ∈ w.committed.invitations, r.id = id ∧ r.isOpen = false) where
  step w m hw _ := invitingRule.step w m hw (Protocol.allowed_any m)
  one w m hw _ := answer_length hw m
  used w m hw _ e he id haccepts := by
    cases e with
    | accepted inv user started =>
      obtain rfl := Option.some.inj haccepts
      rintro ⟨r, hr, hid, hclosed⟩
      have hlinked := ((admits hw m).accepted inv user started he).1
      obtain rfl : r = inv := Table.eq_of_key hr (Table.find?_mem hlinked.row) hid
      rw [hlinked.isOpen] at hclosed
      cases hclosed
    | _ => cases haccepts
  done w m hw _ id hdone := by
    left
    obtain ⟨us, t, ht, hdoes⟩ := invite_move codec config hashToken hw m
    generalize hanswer : ((inviting codec config hashToken).machine.step w m).2 = answer at hdoes hdone
    generalize ((inviting codec config hashToken).machine.step w m).1.committed = s' at hdoes
    rcases hdone with ⟨r, hr, rfl, hclosed⟩ | ⟨e, he, hcloses⟩
    · obtain ⟨r', hstays⟩ := hdoes.stays hr
      refine ⟨r', Table.find?_mem hstays.row, hstays.id, ?_⟩
      rcases hstays.closed with rfl | ⟨hclosed', -⟩
      · exact hclosed
      · exact hclosed'
    · cases hdoes with
      | quiet _ _ _ hrefused =>
        obtain ⟨hrefused, -⟩ := hrefused e he
        cases e with
        | refused => cases hcloses
        | _ => cases hrefused
      | invited =>
        obtain rfl := List.mem_singleton.mp he
        cases hcloses
      | revoked restaurantId id' started inv _ _ hinv _ hs' =>
        obtain rfl := List.mem_singleton.mp he
        obtain rfl : id' = id := hcloses
        subst hs'
        have hafter := Table.find?_update_self (StaffInvitation.revoke started)
          (StaffInvitation.revoke_key started) hinv
        exact ⟨_, Table.find?_mem hafter, Table.find?_key hafter, revoke_isOpen⟩
      | accepted a inv user started hphase hjoin =>
        obtain rfl := List.mem_singleton.mp he
        obtain rfl : inv.id = id := hcloses
        subst hphase
        have hafter := Table.find?_update_self (StaffInvitation.accept started user.id)
          (StaffInvitation.accept_key started user.id) ht.1.row
        rw [← (join_ok hjoin).2] at hafter
        exact ⟨_, Table.find?_mem hafter, Table.find?_key hafter, accept_isOpen⟩

/-- Behind a newer invitation for its address an invitation lets nobody in. -/
theorem supersededRule : (inviting codec config hashToken).machine.SpendingRule Invited (fun _ _ => True)
    InviteEvent.Supersedes InviteEvent.opens InviteEvent.Creates
    (fun w link => ∀ r ∈ w.committed.invitations, r.id = link.id → r.address = link.address →
      r.isOpen = false) where
  step w m hw _ := invitingRule.step w m hw (Protocol.allowed_any m)
  one w m hw _ := answer_length hw m
  used w m hw _ e he link hopens hdone := by
    cases e with
    | accepted inv user started =>
      obtain rfl := Option.some.inj hopens
      have hlinked := ((admits hw m).accepted inv user started he).1
      have hclosed := hdone inv (Table.find?_mem hlinked.row) rfl rfl
      rw [hlinked.isOpen] at hclosed
      cases hclosed
    | _ => cases hopens
  done w m hw _ link hdone := by
    obtain ⟨us, t, ht, hdoes⟩ := invite_move codec config hashToken hw m
    have hone := hdoes.oneOpen hw.committed ht
    generalize hanswer : ((inviting codec config hashToken).machine.step w m).2 = answer at hdoes hdone ⊢
    generalize ((inviting codec config hashToken).machine.step w m).1.committed = s' at hdoes hone ⊢
    by_cases hcreates : ∃ e ∈ answer, e.Creates link
    · exact .inr hcreates
    · refine .inl fun r hr hid haddress => Bool.eq_false_iff.mpr fun hopen => ?_
      rcases hdoes.open_row hr hopen with hold | ⟨c, started, revoked, -, rfl, -, rfl⟩
      · rcases hdone with hdone | ⟨e, he, hsupersedes⟩
        · have hclosed := hdone r hold hid haddress
          rw [hclosed] at hopen
          cases hopen
        · cases hdoes with
          | quiet _ _ _ hrefused =>
            obtain ⟨hrefused, -⟩ := hrefused e he
            cases e with
            | refused => cases hsupersedes
            | _ => cases hrefused
          | invited c started revoked _ hinvite =>
            obtain rfl := List.mem_singleton.mp he
            obtain ⟨hsame, hne⟩ := hsupersedes
            have hnew := Table.find?_mem (invite_rows hinvite).2.2.1
            obtain rfl := hone r hr _ hnew hopen rfl (haddress.trans hsame)
            exact hne hid.symm
          | revoked | accepted =>
            obtain rfl := List.mem_singleton.mp he
            cases hsupersedes
      · exact hcreates ⟨_, List.mem_singleton.mpr rfl, haddress.symm, hid.symm⟩

/-- A call commits with its last statement, and not when it is refused. -/
theorem inviting_hushed :
    (inviting codec config hashToken).Hushed (fun _ => False) InviteEvent.IsRefused where
  quiet s us t s' t' answer hnext := .inl (next_goes_invite hnext).same
  keeps _ _ _ _ _ _ h := h.elim
  refused s us t := by
    rintro ⟨e, he, hrefused⟩
    refine ⟨?_, id⟩
    cases hnext : (inviting codec config hashToken).next s us t with
    | waits => rfl
    | goes s' t' answer => exact (next_goes_invite hnext).same
    | ends s' answer =>
      rw [hnext] at he
      have hdoes := next_ends_invite hnext
      change s' = s
      change e ∈ answer at he
      cases hdoes with
      | quiet _ _ _ hquiet => exact (hquiet e he).2
      | invited | revoked | accepted =>
        obtain rfl := List.mem_singleton.mp he
        cases hrefused

/-- However the calls interleave: at every moment an address has one open invitation and none is both
accepted and revoked; an account is created from an open invitation, in a transaction begun before it
expires; an invitation that has been accepted or revoked lets in nobody more, and neither does one behind
which another one for its address has been made; and a call that is refused has changed nothing. -/
theorem links_exclusive (codec : TokenCodec Token) (config : AuthConfig) (hashToken : String → String)
    (s : InvitationDb) (hs : s.OneOpen) (moves : List (Move InviteCall)) :
    (inviting codec config hashToken).machine.Every (Admits codec config hashToken) (Sessions.start s)
        moves ∧
      Barred InviteEvent.Closes InviteEvent.accepts (fun _ _ => False)
        ((inviting codec config hashToken).machine.outputs (Sessions.start s) moves) ∧
      Barred InviteEvent.Supersedes InviteEvent.opens InviteEvent.Creates
        ((inviting codec config hashToken).machine.outputs (Sessions.start s) moves) ∧
      (inviting codec config hashToken).QuietWhen InviteEvent.IsRefused (Sessions.start s) moves := by
  have hany : (inviting codec config hashToken).machine.Every (fun _ _ => True) (Sessions.start s) moves :=
    Machine.every_input.mpr fun _ _ => trivial
  have hstart : Invited (Sessions.start s) := .start hs
  refine ⟨?_, closedRule.outputs_barred hstart hany, supersededRule.outputs_barred hstart hany,
    inviting_hushed.quietWhen _ _⟩
  exact Machine.every_imp closedRule.step (fun w m hw _ => admits hw m) hstart hany

end Runs

/-! ## A link that is sent again -/

def staffOfOne : InvitationDb where
  auth := ⟨⟨[⟨1, 1, "ana@example.com", "OWNER", true, none⟩], by decide⟩, ∅, []⟩
  invitations := ∅
  now := 0

/-- The link is used while another one is made for the address, which waits for it. -/
def sentAgain : List (Move InviteCall) :=
  [.start 0 (.create ⟨1, ⟨1, "OWNER"⟩, "eva@example.com", "WAITER", 10, "first"⟩),
    .go 0, .go 0, .go 0, .go 0, .go 0,
    .start 1 (.accept ⟨"first", some " Eva ", 2, 100⟩),
    .start 2 (.create ⟨1, ⟨1, "OWNER"⟩, "Eva@example.com", "OWNER", 11, "second"⟩),
    .go 1, .go 1, .go 2, .go 2, .go 2, .go 2, .go 1, .go 1, .go 1, .go 2, .go 2, .go 2]

example : ((inviting plainCodec dayConfig id).machine.outputs (Sessions.start staffOfOne)
    sentAgain).filterMap InviteEvent.accepts = [10] := by decide +kernel

theorem sent_again_exclusive :
    (inviting plainCodec dayConfig id).machine.Every (Admits plainCodec dayConfig id)
        (Sessions.start staffOfOne) sentAgain ∧
      Barred InviteEvent.Closes InviteEvent.accepts (fun _ _ => False)
        ((inviting plainCodec dayConfig id).machine.outputs (Sessions.start staffOfOne) sentAgain) ∧
      Barred InviteEvent.Supersedes InviteEvent.opens InviteEvent.Creates
        ((inviting plainCodec dayConfig id).machine.outputs (Sessions.start staffOfOne) sentAgain) ∧
      (inviting plainCodec dayConfig id).QuietWhen InviteEvent.IsRefused (Sessions.start staffOfOne)
        sentAgain :=
  links_exclusive plainCodec dayConfig id staffOfOne (fun _ hr => absurd hr List.not_mem_nil) sentAgain

end Splite
