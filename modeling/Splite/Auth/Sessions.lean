import Splite.Basic
import Splite.Lib.Table
import Splite.Lib.Tx

/-!
# Refresh sessions (`services/auth.js`)

Every refresh token has a row in `refresh_sessions`. A refresh claims the row and issues the next
one; a token whose row is already revoked is taken for stolen.

* `refresh_of_revoked`: a refresh with a revoked row writes the audit entry and nothing else. The
  mass revocation and the 401 are in one transaction callback, so the rollback of the one undoes
  the other.
* `reuse_kills_sessions_iff`: the reuse leaves no live session exactly when there was none.
-/

namespace Splite

/-- The columns of `users` that a session is issued from. -/
structure User where
  id : Uuid
  restaurantId : Uuid
  email : String
  role : String
  active : Bool
  displayName : Option String
  deriving DecidableEq, Repr

/-- A row of `refresh_sessions`. -/
structure RefreshSession where
  id : Uuid
  userId : Uuid
  restaurantId : Uuid
  tokenHash : String
  expiresAt : Time
  revokedAt : Option Time
  deriving DecidableEq, Repr

instance : Keyed User Uuid := ⟨User.id⟩

instance : Keyed RefreshSession Uuid := ⟨RefreshSession.id⟩

/-- An `audit_logs` row of this module. -/
structure SessionAudit where
  action : String
  restaurantId : Uuid
  actorId : Uuid
  jti : Uuid
  deriving DecidableEq, Repr

structure AuthState where
  users : Table User
  sessions : Table RefreshSession
  audit : List SessionAudit
  deriving DecidableEq

/-- `logAudit` writes on a connection of its own, so its rows outlive a rollback. -/
instance : Rollback AuthState := ⟨fun before after => { before with audit := after.audit }⟩

/-- The payload of a refresh token; `exp` is in milliseconds here. -/
structure RefreshClaims where
  sub : Uuid
  restaurantId : Uuid
  role : String
  type : String
  jti : Option Uuid
  exp : Time
  deriving DecidableEq, Repr

/-- What the code takes from `jsonwebtoken` and from `sha256`: `open` checks the signature, the
algorithm, the issuer and the audience, and yields the payload. -/
structure TokenCodec (Token : Type) where
  sign : RefreshClaims → Token
  «open» : Token → Option RefreshClaims
  hash : Token → String

/-- `config.jwt.refreshTtlSeconds`, in milliseconds. -/
structure AuthConfig where
  refreshTtlMs : Nat

/-- What a login or a refresh answers with. -/
structure IssuedSession (Token : Type) where
  refreshToken : Token
  user : User

def unauthorized (message : String) : Err := .api .invalidCredentials message []

section Services

variable {Token : Type} (codec : TokenCodec Token) (config : AuthConfig)

/-- `verifyRefreshToken`: the payload of a correctly signed token that has not expired. -/
def verifyRefreshToken (now : Time) (token : Token) : Option RefreshClaims :=
  (codec.open token).filter fun claims => now < claims.exp

/-- `issueSession(user, meta, client)`; `jti` is the `randomUUID` of the call. -/
def issueSession (now : Time) (jti : Uuid) (user : User) :
    Tx Err AuthState (IssuedSession Token) := do
  let refreshToken := codec.sign
    { sub := user.id, restaurantId := user.restaurantId, role := user.role, type := "refresh",
      jti := some jti, exp := now + config.refreshTtlMs }
  let s ← get
  Tx.require (s.sessions.rows.all fun r => r.tokenHash ≠ codec.hash refreshToken)
    (.uniqueViolation "refresh_sessions_token_hash_key")
  let sessions ← Tx.orThrow
    (s.sessions.insert?
      { id := jti, userId := user.id, restaurantId := user.restaurantId,
        tokenHash := codec.hash refreshToken, expiresAt := now + config.refreshTtlMs,
        revokedAt := none })
    (.uniqueViolation "refresh_sessions_pkey")
  set { s with sessions }
  return { refreshToken, user }

/-- A session that is issued is a new row of the user. -/
theorem issueSession_ok {codec : TokenCodec Token} {config : AuthConfig} {now : Time} {jti : Uuid}
    {user : User} {issued : IssuedSession Token} {s s' : AuthState}
    (h : (issueSession codec config now jti user).run s = .ok issued s') :
    ∃ session sessions, session.id = jti ∧ session.userId = user.id ∧
      s.sessions.insert? session = some sessions ∧ s' = { s with sessions } := by
  unfold issueSession at h
  dsimp only at h
  rw [Tx.bind_of_ok Tx.run_get] at h
  obtain ⟨-, h⟩ := Tx.require_bind_ok.mp h
  obtain ⟨sessions, hins, h⟩ := Tx.orThrow_bind_ok.mp h
  cases h
  exact ⟨_, sessions, rfl, rfl, hins, rfl⟩

/-- `UPDATE refresh_sessions SET revoked_at = NOW() WHERE …`. -/
def revokeWhere (now : Time) (p : RefreshSession → Bool) (sessions : Table RefreshSession) :
    Table RefreshSession :=
  sessions.updateWhere p (fun r => { r with revokedAt := some now }) fun _ => rfl

/-- The audit entry of a reuse. -/
def reuseDetected (row : RefreshSession) (jti : Uuid) : SessionAudit where
  action := "AUTH_REFRESH_REUSE_DETECTED"
  restaurantId := row.restaurantId
  actorId := row.userId
  jti := jti

/-- The transaction of `refresh`, once the token has been verified. -/
def rotate (now : Time) (newJti : Uuid) (token : Token) (jti : Uuid) :
    Tx Err AuthState (IssuedSession Token) := do
  let s ← get
  let tokenHash := codec.hash token
  let claims (r : RefreshSession) : Bool :=
    r.id = jti && r.tokenHash = tokenHash && r.revokedAt.isNone && now < r.expiresAt
  match s.sessions.rows.find? claims with
  | none =>
    let row := s.sessions.rows.find? fun r => r.id = jti && r.tokenHash = tokenHash
    match row.filter (·.revokedAt.isSome) with
    | some row =>
      modify fun s => { s with
        sessions := revokeWhere now (fun r => r.userId = row.userId && r.revokedAt.isNone) s.sessions }
      modify fun s => { s with audit := s.audit ++ [reuseDetected row jti] }
    | none => pure ()
    throw (unauthorized "Refresh session revoked or expired")
  | some claimed =>
    modify fun s => { s with sessions := revokeWhere now claims s.sessions }
    let user ← Tx.orThrow (s.users.find? claimed.userId) (unauthorized "User inactive")
    Tx.require user.active (unauthorized "User inactive")
    issueSession codec config now newJti user

/-- `refresh(refreshToken, meta)`. -/
def refresh (now : Time) (newJti : Uuid) (token : Token) :
    Tx Err AuthState (IssuedSession Token) := do
  let claims ← Tx.orThrow (verifyRefreshToken codec now token) (unauthorized "Invalid refresh token")
  Tx.require (claims.type = "refresh") (unauthorized "Invalid refresh token")
  let jti ← Tx.orThrow claims.jti (unauthorized "Invalid refresh token")
  Tx.withTransaction (rotate codec config now newJti token jti)

/-- `revokeSession(jti)`. -/
def revokeSession (now : Time) (jti : Uuid) : Tx Err AuthState Unit :=
  modify fun s => { s with
    sessions := revokeWhere now (fun r => r.id = jti && r.revokedAt.isNone) s.sessions }

/-- `revokeAllSessionsForUser(userId)`: how many were revoked. -/
def revokeAllSessionsForUser (now : Time) (userId : Uuid) : Tx Err AuthState Nat :=
  modifyGet fun s =>
    let live (r : RefreshSession) : Bool := r.userId = userId && r.revokedAt.isNone
    ((s.sessions.rows.filter live).length, { s with sessions := revokeWhere now live s.sessions })

/-! ## Runs -/

/-- What writes `refresh_sessions`: a login or another issue of a session, a refresh, a logout, the
revocation of a user's sessions (a change of password or of standing), the purge of expired rows;
and any write of a user's row. -/
inductive SessionOp (Token : Type) where
  | issue (now : Time) (jti : Uuid) (userId : Uuid)
  | refresh (now : Time) (newJti : Uuid) (token : Token)
  | logout (now : Time) (jti : Uuid)
  | revokeAll (now : Time) (userId : Uuid)
  | purge (before : Time)
  | setActive (userId : Uuid) (active : Bool)

/-- One operation; a failure is an answer to its caller and the run goes on. -/
def SessionOp.exec : SessionOp Token → AuthState → AuthState
  | .issue now jti userId => fun s =>
    match s.users.find? userId with
    | some user => Tx.exec (issueSession codec config now jti user) s
    | none => s
  | .refresh now newJti token => Tx.exec (Splite.refresh codec config now newJti token)
  | .logout now jti => Tx.exec (revokeSession now jti)
  | .revokeAll now userId => Tx.exec (revokeAllSessionsForUser now userId)
  | .purge before => fun s =>
    { s with sessions := s.sessions.deleteWhere fun r => r.expiresAt < before }
  | .setActive userId active => fun s =>
    { s with users := s.users.update userId (fun u => { u with active }) fun _ => rfl }

def runSessions (s : AuthState) (ops : List (SessionOp Token)) : AuthState :=
  ops.foldl (fun s op => op.exec codec config s) s

/-! ## Reuse -/

/-- `token` is correctly signed and its stored row, `row`, is already revoked. -/
structure PresentsRevoked (token : Token) (s : AuthState) (row : RefreshSession) : Prop where
  signed : ∃ claims, codec.open token = some claims ∧ claims.type = "refresh" ∧
    claims.jti = some row.id
  stored : row ∈ s.sessions
  hash : row.tokenHash = codec.hash token
  revoked : row.revokedAt.isSome

/-- Of the user's sessions that `before` holds, `after` holds none unrevoked. -/
def KillsSessions (userId : Uuid) (before after : AuthState) : Prop :=
  ∀ r ∈ after.sessions, r.userId = userId → (∃ r₀ ∈ before.sessions, r₀.id = r.id) →
    r.revokedAt.isSome

instance (userId : Uuid) (before after : AuthState) :
    Decidable (KillsSessions userId before after) :=
  inferInstanceAs (Decidable (∀ r ∈ after.sessions.rows, r.userId = userId →
    (∃ r₀ ∈ before.sessions.rows, r₀.id = r.id) → r.revokedAt.isSome))

variable {codec} {token : Token} {s : AuthState} {row : RefreshSession}

/-- No claim reaches a revoked row, and the row is found. -/
theorem PresentsRevoked.rotate_eq (h : PresentsRevoked codec token s row) (now : Time)
    (newJti : Uuid) :
    ∃ s', (rotate codec config now newJti token row.id).run s =
      .error (unauthorized "Refresh session revoked or expired") s' ∧
      s'.audit = s.audit ++ [reuseDetected row row.id] := by
  have honly : ∀ r ∈ s.sessions, r.id = row.id → r = row := fun r hr hid =>
    Table.eq_of_key hr h.stored hid
  have hclaim : s.sessions.rows.find? (fun r => r.id = row.id && r.tokenHash = codec.hash token &&
      r.revokedAt.isNone && now < r.expiresAt) = none := by
    refine List.find?_eq_none.mpr fun r hr => ?_
    simp only [Bool.and_eq_true, decide_eq_true_eq, not_and]
    rintro ⟨⟨hid, -⟩, hnone⟩
    rw [honly r hr hid] at hnone
    have := h.revoked
    simp_all
  have hknown : s.sessions.rows.find? (fun r => r.id = row.id && r.tokenHash = codec.hash token) =
      some row := by
    obtain ⟨r, hr⟩ := Option.isSome_iff_exists.mp (List.find?_isSome.mpr
      ⟨row, h.stored, by simp [h.hash]⟩ : (s.sessions.rows.find? fun r =>
        r.id = row.id && r.tokenHash = codec.hash token).isSome)
    have hid := List.find?_some hr
    simp only [Bool.and_eq_true, decide_eq_true_eq] at hid
    rw [hr, honly r (List.mem_of_find?_eq_some hr) hid.1]
  have hfilter : (some row).filter (fun r => r.revokedAt.isSome) = some row := by
    simp [Option.filter, h.revoked]
  refine ⟨{ s with
    sessions := revokeWhere now (fun r => r.userId = row.userId && r.revokedAt.isNone) s.sessions
    audit := s.audit ++ [reuseDetected row row.id] }, ?_, rfl⟩
  unfold rotate
  rw [Tx.bind_of_ok Tx.run_get]
  simp only [hclaim, hknown, hfilter]
  rw [Tx.bind_of_ok (Tx.run_modify _), Tx.bind_of_ok (Tx.run_modify _), Tx.run_throw]

/-- A refresh with a revoked row throws, and leaves every session and user as it was; at most its
audit entry remains. -/
theorem refresh_of_revoked (h : PresentsRevoked codec token s row) (now : Time) (newJti : Uuid) :
    ∃ message audit, (refresh codec config now newJti token).run s =
      .error (unauthorized message) { s with audit } := by
  obtain ⟨claims, hopen, htype, hjti⟩ := h.signed
  by_cases hexp : now < claims.exp
  · have hverify : verifyRefreshToken codec now token = some claims := by
      simp [verifyRefreshToken, hopen, Option.filter, hexp]
    obtain ⟨s', hrot, -⟩ := h.rotate_eq config now newJti
    refine ⟨"Refresh session revoked or expired", s'.audit, ?_⟩
    unfold refresh
    rw [Tx.bind_of_ok (Tx.orThrow_ok.mpr ⟨hverify, rfl⟩),
      Tx.bind_of_ok (Tx.require_ok (u := ()).mpr ⟨htype, rfl⟩),
      Tx.bind_of_ok (Tx.orThrow_ok.mpr ⟨hjti, rfl⟩)]
    exact Tx.withTransaction_error.mpr ⟨s', hrot, rfl⟩
  · -- An expired token never reaches the table.
    have hverify : verifyRefreshToken codec now token = none := by
      simp [verifyRefreshToken, hopen, Option.filter, hexp]
    refine ⟨"Invalid refresh token", s.audit, ?_⟩
    unfold refresh
    rw [Tx.bind_of_error (Tx.orThrow_error.mpr ⟨hverify, rfl, rfl⟩)]

/-- Whatever the run before, presenting a revoked token kills every session of its user exactly
when none of them was live. -/
theorem reuse_kills_sessions_iff (s₀ : AuthState) (ops : List (SessionOp Token)) (now : Time)
    (newJti : Uuid)
    (h : PresentsRevoked codec token (runSessions codec config s₀ ops) row) :
    KillsSessions row.userId (runSessions codec config s₀ ops)
      ((SessionOp.refresh now newJti token).exec codec config (runSessions codec config s₀ ops)) ↔
    ∀ r ∈ (runSessions codec config s₀ ops).sessions, r.userId = row.userId →
      r.revokedAt.isSome := by
  generalize runSessions codec config s₀ ops = s at h ⊢
  obtain ⟨message, audit, hrun⟩ := refresh_of_revoked config h now newJti
  have hexec : (SessionOp.refresh now newJti token).exec codec config s = { s with audit } :=
    Tx.exec_of_error hrun
  rw [hexec]
  exact ⟨fun hk r hr hu => hk r hr hu ⟨r, hr, rfl⟩, fun hk r hr hu _ => hk r hr hu⟩

end Services

/-! ## Two devices -/

/-- Tokens that are their own payload. -/
def plainCodec : TokenCodec RefreshClaims where
  sign := id
  «open» := some
  hash := fun claims => toString (claims.jti.getD 0)

def dayConfig : AuthConfig := ⟨86400000⟩

/-- The token of the session `jti` of user 7, issued at `now`. -/
def tokenOf (jti : Uuid) (now : Time) : RefreshClaims :=
  { sub := 7, restaurantId := 1, role := "owner", type := "refresh", jti := some jti,
    exp := now + 86400000 }

def oneUser : AuthState where
  users := ⟨[⟨7, 1, "owner@example.com", "owner", true, none⟩], by decide⟩
  sessions := ∅
  audit := []

/-- A login on two devices, and a refresh on the first one. -/
def twoDevices : AuthState :=
  runSessions plainCodec dayConfig oneUser
    [.issue 0 100 7, .issue 10 200 7, .refresh 20 300 (tokenOf 100 0)]

/-- The first device's old token is presented again: both of the user's sessions stay live. -/
theorem reuse_leaves_sessions :
    ∃ row, PresentsRevoked plainCodec (tokenOf 100 0) twoDevices row ∧
      ¬KillsSessions row.userId twoDevices
        ((SessionOp.refresh 30 400 (tokenOf 100 0)).exec plainCodec dayConfig twoDevices) :=
  ⟨⟨100, 7, 1, "100", 86400000, some 20⟩,
    ⟨⟨tokenOf 100 0, rfl, rfl, rfl⟩, by decide, by decide, rfl⟩, by decide⟩

/-- A single device that has logged out leaves nothing to revoke. -/
theorem reuse_after_logout :
    let s := runSessions plainCodec dayConfig oneUser [.issue 0 100 7, .logout 20 100]
    KillsSessions 7 s
      ((SessionOp.refresh 30 400 (tokenOf 100 0)).exec plainCodec dayConfig s) := by
  have h : PresentsRevoked plainCodec (tokenOf 100 0)
      (runSessions plainCodec dayConfig oneUser [.issue 0 100 7, .logout 20 100])
      ⟨100, 7, 1, "100", 86400000, some 20⟩ :=
    ⟨⟨tokenOf 100 0, rfl, rfl, rfl⟩, by decide, by decide, rfl⟩
  exact (reuse_kills_sessions_iff dayConfig oneUser _ 30 400 h).mpr (by decide)

end Splite
