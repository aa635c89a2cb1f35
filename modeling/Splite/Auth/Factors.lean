import Splite.Auth.Sessions
import Splite.Auth.Totp
import Splite.Lib.Spending

/-!
# Second factors (`services/mfa.js`, `completeMfaLogin` of `services/auth.js`)

Every call locks the row of its user first and holds it until it commits, so the calls run one after
another; each of them is one transaction here.

* `consume_ok`: what is spent is the step of a code, later than the last one, or a recovery code that has
  not been used.
* `mfaRule`, `factors_spent_once`: in every run each step and each recovery code is accepted once until it
  is set up anew, the last step rises, and a session is issued exactly when one factor is spent.
-/

namespace Splite

/-- `box.seal(secret)`. -/
structure SealedSecret where
  blob : String
  keyVersion : Nat
  deriving DecidableEq, Repr

/-- A row of `users` with its second factor, and the check that a factor in use has a secret. -/
structure MfaUser extends User where
  mfaSecret : Option SealedSecret
  mfaEnabledAt : Option Time
  mfaLastStep : Option Int
  enabled_needs_secret : mfaEnabledAt.isSome = true → mfaSecret.isSome = true
  deriving DecidableEq, Repr

instance : Keyed MfaUser Uuid := ⟨fun u => u.id⟩

/-- A row of `user_mfa_recovery_codes`; its unique index is the key. -/
structure RecoveryCode where
  userId : Uuid
  restaurantId : Uuid
  codeHash : String
  usedAt : Option Time
  deriving DecidableEq, Repr

instance : Keyed RecoveryCode (Uuid × String) := ⟨fun r => (r.userId, r.codeHash)⟩

structure MfaDb where
  users : Table MfaUser
  codes : Table RecoveryCode
  sessions : Table RefreshSession
  deriving DecidableEq

/-- Nothing is written outside of the transactions. -/
instance : Rollback MfaDb := ⟨fun before _ => before⟩

/-- What the code takes from its sealed box, from the HMAC of the secret, from `sha256`, from
`jsonwebtoken` and from the language. -/
structure MfaCrypto where
  openBox : String → Except Err String
  codeForStep : String → Int → Option String
  hashToken : String → String
  verifyMfaChallenge : String → Option Uuid
  toUpperCase : String → String

/-- What a code is accepted for. -/
inductive Factor where
  | totp (userId : Uuid) (step : Int)
  | recovery (userId : Uuid) (codeHash : String)
  deriving DecidableEq, Repr

namespace MfaUser

/-- The `UPDATE` of `beginEnrolment`. -/
def enrol (secret : SealedSecret) (u : MfaUser) : MfaUser :=
  { u with mfaSecret := some secret, mfaEnabledAt := none, mfaLastStep := none
           enabled_needs_secret := fun h => by simp at h }

/-- The `UPDATE` of `confirmEnrolment`, of a row with a secret. -/
def enable (now : Time) (step : Int) (u : MfaUser) : MfaUser :=
  if h : u.mfaSecret.isSome = true then
    { u with mfaEnabledAt := some now, mfaLastStep := some step, enabled_needs_secret := fun _ => h }
  else u

/-- The `UPDATE` of `consume`. -/
def advance (step : Int) (u : MfaUser) : MfaUser := { u with mfaLastStep := some step }

/-- The `UPDATE` of `disable`. -/
def strip (u : MfaUser) : MfaUser :=
  { u with mfaSecret := none, mfaEnabledAt := none, mfaLastStep := none
           enabled_needs_secret := fun h => by simp at h }

theorem enable_key (now : Time) (step : Int) (u : MfaUser) :
    Keyed.key (enable now step u) = Keyed.key u := by
  unfold enable
  split <;> rfl

end MfaUser

namespace MfaDb

/-- The tables that `issueSession` works on. -/
def auth (s : MfaDb) : AuthState where
  users := ⟨s.users.rows.map MfaUser.toUser, by
    rw [List.map_map]
    exact s.users.nodup⟩
  sessions := s.sessions
  audit := []

def withSessions (t : AuthState) (s : MfaDb) : MfaDb := { s with sessions := t.sessions }

/-- `SELECT … WHERE id = $1 AND restaurant_id = $2 FOR UPDATE`. -/
def user? (s : MfaDb) (userId restaurantId : Uuid) : Option MfaUser :=
  (s.users.find? userId).filter fun u => u.restaurantId = restaurantId

/-- `mfa_last_step` of a user. -/
def lastStep (s : MfaDb) (userId : Uuid) : Option Int :=
  (s.users.find? userId).bind (·.mfaLastStep)

end MfaDb

section Services

variable {Token : Type} (crypto : MfaCrypto) (codec : TokenCodec Token) (config : AuthConfig)

/-- `generateRecoveryCode()`, of what `base32Encode` has made of its random bytes. -/
def generateRecoveryCode (raw : String) : String :=
  String.ofList (raw.toList.take 8) ++ "-" ++ String.ofList ((raw.toList.drop 8).take 8)

def normaliseRecoveryCode (value : String) : String :=
  String.ofList ((crypto.toUpperCase value).toList.filter fun c =>
    ('A' ≤ c && c ≤ 'Z') || ('2' ≤ c && c ≤ '7'))

/-- The hash that a recovery code is stored and looked up by. -/
def recoveryHash (code : String) : String := crypto.hashToken (normaliseRecoveryCode crypto code)

def insertRecoveryCode (userId restaurantId : Uuid) (code : String) : Tx Err MfaDb Unit := do
  let s ← get
  let codes ← Tx.orThrow (s.codes.insert? ⟨userId, restaurantId, recoveryHash crypto code, none⟩)
    (.uniqueViolation "user_mfa_recovery_codes_unique")
  set { s with codes }

/-- `issueRecoveryCodes(client, { userId, restaurantId })`; there are as many `raws` as the configuration
asks for. -/
def issueRecoveryCodes (userId restaurantId : Uuid) (raws : List String) :
    Tx Err MfaDb (List String) := do
  let codes := raws.map generateRecoveryCode
  modify fun s => { s with codes := s.codes.deleteWhere fun r => r.userId = userId }
  codes.forM (insertRecoveryCode crypto userId restaurantId)
  return codes

/-- `consume(client, { user, code })`; what is spent is more than the `via` that the code answers with. -/
def consume (clock now : Time) (user : MfaUser) (code : String) : Tx Err MfaDb (Option Factor) := do
  let sealed ← Tx.orThrow user.mfaSecret (.error "The stored second factor is missing")
  let secret ← Tx.ofExcept (crypto.openBox sealed.blob)
  match Totp.verify (crypto.codeForStep secret) code clock user.mfaLastStep with
  | some step =>
    modify fun s => { s with users := s.users.update user.id (MfaUser.advance step) fun _ => rfl }
    return some (.totp user.id step)
  | none =>
    let s ← get
    let key := (user.id, recoveryHash crypto code)
    match (s.codes.find? key).filter (·.usedAt.isNone) with
    | none => return none
    | some _ =>
      set { s with codes := s.codes.update key (fun r => { r with usedAt := some now }) fun _ => rfl }
      return some (.recovery user.id (recoveryHash crypto code))

def mfaCodeInvalid : Err := .api .mfaCodeInvalid "That code is not valid" []

/-- `beginEnrolment({ userId, restaurantId })`, one `UPDATE`. -/
def beginEnrolment (userId restaurantId : Uuid) (secret : SealedSecret) : Tx Err MfaDb Unit := do
  let s ← get
  let _ ← Tx.orThrow ((s.user? userId restaurantId).filter (·.mfaEnabledAt.isNone))
    (.api .mfaAlreadyEnabled "Disable the current second factor before enrolling another" [])
  set { s with users := s.users.update userId (MfaUser.enrol secret) fun _ => rfl }

/-- `confirmEnrolment({ userId, restaurantId, code })`, with the step that it accepts. -/
def confirmEnrolment (userId restaurantId : Uuid) (code : String) (clock now : Time)
    (raws : List String) : Tx Err MfaDb (Int × List String) := Tx.withTransaction do
  let s ← get
  let notEnrolled : Err := .api .mfaNotEnrolled "Start enrolment before confirming a code" []
  let user ← Tx.orThrow (s.user? userId restaurantId) notEnrolled
  let sealed ← Tx.orThrow user.mfaSecret notEnrolled
  Tx.require (user.mfaEnabledAt = none)
    (.api .mfaAlreadyEnabled "This account already has a second factor" [])
  let secret ← Tx.ofExcept (crypto.openBox sealed.blob)
  let step ← Tx.orThrow (Totp.verify (crypto.codeForStep secret) code clock none) mfaCodeInvalid
  modify fun s => { s with
    users := s.users.update userId (MfaUser.enable now step) (MfaUser.enable_key now step) }
  let recoveryCodes ← issueRecoveryCodes crypto userId restaurantId raws
  return (step, recoveryCodes)

/-- `disable({ userId, restaurantId, code })`. -/
def disable (userId restaurantId : Uuid) (code : String) (clock now : Time) : Tx Err MfaDb Factor :=
  Tx.withTransaction do
    let s ← get
    let user ← Tx.orThrow ((s.user? userId restaurantId).filter (·.mfaEnabledAt.isSome))
      (.api .mfaNotEnabled "This account has no second factor to disable" [])
    let accepted ← consume crypto clock now user code
    let factor ← Tx.orThrow accepted mfaCodeInvalid
    modify fun s => { s with
      users := s.users.update userId MfaUser.strip fun _ => rfl
      codes := s.codes.deleteWhere fun r => r.userId = userId }
    return factor

/-- `regenerateRecoveryCodes({ userId, restaurantId, code })`. -/
def regenerateRecoveryCodes (userId restaurantId : Uuid) (code : String) (clock now : Time)
    (raws : List String) : Tx Err MfaDb (Factor × List String) := Tx.withTransaction do
  let s ← get
  let user ← Tx.orThrow ((s.user? userId restaurantId).filter (·.mfaEnabledAt.isSome))
    (.api .mfaNotEnabled "This account has no second factor" [])
  let accepted ← consume crypto clock now user code
  let factor ← Tx.orThrow accepted mfaCodeInvalid
  let recoveryCodes ← issueRecoveryCodes crypto userId restaurantId raws
  return (factor, recoveryCodes)

/-- The transaction of `completeMfaLogin`: no session when the factor is not accepted. -/
def mfaSession (userId : Uuid) (code : String) (clock now : Time) (jti : Uuid) :
    Tx Err MfaDb (Option (IssuedSession Token × Factor)) := do
  let s ← get
  match (s.users.find? userId).filter fun u => u.active && u.mfaEnabledAt.isSome with
  | none => return none
  | some user =>
    match ← consume crypto clock now user code with
    | none => return none
    | some factor =>
      let issued ← Tx.zoom MfaDb.auth MfaDb.withSessions (issueSession codec config clock jti user.toUser)
      return some (issued, factor)

/-- `completeMfaLogin(challenge, code)`; `throttled` is what `assertNotThrottled` throws. -/
def completeMfaLogin (challenge code : String) (throttled : Option Err) (clock now : Time) (jti : Uuid) :
    Tx Err MfaDb (IssuedSession Token × Factor) := do
  let userId ← Tx.orThrow (crypto.verifyMfaChallenge challenge) (unauthorized "Invalid credentials")
  Tx.forbid throttled id
  let session ← Tx.withTransaction (mfaSession crypto codec config userId code clock now jti)
  Tx.orThrow session (unauthorized "Invalid credentials")

/-! ## Runs -/

/-- The calls about second factors, with the clocks of the process and of the database. -/
inductive MfaCall where
  | beginEnrolment (userId restaurantId : Uuid) (secret : SealedSecret)
  | confirmEnrolment (userId restaurantId : Uuid) (code : String) (clock now : Time) (raws : List String)
  | disable (userId restaurantId : Uuid) (code : String) (clock now : Time)
  | regenerateRecoveryCodes (userId restaurantId : Uuid) (code : String) (clock now : Time)
      (raws : List String)
  | completeMfaLogin (challenge code : String) (throttled : Option Err) (clock now : Time) (jti : Uuid)
  deriving DecidableEq, Repr

def MfaCall.isLogin : MfaCall → Bool
  | .completeMfaLogin .. => true
  | _ => false

inductive MfaEvent where
  | enrolling (userId : Uuid)
  | enrolled (userId : Uuid) (step : Int) (recoveryCodes : List String)
  | disabled (userId : Uuid) (factor : Factor)
  | regenerated (userId : Uuid) (factor : Factor) (recoveryCodes : List String)
  | signedIn (factor : Factor)
  | refused (err : Err)
  deriving DecidableEq, Repr

def MfaCall.answer : MfaCall → Tx Err MfaDb MfaEvent
  | .beginEnrolment userId restaurantId secret => do
    Splite.beginEnrolment userId restaurantId secret
    return .enrolling userId
  | .confirmEnrolment userId restaurantId code clock now raws => do
    let (step, codes) ← Splite.confirmEnrolment crypto userId restaurantId code clock now raws
    return .enrolled userId step codes
  | .disable userId restaurantId code clock now => do
    let factor ← Splite.disable crypto userId restaurantId code clock now
    return .disabled userId factor
  | .regenerateRecoveryCodes userId restaurantId code clock now raws => do
    let (factor, codes) ← Splite.regenerateRecoveryCodes crypto userId restaurantId code clock now raws
    return .regenerated userId factor codes
  | .completeMfaLogin challenge code throttled clock now jti => do
    let (_, factor) ← Splite.completeMfaLogin crypto codec config challenge code throttled clock now jti
    return .signedIn factor

/-- One call; a failure is an answer to its caller and the run goes on. -/
def MfaCall.step (s : MfaDb) (call : MfaCall) : MfaDb × List MfaEvent :=
  match (call.answer crypto codec config).run s with
  | .ok event s' => (s', [event])
  | .error err s' => (s', [.refused err])

def mfa : Machine MfaDb MfaCall MfaEvent := ⟨MfaCall.step crypto codec config⟩

/-- What a call has accepted a code for. -/
def MfaEvent.spends : MfaEvent → Option Factor
  | .enrolled userId step _ => some (.totp userId step)
  | .disabled _ factor | .regenerated _ factor _ | .signedIn factor => some factor
  | .enrolling _ | .refused _ => none

/-- The factor can be accepted anew: the one of the steps is off, or the recovery code is issued. -/
def MfaEvent.Renews : MfaEvent → Factor → Prop
  | .disabled userId _, .totp userId' _ => userId' = userId
  | .enrolled userId _ codes, .recovery userId' codeHash
  | .regenerated userId _ codes, .recovery userId' codeHash =>
    userId' = userId ∧ codeHash ∈ codes.map (recoveryHash crypto)
  | _, _ => False

/-- `s'` has the factor spent, which `s` had not. -/
def MfaDb.Spends (s s' : MfaDb) : Factor → Prop
  | .totp userId step => s'.lastStep userId = some step ∧ s.lastStep userId ≠ some step
  | .recovery userId codeHash =>
    (∃ r ∈ s.codes.find? (userId, codeHash), r.usedAt = none) ∧
      ∃ r ∈ s'.codes.find? (userId, codeHash), r.usedAt.isSome = true

end Services

/-! ## What the calls do -/

namespace MfaDb

/-- A user whose factor is not in use has no last step. -/
def Cleared (s : MfaDb) : Prop := ∀ u ∈ s.users, u.mfaEnabledAt = none → u.mfaLastStep = none

/-- A step that is not later than the last one, or a recovery code that is not left. -/
def Used (s : MfaDb) : Factor → Prop
  | .totp userId step => ∃ last ∈ s.lastStep userId, step ≤ last
  | .recovery userId codeHash =>
    ∀ r ∈ s.codes, r.userId = userId → r.codeHash = codeHash → r.usedAt ≠ none

end MfaDb

/-- What `consume` writes for what it accepts. -/
inductive Consumed (s s' : MfaDb) (user : MfaUser) : Factor → Prop where
  | totp (step : Int) : (∀ last ∈ user.mfaLastStep, last < step) →
      s' = { s with users := s.users.update user.id (MfaUser.advance step) fun _ => rfl } →
      Consumed s s' user (.totp user.id step)
  | recovery (r : RecoveryCode) (now : Time) : s.codes.find? (user.id, r.codeHash) = some r →
      r.usedAt = none →
      s' = { s with
        codes := s.codes.update (user.id, r.codeHash) (fun r => { r with usedAt := some now })
          fun _ => rfl } →
      Consumed s s' user (.recovery user.id r.codeHash)

section Calls

variable {crypto : MfaCrypto} {Token : Type} {codec : TokenCodec Token} {config : AuthConfig}
  {s s' s₁ : MfaDb} {user : MfaUser} {factor : Factor} {userId restaurantId : Uuid} {code : String}
  {clock now : Time} {raws codes : List String} {step : Int}

theorem lastStep_update (f : MfaUser → MfaUser) (hf : ∀ u, Keyed.key (f u) = Keyed.key u)
    (hfind : s.users.find? userId = some user) (userId' : Uuid) :
    MfaDb.lastStep { s with users := s.users.update userId f hf } userId' =
      if userId' = userId then (f user).mfaLastStep else s.lastStep userId' := by
  unfold MfaDb.lastStep
  rw [Table.find?_update_with f hf userId']
  split
  · rename_i h
    rw [h, hfind]
    rfl
  · rfl

theorem lastStep_of_find (hfind : s.users.find? userId = some user) :
    s.lastStep userId = user.mfaLastStep := by
  unfold MfaDb.lastStep
  rw [hfind]
  rfl

theorem user?_eq_some (h : s.user? userId restaurantId = some user) :
    s.users.find? userId = some user := (Option.filter_eq_some_iff.mp h).1

/-- Only the row of the user has changed, and keeps what the others keep. -/
theorem cleared_update (f : MfaUser → MfaUser) (hf : ∀ u, Keyed.key (f u) = Keyed.key u)
    (hs : s.Cleared) (hnew : (f user).mfaEnabledAt = none → (f user).mfaLastStep = none)
    (hfind : s.users.find? userId = some user) :
    MfaDb.Cleared { s with users := s.users.update userId f hf } := by
  intro u hu
  rcases (Table.mem_update_of_find f hf hfind).mp hu with rfl | ⟨hu, -⟩
  · exact hnew
  · exact hs u hu

/-- What is accepted is a later step, or a recovery code that is left. -/
theorem consume_ok (h : (consume crypto clock now user code).run s = .ok (some factor) s') :
    Consumed s s' user factor := by
  unfold consume at h
  obtain ⟨sealed, -, h⟩ := Tx.orThrow_bind_ok.mp h
  obtain ⟨secret, -, h⟩ := Tx.ofExcept_bind_ok.mp h
  split at h
  · rename_i step hverify
    rw [Tx.bind_of_ok (Tx.run_modify _)] at h
    obtain ⟨hfactor, rfl⟩ := Tx.pure_ok.mp h
    cases hfactor
    exact .totp step (Totp.verify_spec hverify).2.1 rfl
  · rw [Tx.bind_of_ok Tx.run_get] at h
    dsimp only at h
    split at h
    · cases (Tx.pure_ok.mp h).1
    · rename_i r hr
      obtain ⟨hfind, hunused⟩ := Option.filter_eq_some_iff.mp hr
      rw [Tx.bind_of_ok Tx.run_set] at h
      obtain ⟨hfactor, rfl⟩ := Tx.pure_ok.mp h
      cases hfactor
      have hkey : (r.userId, r.codeHash) = (user.id, recoveryHash crypto code) := Table.find?_key hfind
      obtain ⟨-, hhash⟩ := Prod.mk.inj hkey
      rw [← hhash] at hfind ⊢
      exact .recovery r now hfind (by simpa using hunused) rfl

/-- What is not accepted changes nothing. -/
theorem consume_none (h : (consume crypto clock now user code).run s = .ok none s') : s' = s := by
  unfold consume at h
  obtain ⟨sealed, -, h⟩ := Tx.orThrow_bind_ok.mp h
  obtain ⟨secret, -, h⟩ := Tx.ofExcept_bind_ok.mp h
  split at h
  · rw [Tx.bind_of_ok (Tx.run_modify _)] at h
    cases (Tx.pure_ok.mp h).1
  · rw [Tx.bind_of_ok Tx.run_get] at h
    dsimp only at h
    split at h
    · exact (Tx.pure_ok.mp h).2
    · rw [Tx.bind_of_ok Tx.run_set] at h
      cases (Tx.pure_ok.mp h).1

namespace Consumed

theorem sessions (h : Consumed s s' user factor) : s'.sessions = s.sessions := by
  cases h with
  | totp step _ hs' => rw [hs']
  | recovery r now _ _ hs' => rw [hs']

/-- The user is there as before, but for the last step. -/
theorem find? (h : Consumed s s' user factor) (hfind : s.users.find? user.id = some user) :
    ∃ user', s'.users.find? user.id = some user' ∧ user'.mfaEnabledAt = user.mfaEnabledAt := by
  cases h with
  | totp step _ hs' =>
    rw [hs']
    exact ⟨_, Table.find?_update_self (MfaUser.advance step) (fun _ => rfl) hfind, rfl⟩
  | recovery r now _ _ hs' =>
    rw [hs']
    exact ⟨user, hfind, rfl⟩

theorem cleared (h : Consumed s s' user factor) (hfind : s.users.find? user.id = some user)
    (hon : user.mfaEnabledAt.isSome = true) (hs : s.Cleared) : s'.Cleared := by
  cases h with
  | totp step _ hs' =>
    rw [hs']
    refine cleared_update (MfaUser.advance step) (fun _ => rfl) hs (fun hnone => ?_) hfind
    have hnone : user.mfaEnabledAt = none := hnone
    simp [hnone] at hon
  | recovery r now _ _ hs' =>
    rw [hs']
    exact hs

theorem not_used (h : Consumed s s' user factor) (hfind : s.users.find? user.id = some user) :
    ¬s.Used factor := by
  cases h with
  | totp step hlater _ =>
    rintro ⟨last, hlast, hle⟩
    rw [lastStep_of_find hfind] at hlast
    have := hlater last hlast
    omega
  | recovery r now hr hunused _ =>
    intro hused
    obtain ⟨hmem, hkey⟩ := Table.find?_eq_some.mp hr
    exact hused r hmem (Prod.mk.inj hkey).1 rfl hunused

theorem used (h : Consumed s s' user factor) (hfind : s.users.find? user.id = some user) :
    s'.Used factor := by
  cases h with
  | totp step _ hs' =>
    refine ⟨step, ?_, le_rfl⟩
    rw [hs', lastStep_update (MfaUser.advance step) (fun _ => rfl) hfind, if_pos rfl]
    rfl
  | recovery r now hr _ hs' =>
    rw [hs']
    intro r' hr' huser hhash
    rcases (Table.mem_update_of_find (fun r : RecoveryCode => { r with usedAt := some now })
      (fun _ => rfl) hr).mp hr' with rfl | ⟨-, hne⟩
    · exact nofun
    · exact absurd (Prod.ext huser hhash) hne

/-- What was spent stays so. -/
theorem keeps (h : Consumed s s' user factor) (hfind : s.users.find? user.id = some user) {k : Factor}
    (hk : s.Used k) : s'.Used k := by
  cases h with
  | totp step hlater hs' =>
    cases k with
    | recovery userId codeHash =>
      rw [hs']
      exact hk
    | totp userId step' =>
      obtain ⟨last, hlast, hle⟩ := hk
      rw [hs']
      by_cases huser : userId = user.id
      · subst huser
        rw [lastStep_of_find hfind] at hlast
        refine ⟨step, ?_, hle.trans (hlater last hlast).le⟩
        rw [lastStep_update (MfaUser.advance step) (fun _ => rfl) hfind, if_pos rfl]
        rfl
      · refine ⟨last, ?_, hle⟩
        rw [lastStep_update (MfaUser.advance step) (fun _ => rfl) hfind, if_neg huser]
        exact hlast
  | recovery r now hr _ hs' =>
    cases k with
    | totp userId step =>
      rw [hs']
      exact hk
    | recovery userId codeHash =>
      rw [hs']
      intro r' hr' huser hhash
      rcases (Table.mem_update_of_find (fun r : RecoveryCode => { r with usedAt := some now })
        (fun _ => rfl) hr).mp hr' with rfl | ⟨hr', -⟩
      · exact nofun
      · exact hk r' hr' huser hhash

end Consumed

theorem insertRecoveryCode_ok {u : Unit}
    (h : (insertRecoveryCode crypto userId restaurantId code).run s = .ok u s') :
    s'.users = s.users ∧ s'.sessions = s.sessions ∧ ∀ r ∈ s'.codes,
      r ∈ s.codes ∨ (r.userId = userId ∧ r.codeHash = recoveryHash crypto code) := by
  unfold insertRecoveryCode at h
  rw [Tx.bind_of_ok Tx.run_get] at h
  obtain ⟨codes, hins, h⟩ := Tx.orThrow_bind_ok.mp h
  cases h
  refine ⟨rfl, rfl, fun r hr => ?_⟩
  rcases (Table.mem_insert? hins).mp hr with hr | rfl
  · exact .inl hr
  · exact .inr ⟨rfl, rfl⟩

/-- By induction on the codes that are inserted. -/
theorem insertRecoveryCodes_ok {u : PUnit}
    (h : (codes.forM (insertRecoveryCode crypto userId restaurantId)).run s = .ok u s') :
    s'.users = s.users ∧ s'.sessions = s.sessions ∧ ∀ r ∈ s'.codes,
      r ∈ s.codes ∨ (r.userId = userId ∧ r.codeHash ∈ codes.map (recoveryHash crypto)) := by
  induction codes generalizing s with
  | nil =>
    obtain ⟨-, rfl⟩ := Tx.pure_ok.mp h
    exact ⟨rfl, rfl, fun r hr => .inl hr⟩
  | cons code codes ih =>
    change (insertRecoveryCode crypto userId restaurantId code >>= fun _ =>
      codes.forM (insertRecoveryCode crypto userId restaurantId)).run s = _ at h
    obtain ⟨_, s₁, hfirst, hrest⟩ := Tx.bind_ok.mp h
    obtain ⟨husers, hsessions, hcodes⟩ := insertRecoveryCode_ok hfirst
    obtain ⟨husers', hsessions', hcodes'⟩ := ih hrest
    refine ⟨husers'.trans husers, hsessions'.trans hsessions, fun r hr => ?_⟩
    rw [List.map_cons]
    rcases hcodes' r hr with hr | ⟨huser, hhash⟩
    · rcases hcodes r hr with hr | ⟨huser, hhash⟩
      · exact .inl hr
      · exact .inr ⟨huser, hhash ▸ List.mem_cons_self⟩
    · exact .inr ⟨huser, List.mem_cons_of_mem _ hhash⟩

/-- The codes of before are gone, and the new ones are the ones that are shown. -/
theorem issueRecoveryCodes_ok
    (h : (issueRecoveryCodes crypto userId restaurantId raws).run s = .ok codes s') :
    s'.users = s.users ∧ s'.sessions = s.sessions ∧ ∀ r ∈ s'.codes, (r ∈ s.codes ∧ r.userId ≠ userId) ∨
      (r.userId = userId ∧ r.codeHash ∈ codes.map (recoveryHash crypto)) := by
  unfold issueRecoveryCodes at h
  dsimp only at h
  rw [Tx.bind_of_ok (Tx.run_modify _)] at h
  obtain ⟨_, s₁, hinsert, h⟩ := Tx.bind_ok.mp h
  obtain ⟨rfl, rfl⟩ := Tx.pure_ok.mp h
  obtain ⟨husers, hsessions, hcodes⟩ := insertRecoveryCodes_ok hinsert
  refine ⟨husers, hsessions, fun r hr => ?_⟩
  rcases hcodes r hr with hr | hr
  · obtain ⟨hr, hne⟩ := Table.mem_deleteWhere.mp hr
    exact .inl ⟨hr, by simpa using hne⟩
  · exact .inr hr

end Calls

/-- What a call does, by what it answers. -/
inductive MfaDoes (crypto : MfaCrypto) (s s' : MfaDb) : MfaEvent → Prop where
  | refused (err : Err) : s' = s → MfaDoes crypto s s' (.refused err)
  | enrolling (user : MfaUser) (secret : SealedSecret) : s.users.find? user.id = some user →
      user.mfaEnabledAt = none →
      s' = { s with users := s.users.update user.id (MfaUser.enrol secret) fun _ => rfl } →
      MfaDoes crypto s s' (.enrolling user.id)
  | enrolled (user : MfaUser) (step : Int) (now : Time) (codes : List String) :
      s.users.find? user.id = some user → user.mfaSecret.isSome = true → user.mfaEnabledAt = none →
      s'.users = s.users.update user.id (MfaUser.enable now step) (MfaUser.enable_key now step) →
      (∀ r ∈ s'.codes, (r ∈ s.codes ∧ r.userId ≠ user.id) ∨
        (r.userId = user.id ∧ r.codeHash ∈ codes.map (recoveryHash crypto))) →
      MfaDoes crypto s s' (.enrolled user.id step codes)
  | disabled (user : MfaUser) (s₁ : MfaDb) (factor : Factor) : s.users.find? user.id = some user →
      user.mfaEnabledAt.isSome = true → Consumed s s₁ user factor →
      s' = { s₁ with
        users := s₁.users.update user.id MfaUser.strip fun _ => rfl
        codes := s₁.codes.deleteWhere fun r => r.userId = user.id } →
      MfaDoes crypto s s' (.disabled user.id factor)
  | regenerated (user : MfaUser) (s₁ : MfaDb) (factor : Factor) (codes : List String) :
      s.users.find? user.id = some user → user.mfaEnabledAt.isSome = true →
      Consumed s s₁ user factor → s'.users = s₁.users →
      (∀ r ∈ s'.codes, (r ∈ s₁.codes ∧ r.userId ≠ user.id) ∨
        (r.userId = user.id ∧ r.codeHash ∈ codes.map (recoveryHash crypto))) →
      MfaDoes crypto s s' (.regenerated user.id factor codes)
  | signedIn (user : MfaUser) (s₁ : MfaDb) (factor : Factor) (session : RefreshSession)
      (sessions : Table RefreshSession) : s.users.find? user.id = some user →
      user.mfaEnabledAt.isSome = true → Consumed s s₁ user factor →
      s₁.sessions.insert? session = some sessions → s' = { s₁ with sessions } →
      MfaDoes crypto s s' (.signedIn factor)

section Calls

variable {crypto : MfaCrypto} {Token : Type} {codec : TokenCodec Token} {config : AuthConfig}
  {s s' s₁ : MfaDb} {user : MfaUser} {factor : Factor} {userId restaurantId : Uuid} {code : String}
  {clock now : Time} {raws codes : List String} {step : Int} {err : Err}

theorem mfaSession_some {jti : Uuid} {issued : IssuedSession Token}
    (h : (mfaSession crypto codec config userId code clock now jti).run s =
      .ok (some (issued, factor)) s') : MfaDoes crypto s s' (.signedIn factor) := by
  unfold mfaSession at h
  rw [Tx.bind_of_ok Tx.run_get] at h
  split at h
  · cases (Tx.pure_ok.mp h).1
  · rename_i user huser
    obtain ⟨hfind, hon⟩ := Option.filter_eq_some_iff.mp huser
    obtain rfl : user.id = userId := Table.find?_key hfind
    obtain ⟨accepted, s₁, hconsume, h⟩ := Tx.bind_ok.mp h
    cases accepted with
    | none => cases (Tx.pure_ok.mp h).1
    | some factor' =>
      obtain ⟨issued', s₂, hissue, h⟩ := Tx.bind_ok.mp h
      obtain ⟨heq, rfl⟩ := Tx.pure_ok.mp h
      cases heq
      obtain ⟨t, hissued, rfl⟩ := Tx.zoom_ok.mp hissue
      obtain ⟨session, sessions, -, -, hins, rfl⟩ := issueSession_ok hissued
      simp only [Bool.and_eq_true] at hon
      exact .signedIn user s₁ factor session sessions hfind hon.2 (consume_ok hconsume) hins rfl

theorem mfaSession_none {jti : Uuid}
    (h : (mfaSession crypto codec config userId code clock now jti).run s = .ok none s') : s' = s := by
  unfold mfaSession at h
  rw [Tx.bind_of_ok Tx.run_get] at h
  split at h
  · exact (Tx.pure_ok.mp h).2
  · obtain ⟨accepted, s₁, hconsume, h⟩ := Tx.bind_ok.mp h
    cases accepted with
    | none =>
      obtain ⟨-, rfl⟩ := Tx.pure_ok.mp h
      exact consume_none hconsume
    | some factor' =>
      obtain ⟨issued', s₂, -, h⟩ := Tx.bind_ok.mp h
      cases (Tx.pure_ok.mp h).1

theorem completeMfaLogin_ok {challenge : String} {throttled : Option Err} {jti : Uuid}
    {issued : IssuedSession Token}
    (h : (completeMfaLogin crypto codec config challenge code throttled clock now jti).run s =
      .ok (issued, factor) s') : MfaDoes crypto s s' (.signedIn factor) := by
  unfold completeMfaLogin at h
  obtain ⟨userId, -, h⟩ := Tx.orThrow_bind_ok.mp h
  obtain ⟨_, _, hforbid, h⟩ := Tx.bind_ok.mp h
  rw [(Tx.forbid_ok.mp hforbid).2] at h
  obtain ⟨session, s₁, htx, h⟩ := Tx.bind_ok.mp h
  obtain ⟨rfl, rfl⟩ := Tx.orThrow_ok.mp h
  exact mfaSession_some (Tx.withTransaction_ok.mp htx)

/-- A login that is refused leaves nothing, whether its transaction has been rolled back or has found
nothing to accept. -/
theorem completeMfaLogin_error {challenge : String} {throttled : Option Err} {jti : Uuid}
    (h : (completeMfaLogin crypto codec config challenge code throttled clock now jti).run s =
      .error err s') : s' = s := by
  unfold completeMfaLogin at h
  rcases Tx.bind_error.mp h with h | ⟨userId, s₁, hclaims, h⟩
  · exact (Tx.orThrow_error.mp h).2.2
  · rw [(Tx.orThrow_ok.mp hclaims).2] at h
    rcases Tx.bind_error.mp h with h | ⟨_, s₂, hforbid, h⟩
    · exact (Tx.forbid_error.mp h).2
    · rw [(Tx.forbid_ok.mp hforbid).2] at h
      rcases Tx.bind_error.mp h with h | ⟨session, s₃, htx, h⟩
      · obtain ⟨_, -, rfl⟩ := Tx.withTransaction_error.mp h
        rfl
      · obtain ⟨rfl, -, rfl⟩ := Tx.orThrow_error.mp h
        exact mfaSession_none (Tx.withTransaction_ok.mp htx)

theorem beginEnrolment_ok {secret : SealedSecret} {u : Unit}
    (h : (beginEnrolment userId restaurantId secret).run s = .ok u s') :
    MfaDoes crypto s s' (.enrolling userId) := by
  unfold beginEnrolment at h
  rw [Tx.bind_of_ok Tx.run_get] at h
  obtain ⟨user, huser, h⟩ := Tx.orThrow_bind_ok.mp h
  cases h
  obtain ⟨huser, hoff⟩ := Option.filter_eq_some_iff.mp huser
  have hfind := user?_eq_some huser
  obtain rfl : user.id = userId := Table.find?_key hfind
  exact .enrolling user secret hfind (by simpa using hoff) rfl

theorem beginEnrolment_error {secret : SealedSecret}
    (h : (beginEnrolment userId restaurantId secret).run s = .error err s') : s' = s := by
  unfold beginEnrolment at h
  rw [Tx.bind_of_ok Tx.run_get] at h
  rcases Tx.bind_error.mp h with h | ⟨_, _, -, h⟩
  · exact (Tx.orThrow_error.mp h).2.2
  · cases h

theorem confirmEnrolment_ok
    (h : (confirmEnrolment crypto userId restaurantId code clock now raws).run s =
      .ok (step, codes) s') : MfaDoes crypto s s' (.enrolled userId step codes) := by
  unfold confirmEnrolment at h
  have h := Tx.withTransaction_ok.mp h
  rw [Tx.bind_of_ok Tx.run_get] at h
  dsimp only at h
  obtain ⟨user, huser, h⟩ := Tx.orThrow_bind_ok.mp h
  obtain ⟨sealed, hsecret, h⟩ := Tx.orThrow_bind_ok.mp h
  obtain ⟨hoff, h⟩ := Tx.require_bind_ok.mp h
  obtain ⟨secret, -, h⟩ := Tx.ofExcept_bind_ok.mp h
  obtain ⟨step', -, h⟩ := Tx.orThrow_bind_ok.mp h
  rw [Tx.bind_of_ok (Tx.run_modify _)] at h
  obtain ⟨codes', s₁, hissue, h⟩ := Tx.bind_ok.mp h
  obtain ⟨heq, rfl⟩ := Tx.pure_ok.mp h
  cases heq
  obtain ⟨husers, -, hcodes⟩ := issueRecoveryCodes_ok hissue
  have hfind := user?_eq_some huser
  obtain rfl : user.id = userId := Table.find?_key hfind
  exact .enrolled user step now codes hfind (by rw [hsecret]; rfl) hoff husers hcodes

theorem disable_ok (h : (disable crypto userId restaurantId code clock now).run s = .ok factor s') :
    MfaDoes crypto s s' (.disabled userId factor) := by
  unfold disable at h
  have h := Tx.withTransaction_ok.mp h
  rw [Tx.bind_of_ok Tx.run_get] at h
  obtain ⟨user, huser, h⟩ := Tx.orThrow_bind_ok.mp h
  obtain ⟨accepted, s₁, hconsume, h⟩ := Tx.bind_ok.mp h
  obtain ⟨factor', haccepted, h⟩ := Tx.orThrow_bind_ok.mp h
  rw [Tx.bind_of_ok (Tx.run_modify _)] at h
  obtain ⟨rfl, rfl⟩ := Tx.pure_ok.mp h
  subst haccepted
  obtain ⟨huser, hon⟩ := Option.filter_eq_some_iff.mp huser
  have hfind := user?_eq_some huser
  obtain rfl : user.id = userId := Table.find?_key hfind
  exact .disabled user s₁ factor hfind hon (consume_ok hconsume) rfl

theorem regenerateRecoveryCodes_ok
    (h : (regenerateRecoveryCodes crypto userId restaurantId code clock now raws).run s =
      .ok (factor, codes) s') : MfaDoes crypto s s' (.regenerated userId factor codes) := by
  unfold regenerateRecoveryCodes at h
  have h := Tx.withTransaction_ok.mp h
  rw [Tx.bind_of_ok Tx.run_get] at h
  obtain ⟨user, huser, h⟩ := Tx.orThrow_bind_ok.mp h
  obtain ⟨accepted, s₁, hconsume, h⟩ := Tx.bind_ok.mp h
  obtain ⟨factor', haccepted, h⟩ := Tx.orThrow_bind_ok.mp h
  obtain ⟨codes', s₂, hissue, h⟩ := Tx.bind_ok.mp h
  obtain ⟨heq, rfl⟩ := Tx.pure_ok.mp h
  cases heq
  subst haccepted
  obtain ⟨husers, -, hcodes⟩ := issueRecoveryCodes_ok hissue
  obtain ⟨huser, hon⟩ := Option.filter_eq_some_iff.mp huser
  have hfind := user?_eq_some huser
  obtain rfl : user.id = userId := Table.find?_key hfind
  exact .regenerated user s₁ factor codes hfind hon (consume_ok hconsume) husers hcodes

/-- A call that fails leaves nothing. -/
theorem answer_error {call : MfaCall} (h : (call.answer crypto codec config).run s = .error err s') :
    s' = s := by
  have hatomic : ∀ {α : Type} {x : Tx Err MfaDb α} {err : Err} {s' : MfaDb},
      (Tx.withTransaction x).run s = .error err s' → s' = s := by
    intro α x err s' h
    exact Tx.atomic_withTransaction x (fun _ _ => rfl) s err s' h
  cases call with
  | beginEnrolment userId restaurantId secret =>
    rcases Tx.bind_error.mp h with h | ⟨_, _, -, h⟩
    · exact beginEnrolment_error h
    · cases h
  | confirmEnrolment userId restaurantId code clock now raws =>
    rcases Tx.bind_error.mp h with h | ⟨_, _, -, h⟩
    · exact hatomic h
    · cases h
  | disable userId restaurantId code clock now =>
    rcases Tx.bind_error.mp h with h | ⟨_, _, -, h⟩
    · exact hatomic h
    · cases h
  | regenerateRecoveryCodes userId restaurantId code clock now raws =>
    rcases Tx.bind_error.mp h with h | ⟨_, _, -, h⟩
    · exact hatomic h
    · cases h
  | completeMfaLogin challenge code throttled clock now jti =>
    rcases Tx.bind_error.mp h with h | ⟨_, _, -, h⟩
    · exact completeMfaLogin_error h
    · cases h

variable (crypto codec config) in
/-- One call, by what it answers. -/
theorem call_does (s : MfaDb) (call : MfaCall) :
    ∃ s' e, (mfa crypto codec config).step s call = (s', [e]) ∧ MfaDoes crypto s s' e ∧
      (call.isLogin = true → (∃ factor, e = .signedIn factor) ∨ ∃ err, e = .refused err) := by
  change ∃ s' e, call.step crypto codec config s = _ ∧ _
  unfold MfaCall.step
  cases hrun : (call.answer crypto codec config).run s with
  | error err s' => exact ⟨s', _, rfl, .refused err (answer_error hrun), fun _ => .inr ⟨err, rfl⟩⟩
  | ok e s' =>
    refine ⟨s', e, rfl, ?_⟩
    cases call with
    | beginEnrolment userId restaurantId secret =>
      obtain ⟨_, s₁, hok, h⟩ := Tx.bind_ok.mp hrun
      obtain ⟨rfl, rfl⟩ := Tx.pure_ok.mp h
      exact ⟨beginEnrolment_ok hok, nofun⟩
    | confirmEnrolment userId restaurantId code clock now raws =>
      obtain ⟨_, s₁, hok, h⟩ := Tx.bind_ok.mp hrun
      obtain ⟨rfl, rfl⟩ := Tx.pure_ok.mp h
      exact ⟨confirmEnrolment_ok hok, nofun⟩
    | disable userId restaurantId code clock now =>
      obtain ⟨_, s₁, hok, h⟩ := Tx.bind_ok.mp hrun
      obtain ⟨rfl, rfl⟩ := Tx.pure_ok.mp h
      exact ⟨disable_ok hok, nofun⟩
    | regenerateRecoveryCodes userId restaurantId code clock now raws =>
      obtain ⟨_, s₁, hok, h⟩ := Tx.bind_ok.mp hrun
      obtain ⟨rfl, rfl⟩ := Tx.pure_ok.mp h
      exact ⟨regenerateRecoveryCodes_ok hok, nofun⟩
    | completeMfaLogin challenge code throttled clock now jti =>
      obtain ⟨_, s₁, hok, h⟩ := Tx.bind_ok.mp hrun
      obtain ⟨rfl, rfl⟩ := Tx.pure_ok.mp h
      exact ⟨completeMfaLogin_ok hok, fun _ => .inl ⟨_, rfl⟩⟩

end Calls

/-! ## Once -/

namespace MfaDb

/-- Each step that is accepted is later than the last one of its user, and is the last one then, unless
the factor is off. -/
def Rises (s s' : MfaDb) (e : MfaEvent) : Prop :=
  ∀ userId step, e.spends = some (.totp userId step) → (∀ last ∈ s.lastStep userId, last < step) ∧
    (s'.lastStep userId = some step ∨ ∃ factor, e = .disabled userId factor)

end MfaDb

namespace MfaDoes

variable {crypto : MfaCrypto} {s s' : MfaDb} {e : MfaEvent} {factor : Factor}

theorem cleared (h : MfaDoes crypto s s' e) (hs : s.Cleared) : s'.Cleared := by
  cases h with
  | refused err hs' =>
    rw [hs']
    exact hs
  | enrolling user secret hfind _ hs' =>
    rw [hs']
    exact cleared_update (MfaUser.enrol secret) (fun _ => rfl) hs (fun _ => rfl) hfind
  | enrolled user step now codes hfind hsecret _ husers _ =>
    intro u hu
    rw [husers] at hu
    refine cleared_update (MfaUser.enable now step) (MfaUser.enable_key now step) hs ?_ hfind u hu
    simp [MfaUser.enable, hsecret]
  | disabled user s₁ factor hfind hon hconsumed hs' =>
    obtain ⟨user', hfind', -⟩ := hconsumed.find? hfind
    rw [hs']
    exact cleared_update MfaUser.strip (fun _ => rfl) (hconsumed.cleared hfind hon hs) (fun _ => rfl) hfind'
  | regenerated user s₁ factor codes hfind hon hconsumed husers _ =>
    intro u hu
    rw [husers] at hu
    exact hconsumed.cleared hfind hon hs u hu
  | signedIn user s₁ factor session sessions hfind hon hconsumed _ hs' =>
    rw [hs']
    exact hconsumed.cleared hfind hon hs

/-- What a call accepts has not been spent. -/
theorem not_used (h : MfaDoes crypto s s' e) (hs : s.Cleared) (he : e.spends = some factor) :
    ¬s.Used factor := by
  cases h with
  | refused | enrolling => cases he
  | enrolled user step now codes hfind _ hoff _ _ =>
    obtain rfl := Option.some.inj he
    rintro ⟨last, hlast, -⟩
    rw [lastStep_of_find hfind, hs user (Table.find?_mem hfind) hoff] at hlast
    cases hlast
  | disabled user s₁ factor hfind _ hconsumed _ =>
    obtain rfl := Option.some.inj he
    exact hconsumed.not_used hfind
  | regenerated user s₁ factor codes hfind _ hconsumed _ _ =>
    obtain rfl := Option.some.inj he
    exact hconsumed.not_used hfind
  | signedIn user s₁ factor session sessions hfind _ hconsumed _ _ =>
    obtain rfl := Option.some.inj he
    exact hconsumed.not_used hfind

/-- Codes are issued in place of others: what is spent stays so, unless it is issued. -/
theorem recovery_issued {s₁ : MfaDb} {userId userId' : Uuid} {codeHash : String} {hashes : List String}
    (hk : s₁.Used (.recovery userId' codeHash))
    (hcodes : ∀ r ∈ s'.codes, (r ∈ s₁.codes ∧ r.userId ≠ userId) ∨
      (r.userId = userId ∧ r.codeHash ∈ hashes)) :
    s'.Used (.recovery userId' codeHash) ∨ (userId' = userId ∧ codeHash ∈ hashes) := by
  by_cases hissued : userId' = userId ∧ codeHash ∈ hashes
  · exact .inr hissued
  · refine .inl fun r hr huser hhash => ?_
    rcases hcodes r hr with ⟨hr, -⟩ | ⟨huser', hhash'⟩
    · exact hk r hr huser hhash
    · exact absurd ⟨huser ▸ huser', hhash ▸ hhash'⟩ hissued

/-- What has been spent, or is by the call, stays so, unless the call renews it. -/
theorem done (h : MfaDoes crypto s s' e) (hs : s.Cleared)
    (hk : s.Used factor ∨ e.spends = some factor) : s'.Used factor ∨ e.Renews crypto factor := by
  cases h with
  | refused err hs' =>
    rw [hs']
    exact .inl (hk.resolve_right nofun)
  | enrolling user secret hfind hoff hs' =>
    have hused := hk.resolve_right nofun
    cases factor with
    | recovery userId codeHash =>
      rw [hs']
      exact .inl hused
    | totp userId step =>
      obtain ⟨last, hlast, hle⟩ := hused
      refine .inl ⟨last, ?_, hle⟩
      rw [hs', lastStep_update (MfaUser.enrol secret) (fun _ => rfl) hfind]
      split
      · rename_i huser
        rw [huser, lastStep_of_find hfind, hs user (Table.find?_mem hfind) hoff] at hlast
        cases hlast
      · exact hlast
  | enrolled user step now codes hfind hsecret hoff husers hcodes =>
    have hlast : ∀ userId,
        s'.lastStep userId = if userId = user.id then some step else s.lastStep userId := by
      intro userId
      have := lastStep_update (MfaUser.enable now step) (MfaUser.enable_key now step) hfind userId
      simp only [MfaUser.enable, hsecret, dite_true] at this
      rw [← this]
      unfold MfaDb.lastStep
      rw [husers]
    cases factor with
    | totp userId step' =>
      left
      rcases hk with ⟨last, hmem, hle⟩ | hspent
      · refine ⟨last, ?_, hle⟩
        rw [hlast, if_neg ?_]
        · exact hmem
        · rintro rfl
          rw [lastStep_of_find hfind, hs user (Table.find?_mem hfind) hoff] at hmem
          cases hmem
      · cases hspent
        exact ⟨step, by rw [hlast, if_pos rfl, Option.mem_def], le_rfl⟩
    | recovery userId codeHash => exact recovery_issued (hk.resolve_right nofun) hcodes
  | disabled user s₁ factor' hfind _ hconsumed hs' =>
    have hused : s₁.Used factor := by
      rcases hk with hk | hspent
      · exact hconsumed.keeps hfind hk
      · obtain rfl := Option.some.inj hspent
        exact hconsumed.used hfind
    obtain ⟨user', hfind', -⟩ := hconsumed.find? hfind
    cases factor with
    | totp userId step =>
      by_cases huser : userId = user.id
      · exact .inr huser
      · obtain ⟨last, hlast, hle⟩ := hused
        refine .inl ⟨last, ?_, hle⟩
        have := lastStep_update MfaUser.strip (fun _ => rfl) hfind' userId
        rw [if_neg huser] at this
        rw [hs']
        exact this.trans hlast
    | recovery userId codeHash =>
      left
      rw [hs']
      exact fun r hr => hused r (Table.mem_deleteWhere.mp hr).1
  | regenerated user s₁ factor' codes hfind _ hconsumed husers hcodes =>
    have hused : s₁.Used factor := by
      rcases hk with hk | hspent
      · exact hconsumed.keeps hfind hk
      · obtain rfl := Option.some.inj hspent
        exact hconsumed.used hfind
    have hlast : ∀ userId, s'.lastStep userId = s₁.lastStep userId := by
      intro userId
      unfold MfaDb.lastStep
      rw [husers]
    cases factor with
    | totp userId step =>
      obtain ⟨last, hmem, hle⟩ := hused
      exact .inl ⟨last, (hlast userId).symm ▸ hmem, hle⟩
    | recovery userId codeHash => exact recovery_issued hused hcodes
  | signedIn user s₁ factor' session sessions hfind _ hconsumed _ hs' =>
    left
    rw [hs']
    rcases hk with hk | hspent
    · exact hconsumed.keeps hfind hk
    · obtain rfl := Option.some.inj hspent
      exact hconsumed.used hfind

/-- The step of a code is accepted behind the last one, which it becomes. -/
theorem rises (h : MfaDoes crypto s s' e) (hs : s.Cleared) : s.Rises s' e := by
  intro userId step he
  have hlater : ∀ last ∈ s.lastStep userId, last < step := by
    intro last hlast
    by_contra hle
    exact h.not_used hs he ⟨last, hlast, by omega⟩
  refine ⟨hlater, ?_⟩
  have hconsumed_last : ∀ {user : MfaUser} {s₁ : MfaDb}, s.users.find? user.id = some user →
      Consumed s s₁ user (.totp userId step) → s₁.lastStep userId = some step := by
    intro user s₁ hfind hconsumed
    cases hconsumed with
    | totp _ _ hs₁ =>
      rw [hs₁, lastStep_update (MfaUser.advance step) (fun _ => rfl) hfind, if_pos rfl]
      rfl
  cases h with
  | refused | enrolling => cases he
  | enrolled user step' now codes hfind hsecret _ husers _ =>
    cases he
    left
    have := lastStep_update (MfaUser.enable now step) (MfaUser.enable_key now step) hfind user.id
    simp only [MfaUser.enable, hsecret, dite_true, if_true] at this
    unfold MfaDb.lastStep
    rw [husers]
    exact this
  | disabled user s₁ factor hfind _ hconsumed _ =>
    obtain rfl := Option.some.inj he
    cases hconsumed with
    | totp => exact .inr ⟨_, rfl⟩
  | regenerated user s₁ factor codes hfind _ hconsumed husers _ =>
    obtain rfl := Option.some.inj he
    left
    unfold MfaDb.lastStep
    rw [husers]
    exact hconsumed_last hfind hconsumed
  | signedIn user s₁ factor session sessions hfind _ hconsumed _ hs' =>
    obtain rfl := Option.some.inj he
    left
    rw [hs']
    have hlast := hconsumed_last hfind hconsumed
    exact hlast

end MfaDoes

/-- What `consume` accepts is all that is spent. -/
theorem Consumed.spends_iff {s s₁ s' : MfaDb} {user : MfaUser} {factor : Factor}
    (h : Consumed s s₁ user factor) (hfind : s.users.find? user.id = some user)
    (husers : s'.users = s₁.users) (hcodes : s'.codes = s₁.codes) (factor' : Factor) :
    s.Spends s' factor' ↔ factor' = factor := by
  have hlast : ∀ userId, s'.lastStep userId = s₁.lastStep userId := by
    intro userId
    unfold MfaDb.lastStep
    rw [husers]
  cases h with
  | totp step hlater hs₁ =>
    have hadvance := lastStep_update (MfaUser.advance step) (fun _ => rfl) hfind
    cases factor' with
    | totp userId step' =>
      rw [MfaDb.Spends, hlast, hs₁, hadvance]
      constructor
      · rintro ⟨hnew, hold⟩
        split at hnew
        · rename_i huser
          subst huser
          cases hnew
          rfl
        · exact absurd hnew hold
      · rintro heq
        obtain ⟨rfl, rfl⟩ := Factor.totp.inj heq
        rw [if_pos rfl]
        refine ⟨rfl, fun hold => ?_⟩
        rw [lastStep_of_find hfind] at hold
        exact lt_irrefl _ (hlater _ hold)
    | recovery userId codeHash =>
      rw [MfaDb.Spends, hcodes, hs₁]
      refine iff_of_false ?_ nofun
      rintro ⟨⟨r, hr, hunused⟩, r', hr', hused⟩
      obtain rfl : r = r' := Option.some.inj (hr.symm.trans hr')
      rw [hunused] at hused
      cases hused
  | recovery r now hr hunused hs₁ =>
    cases factor' with
    | totp userId step' =>
      rw [MfaDb.Spends, hlast, hs₁]
      exact iff_of_false (fun h => h.2 h.1) nofun
    | recovery userId codeHash =>
      rw [MfaDb.Spends, hcodes, hs₁,
        Table.find?_update_with (fun r : RecoveryCode => { r with usedAt := some now }) fun _ => rfl]
      constructor
      · rintro ⟨⟨r₀, hr₀, hunused₀⟩, r', hr', hused⟩
        split at hr'
        · rename_i hkey
          obtain ⟨rfl, rfl⟩ := Prod.mk.inj hkey
          rfl
        · obtain rfl : r₀ = r' := Option.some.inj (hr₀.symm.trans hr')
          rw [hunused₀] at hused
          cases hused
      · rintro heq
        obtain ⟨rfl, rfl⟩ := Factor.recovery.inj heq
        rw [if_pos rfl, hr]
        exact ⟨⟨r, rfl, hunused⟩, _, rfl, rfl⟩

theorem not_spends_self {s : MfaDb} (factor : Factor) : ¬s.Spends s factor := by
  cases factor with
  | totp userId step => exact fun h => h.2 h.1
  | recovery userId codeHash =>
    rintro ⟨⟨r, hr, hunused⟩, r', hr', hused⟩
    obtain rfl : r = r' := Option.some.inj (hr.symm.trans hr')
    rw [hunused] at hused
    cases hused

section Runs

variable {Token : Type} (crypto : MfaCrypto) (codec : TokenCodec Token) (config : AuthConfig)

/-- The steps that a call accepts rise, and a login issues a session exactly when it spends one factor. -/
structure SpendsOne (s : MfaDb) (call : MfaCall) : Prop where
  rises : ∀ e ∈ ((mfa crypto codec config).step s call).2,
    s.Rises ((mfa crypto codec config).step s call).1 e
  signsIn : call.isLogin = true →
    ((∃ session ∈ ((mfa crypto codec config).step s call).1.sessions, session ∉ s.sessions) ↔
      ∃! factor, s.Spends ((mfa crypto codec config).step s call).1 factor)

variable {crypto codec config}

theorem spendsOne {s : MfaDb} (hs : s.Cleared) (call : MfaCall) :
    SpendsOne crypto codec config s call := by
  obtain ⟨s', e, hstep, hdoes, hlogin⟩ := call_does crypto codec config s call
  refine ⟨?_, ?_⟩
  · rw [hstep]
    intro e' he'
    obtain rfl := List.mem_singleton.mp he'
    exact hdoes.rises hs
  · intro hcall
    rw [hstep]
    rcases hlogin hcall with ⟨factor, rfl⟩ | ⟨err, rfl⟩
    · cases hdoes with
      | signedIn user s₁ _ session sessions hfind _ hconsumed hins hs' =>
        subst hs'
        have hnew : session ∉ s.sessions := by
          rw [← hconsumed.sessions]
          exact fun hmem => (Table.insert?_eq_some.mp hins).1 session hmem rfl
        refine iff_of_true ⟨session, (Table.mem_insert? hins).mpr (.inr rfl), hnew⟩ ⟨factor, ?_, ?_⟩
        · exact (hconsumed.spends_iff hfind rfl rfl factor).mpr rfl
        · exact fun factor' => (hconsumed.spends_iff hfind rfl rfl factor').mp
    · cases hdoes with
      | refused _ hs' =>
        subst hs'
        refine iff_of_false ?_ ?_
        · rintro ⟨session, hmem, hnot⟩
          exact hnot hmem
        · rintro ⟨factor, hspends, -⟩
          exact not_spends_self factor hspends

/-- Calls accept what has not been spent, and it is spent then. -/
theorem mfaRule : (mfa crypto codec config).SpendingRule MfaDb.Cleared (fun _ _ => True)
    (fun e factor => e.spends = some factor) MfaEvent.spends (MfaEvent.Renews crypto) MfaDb.Used where
  step s call hs _ := by
    obtain ⟨s', e, hstep, hdoes, -⟩ := call_does crypto codec config s call
    rw [hstep]
    exact hdoes.cleared hs
  one s call _ _ := by
    obtain ⟨s', e, hstep, -, -⟩ := call_does crypto codec config s call
    rw [hstep]
    exact le_rfl
  used s call hs _ := by
    obtain ⟨s', e, hstep, hdoes, -⟩ := call_does crypto codec config s call
    rw [hstep]
    intro e' he' factor hspends
    obtain rfl := List.mem_singleton.mp he'
    exact hdoes.not_used hs hspends
  done s call hs _ := by
    obtain ⟨s', e, hstep, hdoes, -⟩ := call_does crypto codec config s call
    rw [hstep]
    intro factor hk
    have hk : s.Used factor ∨ e.spends = some factor := hk.imp_right fun ⟨e', he', hspends⟩ => by
      obtain rfl := List.mem_singleton.mp he'
      exact hspends
    exact (hdoes.done hs hk).imp_right fun hrenews => ⟨e, List.mem_singleton.mpr rfl, hrenews⟩

/-- Whatever calls follow each other with whatever clocks: a step of an authenticator is accepted once
until it is off, and a recovery code once until it is issued again; steps rise, and a login issues a
session exactly when it spends one factor. -/
theorem factors_spent_once (crypto : MfaCrypto) (codec : TokenCodec Token) (config : AuthConfig)
    (s : MfaDb) (hs : s.Cleared) (calls : List MfaCall) :
    SpentOnce MfaEvent.spends (MfaEvent.Renews crypto) ((mfa crypto codec config).outputs s calls) ∧
      (mfa crypto codec config).Every (SpendsOne crypto codec config) s calls := by
  have hany : (mfa crypto codec config).Every (fun _ _ => True) s calls :=
    Machine.every_input.mpr fun _ _ => trivial
  exact ⟨mfaRule.outputs_barred hs hany,
    Machine.every_imp mfaRule.step (fun s call hs _ => spendsOne hs call) hs hany⟩

end Runs

/-! ## A replayed code -/

/-- Secrets that are not sealed, and codes that count the steps. -/
def mfaCrypto : MfaCrypto where
  openBox := .ok
  codeForStep _ step := some (toString (100000 + step))
  hashToken := id
  verifyMfaChallenge _ := some 7
  toUpperCase := id

def passwordOnly : MfaDb where
  users := ⟨[⟨⟨7, 1, "owner@example.com", "owner", true, none⟩, none, none, none, nofun⟩], by decide⟩
  codes := ∅
  sessions := ∅

/-- A set-up with the code of step 33, a login with the next one half a minute later, and another one with
the code of the set-up, which the window still has. -/
def replayed : List MfaCall :=
  [.beginEnrolment 7 1 ⟨"secret", 1⟩,
    .confirmEnrolment 7 1 "100033" 990000 990000 ["AAAAAAAABBBBBBBB"],
    .completeMfaLogin "7" "100034" none 1020000 1020000 100,
    .completeMfaLogin "7" "100033" none 1020000 1020000 200,
    .completeMfaLogin "7" "AAAAAAAA-BBBBBBBB" none 1020000 1020000 300]

example : (mfa mfaCrypto plainCodec dayConfig).outputs passwordOnly replayed =
    [.enrolling 7, .enrolled 7 33 ["AAAAAAAA-BBBBBBBB"], .signedIn (.totp 7 34),
      .refused (unauthorized "Invalid credentials"), .signedIn (.recovery 7 "AAAAAAAABBBBBBBB")] := by
  decide +kernel

theorem replay_refused :
    SpentOnce MfaEvent.spends (MfaEvent.Renews mfaCrypto)
        ((mfa mfaCrypto plainCodec dayConfig).outputs passwordOnly replayed) ∧
      (mfa mfaCrypto plainCodec dayConfig).Every (SpendsOne mfaCrypto plainCodec dayConfig) passwordOnly
        replayed :=
  factors_spent_once mfaCrypto plainCodec dayConfig passwordOnly
    (fun u hu _ => by
      obtain rfl := List.mem_singleton.mp hu
      rfl) replayed

end Splite
