import Splite.Auth.Totp
import Splite.Lib.Interleave

/-!
# Operators of the console (`services/operators.js`)

Logins, setups, resets and checked sessions of one operator, statement by statement. A session token
says who it is of and until when; which password and which second factor it was given for, only the
version of the authenticator would tell, and no check asks for it.

* `operatorsRule`: as long as no setup is completed over older sessions, an activated operator has
  sessions of the current credentials only.
* `reset_ends_sessions`: then no session from before a reset is accepted after it.
-/

namespace Splite

/-- A row of `platform_operators`. -/
structure Operator where
  id : Uuid
  email : String
  displayName : String
  role : String
  passwordHash : Option String
  totpVersion : Nat
  totpLastStep : Option Int
  setupTokenHash : Option String
  setupExpiresAt : Option Time
  activatedAt : Option Time
  active : Bool
  lastLoginAt : Option Time
  deriving DecidableEq, Repr

/-- What the code takes from `argon2`, from the HMAC of the authenticator's secret, and from
`sha256`. -/
structure OperatorCrypto where
  verifyPassword : String → String → Bool
  codeForStep : Uuid → Nat → Int → Option String
  hashToken : String → String

/-- A session token that has been signed. It carries who it is of, the role and until when; `version` is
the one of the credentials that were verified for it. -/
structure OperatorToken where
  sub : Uuid
  role : String
  exp : Time
  version : Nat
  deriving DecidableEq, Repr

/-- The operator as committed, the tokens signed so far, and the clock. -/
structure OperatorDb where
  operator : Operator
  signed : List OperatorToken
  now : Time
  deriving DecidableEq, Repr

namespace Operators

def ROLES : List String := ["ADMIN", "SUPPORT"]

/-- Milliseconds. -/
def SETUP_TTL : Time := 72 * 60 * 60 * 1000

def SESSION_TTL : Time := 8 * 60 * 60 * 1000

/-- `signSession(op)`. -/
def signSession (db : OperatorDb) (op : Operator) : OperatorToken :=
  ⟨op.id, op.role, db.now + SESSION_TTL, op.totpVersion⟩

/-- `verifySession(token)`, of a token that has been signed here. -/
def verifySession (db : OperatorDb) (token : OperatorToken) : Bool :=
  db.now < token.exp && ROLES.contains token.role

/-- What `findBySetupToken` selects in a transaction that began at `started`. -/
def acceptsSetup (crypto : OperatorCrypto) (op : Operator) (token : String) (started : Time) : Bool :=
  op.setupTokenHash = some (crypto.hashToken token) && op.setupExpiresAt.any (started < ·) && op.active

end Operators

inductive OperatorCall where
  | login (email password code : String)
  /-- `passwordHash` is what `argon2.hash` has made of the password. -/
  | setupComplete (token passwordHash code : String)
  /-- `hash` is the one of the new setup token. -/
  | resetOperator (email hash : String)
  /-- A request with a token that has been signed, which `authenticateOperator` checks. -/
  | check (token : OperatorToken)
  /-- Time passes. -/
  | elapse (ms : Nat)
  deriving DecidableEq, Repr

/-- The next statement. -/
inductive OperatorPhase where
  | begun (call : OperatorCall)
  /-- The row is read, and the password and the code are still to be verified. -/
  | loginRead (op : Operator) (password code : String)
  /-- `UPDATE … WHERE totp_last_step IS NULL OR totp_last_step < $2`. -/
  | loginMatched (op : Operator) (step : Int)
  /-- The step is written; `COMMIT`. -/
  | loginAdvanced (op : Operator) (step : Int)
  /-- `SELECT … FOR UPDATE` of `findBySetupToken`. -/
  | setupLocking (token passwordHash code : String) (started : Time)
  | setupPending (op : Operator) (passwordHash code : String)
  | setupUpdated (op : Operator) (passwordHash : String) (step : Int)
  | resetUpdated (hash : String)
  /-- The session is signed, once the transaction has committed. -/
  | signing (op : Operator)
  /-- `current(claims.sub)`. -/
  | checking (token : OperatorToken)
  deriving DecidableEq, Repr

/-- It has locked the row. -/
def OperatorPhase.holds : OperatorPhase → Bool
  | .loginAdvanced _ _ | .setupPending _ _ _ | .setupUpdated _ _ _ | .resetUpdated _ => true
  | _ => false

/-- The version of the credentials that a call has read, or of the token that it checks. -/
def OperatorPhase.version : OperatorPhase → Option Nat
  | .loginRead op _ _ | .loginMatched op _ | .loginAdvanced op _ | .setupPending op _ _
  | .setupUpdated op _ _ | .signing op => some op.totpVersion
  | .checking token => some token.version
  | _ => none

/-- The row that a setup has locked. -/
def OperatorPhase.pending : OperatorPhase → Option Operator
  | .setupPending op _ _ | .setupUpdated op _ _ => some op
  | _ => none

theorem OperatorPhase.holds_of_pending {t : OperatorPhase} {op : Operator} (h : op ∈ t.pending) :
    t.holds = true := by
  cases t <;> first | rfl | cases h

inductive OperatorEvent where
  | signed (token : OperatorToken)
  | reset
  | accepted (token : OperatorToken)
  | refused (err : Err)
  deriving DecidableEq, Repr

namespace Operators

def invalidCredentials : Err := .api .invalidCredentials "Invalid credentials" []

/-- The `UPDATE` of `resetOperator`. -/
def resetRow (db : OperatorDb) (hash : String) : Operator :=
  { db.operator with
    passwordHash := none, activatedAt := none, totpVersion := db.operator.totpVersion + 1
    totpLastStep := none, setupTokenHash := some hash, setupExpiresAt := some (db.now + SETUP_TTL) }

/-- The `UPDATE` of `setupComplete`. -/
def activatedRow (db : OperatorDb) (passwordHash : String) (step : Int) : Operator :=
  { db.operator with
    passwordHash := some passwordHash, activatedAt := some db.now, totpLastStep := some step
    setupTokenHash := none, setupExpiresAt := none, lastLoginAt := some db.now }

end Operators

open Operators in
/-- The next statement, beside the other calls. -/
def OperatorPhase.next (crypto : OperatorCrypto) (db : OperatorDb) (others : List OperatorPhase) :
    OperatorPhase → Advance OperatorDb OperatorPhase OperatorEvent
  | .begun (.login email password code) =>
    if lowered db.operator.email = lowered email then .goes db (.loginRead db.operator password code) []
    else .ends db [.refused invalidCredentials]
  | .begun (.setupComplete token passwordHash code) =>
    .goes db (.setupLocking token passwordHash code db.now) []
  | .begun (.resetOperator email hash) =>
    if lowered db.operator.email = lowered email then
      if others.any OperatorPhase.holds then .waits else .goes db (.resetUpdated hash) []
    else .ends db [.refused (.api .operatorNotFound "Operator not found" [])]
  | .begun (.check token) =>
    if token ∈ db.signed ∧ verifySession db token then .goes db (.checking token) []
    else .ends db [.refused (.api .authTokenInvalid "Invalid or expired token" [])]
  | .begun (.elapse ms) => .ends { db with now := db.now + ms } []
  | .loginRead op password code =>
    if op.active ∧ op.activatedAt.isSome ∧ op.passwordHash.any (crypto.verifyPassword · password) then
      match Totp.verify (crypto.codeForStep op.id op.totpVersion) code db.now op.totpLastStep with
      | some step => .goes db (.loginMatched op step) []
      | none => .ends db [.refused invalidCredentials]
    else .ends db [.refused invalidCredentials]
  | .loginMatched op step =>
    if others.any OperatorPhase.holds then .waits
    else if db.operator.totpLastStep.all (· < step) then .goes db (.loginAdvanced op step) []
    else .ends db [.refused invalidCredentials]
  | .loginAdvanced op step =>
    .goes { db with
      operator := { db.operator with totpLastStep := some step, lastLoginAt := some db.now } }
      (.signing op) []
  | .setupLocking token passwordHash code started =>
    if others.any OperatorPhase.holds then .waits
    else if acceptsSetup crypto db.operator token started then
      .goes db (.setupPending db.operator passwordHash code) []
    else .ends db [.refused (.api .operatorSetupInvalid "This setup link is not valid" [])]
  | .setupPending op passwordHash code =>
    match Totp.verify (crypto.codeForStep op.id op.totpVersion) code db.now none with
    | some step => .goes db (.setupUpdated op passwordHash step) []
    | none => .ends db [.refused (.api .mfaCodeInvalid "That code is not valid" [])]
  | .setupUpdated op passwordHash step =>
    .goes { db with operator := activatedRow db passwordHash step } (.signing op) []
  | .resetUpdated hash => .ends { db with operator := resetRow db hash } [.reset]
  | .signing op =>
    -- The id and the role are those of the row that has been written, which nothing here changes.
    .ends { db with signed := db.signed ++ [signSession db op] } [.signed (signSession db op)]
  | .checking token =>
    if db.operator.active ∧ db.operator.activatedAt.isSome ∧ token.sub = db.operator.id then
      .ends db [.accepted token]
    else .ends db [.refused (.api .authTokenInvalid "Operator inactive" [])]

/-- The calls about one operator. -/
def operating (crypto : OperatorCrypto) : Protocol OperatorDb OperatorPhase OperatorCall OperatorEvent where
  start := .begun
  next := OperatorPhase.next crypto

/-! ## Sessions of the current credentials -/

/-- No token of an earlier version is valid any longer, and nothing with one is under way. -/
def NothingOlder (db : OperatorDb) (others : List OperatorPhase) : Prop :=
  (∀ token ∈ db.signed, token.version < db.operator.totpVersion → token.exp ≤ db.now) ∧
    ∀ u ∈ others, ∀ version ∈ u.version, db.operator.totpVersion ≤ version

/-- A setup is committed only behind everything of before the reset. -/
def SetsUpClear (db : OperatorDb) (others : List OperatorPhase) : OperatorPhase → Prop
  | .setupUpdated _ _ _ => NothingOlder db others
  | _ => True

instance (db : OperatorDb) (us : List OperatorPhase) (t : OperatorPhase) :
    Decidable (SetsUpClear db us t) := by
  unfold SetsUpClear NothingOlder
  split <;> infer_instance

/-- While the operator is activated, the tokens that are valid are of the current credentials. -/
def OperatorDb.Current (db : OperatorDb) : Prop :=
  db.operator.activatedAt.isSome = true → ∀ token ∈ db.signed, db.now < token.exp →
    db.operator.totpVersion ≤ token.version

/-- While the operator is activated, a call has the current credentials; and who has locked the row for
a setup has read it as it is. -/
structure OperatorPhase.Current (db : OperatorDb) (t : OperatorPhase) : Prop where
  version : db.operator.activatedAt.isSome = true → ∀ version ∈ t.version,
    db.operator.totpVersion ≤ version
  pending : ∀ op ∈ t.pending, op.totpVersion = db.operator.totpVersion

/-- No two calls have locked the row. -/
def OperatorPhase.Apart (t u : OperatorPhase) : Prop := t.holds = true → u.holds = false

section Statements

variable {crypto : OperatorCrypto} {db db' : OperatorDb} {t t' u : OperatorPhase}
  {us : List OperatorPhase} {answer : List OperatorEvent}

theorem OperatorPhase.Current.of_pending (hp : t.pending = none)
    (hv : db.operator.activatedAt.isSome = true → ∀ version ∈ t.version,
      db.operator.totpVersion ≤ version) : t.Current db :=
  ⟨hv, fun op hop => by simp [hp] at hop⟩

theorem OperatorPhase.Current.of_version (hp : t.pending = none) (hv : t.version = none) :
    t.Current db :=
  .of_pending hp fun _ version hversion => by simp [hv] at hversion

/-- What a statement commits. -/
inductive Operated (db db' : OperatorDb) (t : OperatorPhase) : Prop where
  /-- Neither the credentials nor whether they are activated, nor a token. -/
  | kept : db'.operator.totpVersion = db.operator.totpVersion →
      db'.operator.activatedAt = db.operator.activatedAt → db'.signed = db.signed → db.now ≤ db'.now →
      Operated db db' t
  | setUp (op : Operator) (hash : String) (step : Int) : t = .setupUpdated op hash step →
      db'.operator.totpVersion = db.operator.totpVersion → db'.signed = db.signed →
      db'.now = db.now → Operated db db' t
  | reset (hash : String) : t = .resetUpdated hash → db'.operator.activatedAt = none → Operated db db' t
  | signed (op : Operator) : t = .signing op →
      db' = { db with signed := db.signed ++ [Operators.signSession db op] } → Operated db db' t

theorem next_ends_operated (h : t.next crypto db us = .ends db' answer) : Operated db db' t := by
  cases t with
  | begun call =>
    cases call with
    | login email password code =>
      unfold OperatorPhase.next at h
      dsimp only at h
      split at h <;> cases h
      exact .kept rfl rfl rfl le_rfl
    | setupComplete token passwordHash code => cases h
    | resetOperator email hash =>
      unfold OperatorPhase.next at h
      dsimp only at h
      split at h
      · split at h <;> cases h
      · cases h
        exact .kept rfl rfl rfl le_rfl
    | check token =>
      unfold OperatorPhase.next at h
      dsimp only at h
      split at h <;> cases h
      exact .kept rfl rfl rfl le_rfl
    | elapse ms =>
      cases h
      exact .kept rfl rfl rfl (Nat.le_add_right _ _)
  | loginRead op password code =>
    unfold OperatorPhase.next at h
    dsimp only at h
    split at h
    · split at h <;> cases h
      exact .kept rfl rfl rfl le_rfl
    · cases h
      exact .kept rfl rfl rfl le_rfl
  | loginMatched op step =>
    unfold OperatorPhase.next at h
    dsimp only at h
    split at h
    · cases h
    · split at h <;> cases h
      exact .kept rfl rfl rfl le_rfl
  | loginAdvanced op step => cases h
  | setupLocking token passwordHash code started =>
    unfold OperatorPhase.next at h
    dsimp only at h
    split at h
    · cases h
    · split at h <;> cases h
      exact .kept rfl rfl rfl le_rfl
  | setupPending op passwordHash code =>
    unfold OperatorPhase.next at h
    dsimp only at h
    split at h <;> cases h
    exact .kept rfl rfl rfl le_rfl
  | setupUpdated op passwordHash step => cases h
  | resetUpdated hash =>
    cases h
    exact .reset hash rfl rfl
  | signing op =>
    cases h
    exact .signed op rfl rfl
  | checking token =>
    unfold OperatorPhase.next at h
    dsimp only at h
    split at h <;> cases h
    · exact .kept rfl rfl rfl le_rfl
    · exact .kept rfl rfl rfl le_rfl

/-- A call that goes on has the current credentials, and no other call holds the row beside it. -/
theorem next_goes_operated (hdb : db.Current) (ht : t.Current db)
    (h : t.next crypto db us = .goes db' t' answer) :
    Operated db db' t ∧ t'.Current db' ∧
      (t'.holds = true → t.holds = true ∨ ∀ u ∈ us, u.holds = false) := by
  cases t with
  | begun call =>
    cases call with
    | login email password code =>
      unfold OperatorPhase.next at h
      dsimp only at h
      split at h <;> cases h
      refine ⟨.kept rfl rfl rfl le_rfl, .of_pending rfl fun _ version hversion => ?_, nofun⟩
      obtain rfl := Option.some.inj hversion
      exact le_rfl
    | setupComplete token passwordHash code =>
      cases h
      exact ⟨.kept rfl rfl rfl le_rfl, .of_version rfl rfl, nofun⟩
    | resetOperator email hash =>
      unfold OperatorPhase.next at h
      dsimp only at h
      split at h
      · split at h
        · cases h
        · rename_i hfree
          cases h
          exact ⟨.kept rfl rfl rfl le_rfl, .of_version rfl rfl, fun _ => .inr (by simpa using hfree)⟩
      · cases h
    | check token =>
      unfold OperatorPhase.next at h
      dsimp only at h
      split at h
      · rename_i hvalid
        obtain ⟨hmem, hverify⟩ := hvalid
        cases h
        refine ⟨.kept rfl rfl rfl le_rfl, .of_pending rfl fun hactivated version hversion => ?_, nofun⟩
        obtain rfl := Option.some.inj hversion
        simp only [Operators.verifySession, Bool.and_eq_true, decide_eq_true_eq] at hverify
        exact hdb hactivated token hmem hverify.1
      · cases h
    | elapse ms => cases h
  | loginRead op password code =>
    unfold OperatorPhase.next at h
    dsimp only at h
    split at h
    · split at h <;> cases h
      exact ⟨.kept rfl rfl rfl le_rfl, .of_pending rfl ht.version, nofun⟩
    · cases h
  | loginMatched op step =>
    unfold OperatorPhase.next at h
    dsimp only at h
    split at h
    · cases h
    · rename_i hfree
      split at h <;> cases h
      exact ⟨.kept rfl rfl rfl le_rfl, .of_pending rfl ht.version, fun _ => .inr (by simpa using hfree)⟩
  | loginAdvanced op step =>
    cases h
    exact ⟨.kept rfl rfl rfl le_rfl, .of_pending rfl ht.version, nofun⟩
  | setupLocking token passwordHash code started =>
    unfold OperatorPhase.next at h
    dsimp only at h
    split at h
    · cases h
    · rename_i hfree
      split at h <;> cases h
      refine ⟨.kept rfl rfl rfl le_rfl, ⟨fun _ version hversion => ?_, fun op hop => ?_⟩,
        fun _ => .inr (by simpa using hfree)⟩
      · obtain rfl := Option.some.inj hversion
        exact le_rfl
      · obtain rfl := Option.some.inj hop
        rfl
  | setupPending op passwordHash code =>
    unfold OperatorPhase.next at h
    dsimp only at h
    split at h <;> cases h
    exact ⟨.kept rfl rfl rfl le_rfl, ⟨ht.version, ht.pending⟩, fun _ => .inl rfl⟩
  | setupUpdated op passwordHash step =>
    cases h
    refine ⟨.setUp op passwordHash step rfl rfl rfl rfl,
      .of_pending rfl fun _ version hversion => ?_, nofun⟩
    obtain rfl := Option.some.inj hversion
    exact (ht.pending op rfl).ge
  | resetUpdated hash => cases h
  | signing op => cases h
  | checking token =>
    unfold OperatorPhase.next at h
    dsimp only at h
    split at h <;> cases h

/-- What another call commits leaves a call the current credentials. -/
theorem OperatorPhase.Current.operated (hu : u.Current db) (hapart : t.Apart u) (hmem : u ∈ us)
    (hc : SetsUpClear db us t) (h : Operated db db' t) : u.Current db' := by
  cases h with
  | kept hversion hactivated _ _ =>
    refine ⟨fun hsome version hv => ?_, fun op hop => ?_⟩
    · rw [hversion]
      exact hu.version (hactivated ▸ hsome) version hv
    · rw [hversion]
      exact hu.pending op hop
  | setUp op hash step hphase hversion _ _ =>
    subst hphase
    refine ⟨fun _ version hv => ?_, fun op hop => ?_⟩
    · rw [hversion]
      exact hc.2 u hmem version hv
    · rw [hversion]
      exact hu.pending op hop
  | reset hash hphase hnone =>
    subst hphase
    refine ⟨fun hsome => absurd hsome (by simp [hnone]), fun op hop => ?_⟩
    have hholds := OperatorPhase.holds_of_pending hop
    rw [hapart rfl] at hholds
    cases hholds
  | signed op _ hdb' =>
    subst hdb'
    exact ⟨hu.version, hu.pending⟩

/-- What a call commits leaves only tokens of the current credentials valid. -/
theorem OperatorDb.Current.operated (hdb : db.Current) (ht : t.Current db) (hc : SetsUpClear db us t)
    (h : Operated db db' t) : db'.Current := by
  cases h with
  | kept hversion hactivated hsigned hnow =>
    intro hsome token htoken hvalid
    rw [hversion]
    exact hdb (hactivated ▸ hsome) token (hsigned ▸ htoken) (hnow.trans_lt hvalid)
  | setUp op hash step hphase hversion hsigned hnow =>
    subst hphase
    intro _ token htoken hvalid
    rw [hversion]
    rw [hsigned] at htoken
    rw [hnow] at hvalid
    exact not_lt.mp fun holder => absurd hvalid (not_lt.mpr (hc.1 token htoken holder))
  | reset hash _ hnone => exact fun hsome => absurd hsome (by simp [hnone])
  | signed op hphase hdb' =>
    subst hphase hdb'
    intro hsome token htoken hvalid
    rcases List.mem_append.mp htoken with hold | hnew
    · exact hdb hsome token hold hvalid
    · obtain rfl := List.mem_singleton.mp hnew
      exact ht.version hsome _ rfl

end Statements

/-- As long as setups are completed behind everything older, an activated operator has sessions of the
current credentials only. -/
theorem operatorsRule (crypto : OperatorCrypto) : (operating crypto).Rule (fun _ => True) SetsUpClear
    OperatorDb.Current OperatorPhase.Current OperatorPhase.Apart where
  symm t u h := Protocol.excludes_symm h
  start db call _ _ := ⟨.of_version rfl rfl, fun _ _ => nofun⟩
  goes db us t hdb ht hus hc db' t' answer hnext := by
    obtain ⟨hop, ht', hholds⟩ := next_goes_operated hdb ht hnext
    refine ⟨hdb.operated ht hc hop, ht', fun u hu =>
      ⟨(hus u hu).1.operated (hus u hu).2 hu hc hop, fun hlocks => ?_⟩⟩
    rcases hholds hlocks with hold | hfree
    · exact (hus u hu).2 hold
    · exact hfree u hu
  ends db us t hdb ht hus hc db' answer hnext :=
    have hop := next_ends_operated hnext
    ⟨hdb.operated ht hc hop, fun u hu => (hus u hu).1.operated (hus u hu).2 hu hc hop⟩

/-! ## After a reset -/

/-- No session is accepted whose credentials were verified before a reset that has been committed. -/
def AcceptsCurrent (crypto : OperatorCrypto) (w : Sessions OperatorDb OperatorPhase)
    (m : Move OperatorCall) : Prop :=
  ∀ o ∈ ((operating crypto).machine.step w m).2, match o with
    | .accepted token => w.committed.operator.totpVersion ≤ token.version
    | _ => True

instance (crypto : OperatorCrypto) (w : Sessions OperatorDb OperatorPhase) (m : Move OperatorCall) :
    Decidable (AcceptsCurrent crypto w m) := by
  unfold AcceptsCurrent
  refine @List.decidableBAll _ _ (fun o => ?_) _
  cases o <;> dsimp only <;> infer_instance

/-- Only `current` accepts a token, of an operator who is activated. -/
theorem accepted_mem {crypto : OperatorCrypto} {db : OperatorDb} {us : List OperatorPhase}
    {t : OperatorPhase} {token : OperatorToken}
    (h : .accepted token ∈ (t.next crypto db us).answer) :
    t = .checking token ∧ db.operator.activatedAt.isSome = true := by
  cases t with
  | begun call =>
    unfold OperatorPhase.next at h
    cases call with
    | login email password code =>
      dsimp only at h
      split at h <;> simp [Advance.answer] at h
    | resetOperator email hash =>
      dsimp only at h
      split at h
      · split at h <;> simp [Advance.answer] at h
      · simp [Advance.answer] at h
    | check token =>
      dsimp only at h
      split at h <;> simp [Advance.answer] at h
    | _ => simp [Advance.answer] at h
  | loginRead op password code =>
    unfold OperatorPhase.next at h
    dsimp only at h
    split at h
    · split at h <;> simp [Advance.answer] at h
    · simp [Advance.answer] at h
  | loginMatched op step =>
    unfold OperatorPhase.next at h
    dsimp only at h
    split at h
    · simp [Advance.answer] at h
    · split at h <;> simp [Advance.answer] at h
  | setupLocking token passwordHash code started =>
    unfold OperatorPhase.next at h
    dsimp only at h
    split at h
    · simp [Advance.answer] at h
    · split at h <;> simp [Advance.answer] at h
  | setupPending op passwordHash code =>
    unfold OperatorPhase.next at h
    dsimp only at h
    split at h <;> simp [Advance.answer] at h
  | checking token' =>
    unfold OperatorPhase.next at h
    dsimp only at h
    split at h
    · rename_i hactive
      obtain rfl : token = token' := by simpa [Advance.answer] using h
      exact ⟨rfl, hactive.2.1⟩
    · simp [Advance.answer] at h
  | _ => simp [OperatorPhase.next, Advance.answer] at h

/-- In every run whose setups are all completed behind the older sessions, no session from before a reset
is accepted after it. -/
theorem reset_ends_sessions (crypto : OperatorCrypto) (db : OperatorDb) (moves : List (Move OperatorCall))
    (hstart : db.signed = [])
    (h : (operating crypto).machine.Every (Protocol.Allowed (fun _ => True) SetsUpClear)
      (Sessions.start db) moves) :
    (operating crypto).machine.Every (AcceptsCurrent crypto) (Sessions.start db) moves := by
  refine (operatorsRule crypto).every (fun w m hw _ => ?_) (.start ?_) h
  · intro o ho
    cases o with
    | accepted token =>
      obtain ⟨id, r, rfl, hfind, hanswer⟩ := Protocol.answer_mem ho
      obtain ⟨hstate, hactivated⟩ := accepted_mem hanswer
      have hcurrent := hw.session r (Table.find?_mem hfind)
      rw [hstate] at hcurrent
      exact hcurrent.version hactivated token.version rfl
    | _ => trivial
  · intro _ token htoken
    rw [hstart] at htoken
    cases htoken

/-! ## A lost phone -/

/-- Every step of version `v` has the code `v`, six times. -/
def plainCrypto : OperatorCrypto where
  verifyPassword hash password := hash = password
  codeForStep _ version _ := some (String.ofList (List.replicate 6 (Nat.digitChar version)))
  hashToken := id

def admin : OperatorDb where
  operator := ⟨1, "eva@splite.example", "Eva", "ADMIN", some "old", 1, none, none, none, some 0, true, none⟩
  signed := []
  now := 0

/-- The session of before the reset is accepted once the new setup is complete. -/
theorem stale_session_accepted : ¬(operating plainCrypto).machine.Every (AcceptsCurrent plainCrypto)
    (Sessions.start admin)
    [.start 0 (.login "eva@splite.example" "old" "111111"), .go 0, .go 0, .go 0, .go 0, .go 0,
      .start 1 (.resetOperator "eva@splite.example" "link"), .go 1, .go 1,
      .start 2 (.setupComplete "link" "new" "222222"), .go 2, .go 2, .go 2, .go 2, .go 2,
      .start 3 (.check ⟨1, "ADMIN", 28800000, 1⟩), .go 3, .go 3] := by
  decide +kernel

/-- Eight hours later it is not. -/
theorem stale_session_expired : (operating plainCrypto).machine.Every (AcceptsCurrent plainCrypto)
    (Sessions.start admin)
    [.start 0 (.login "eva@splite.example" "old" "111111"), .go 0, .go 0, .go 0, .go 0, .go 0,
      .start 1 (.resetOperator "eva@splite.example" "link"), .go 1, .go 1,
      .start 4 (.elapse 28800000), .go 4,
      .start 2 (.setupComplete "link" "new" "222222"), .go 2, .go 2, .go 2, .go 2, .go 2,
      .start 3 (.check ⟨1, "ADMIN", 28800000, 1⟩), .go 3] :=
  reset_ends_sessions plainCrypto admin _ rfl (by decide +kernel)

end Splite
