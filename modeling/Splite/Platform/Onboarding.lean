import Splite.Auth.Sessions
import Splite.Lib.Refusal
import Splite.Lib.Spending
import Splite.Lib.Unique
import Splite.Platform.Renewal
import Splite.Platform.Rif

/-!
# Registration of a restaurant (`services/onboarding.js`)

`submitLead`, `inviteLead`, `verifySignup` and `markLead` beside each other, and beside what other services
write into `users` and `restaurants`, statement by statement. What a transaction has written and not
committed is in its phase, with the row of the lead that it has locked.

* `signupRule`: a call that has locked a lead is the only one that changes it.
* `onboarded_once`: a link opens one restaurant with one owner, and none once it has been used or a newer
  one has been sent.
-/

namespace Splite.Onboarding

/-- `restaurant_signups.status`. -/
inductive LeadStatus where
  | new
  | contacted
  | invited
  | onboarded
  | rejected
  deriving DecidableEq, Repr

/-- A row of `restaurant_signups`. -/
structure Lead where
  id : Uuid
  restaurantName : String
  rif : String
  rifChecksumOk : Bool
  email : String
  phone : String
  /-- `profile.menuCurrency`. -/
  menuCurrency : Option String
  status : LeadStatus
  tokenHash : Option String
  expiresAt : Option Time
  contactedAt : Option Time
  invitedAt : Option Time
  consumedAt : Option Time
  restaurantId : Option Uuid
  reviewNotes : Option String
  deriving DecidableEq, Repr

/-- A row of `restaurants`, as `verifySignup` inserts it. -/
structure Tenant where
  id : Uuid
  name : String
  rif : Option String
  menuCurrency : String
  vatBps : Int
  serviceChargeBps : Int
  planTier : PlanTier
  trialEndsAt : Option Time
  deriving DecidableEq, Repr

instance : Keyed Lead Uuid := ⟨Lead.id⟩
instance : Keyed Tenant Uuid := ⟨Tenant.id⟩

def DEFAULT_VAT_BPS : Int := 1600

def DEFAULT_SERVICE_CHARGE_BPS : Int := 1000

/-- `config.onboarding`, in milliseconds. -/
structure SignupConfig where
  tokenTtlMs : Nat
  trialMs : Nat

/-- The tables as committed, and the clock. -/
structure SignupDb where
  leads : Table Lead
  restaurants : Table Tenant
  auth : AuthState
  now : Time
  deriving DecidableEq

/-- The argument of `submitLead`, with the id of the new row. -/
structure LeadForm where
  id : Uuid
  restaurantName : String
  rif : Option String
  email : String
  phone : String
  menuCurrency : Option String
  deriving DecidableEq, Repr

/-- The token of `verifySignup`, with the ids of the rows that it inserts. -/
structure Verification where
  token : String
  restaurantId : Uuid
  userId : Uuid
  jti : Uuid
  deriving DecidableEq, Repr

inductive SignupCall where
  | submitLead (form : LeadForm)
  | inviteLead (leadId : Uuid) (token : String)
  | verifySignup (v : Verification)
  | markLead (leadId : Uuid) (status : LeadStatus) (reviewNotes : Option String)
  /-- An account that another service creates. -/
  | createUser (user : User)
  /-- `UPDATE restaurants SET rif = $2` of another service. -/
  | writeRif (restaurantId : Uuid) (rif : String)
  | elapse (ms : Nat)
  deriving DecidableEq, Repr

/-- What `existingTenant` returns. -/
structure Duplicate where
  emailTaken : Bool
  rifTaken : Bool
  deriving DecidableEq, Repr

/-- A link that was good at `readAt`, with the row of its lead. -/
structure Opening where
  v : Verification
  lead : Lead
  started : Time
  readAt : Time
  deriving DecidableEq, Repr

/-- The next statement; `started` is `NOW()` of its transaction. -/
inductive SignupPhase where
  | begun (call : SignupCall)
  /-- `INSERT INTO restaurant_signups …`. -/
  | submitting (form : LeadForm) (duplicate : Duplicate)
  /-- `SELECT … WHERE id = $1 FOR UPDATE` waits for the row. -/
  | lockLead (leadId : Uuid) (hash : String) (started : Time)
  /-- `existingTenant(client, …)`. -/
  | inviting (lead : Lead) (hash : String) (started : Time)
  /-- `UPDATE restaurant_signups SET token_hash = $2, …`. -/
  | renewing (lead : Lead) (hash : String) (started : Time)
  /-- The link is written; `COMMIT`. -/
  | renewed (lead : Lead) (hash : String) (started : Time)
  /-- `SELECT … WHERE token_hash = $1 FOR UPDATE` has found a row, and waits for it. -/
  | lockSignup (v : Verification) (leadId : Uuid) (started : Time)
  /-- `INSERT INTO restaurants …`. -/
  | founding (o : Opening)
  /-- `INSERT INTO users …`. -/
  | staffing (o : Opening)
  /-- `UPDATE restaurant_signups SET consumed_at = NOW(), …`. -/
  | consuming (o : Opening)
  /-- The lead is consumed; `issueSession`, and `COMMIT`. -/
  | consumed (o : Opening)
  /-- `UPDATE restaurant_signups SET status = $2, …`. -/
  | marking (leadId : Uuid) (status : LeadStatus) (reviewNotes : Option String) (started : Time)
  deriving DecidableEq, Repr

/-- What one call holds and another one waits for: the row of a lead, or what a row it has written has in a
unique index. -/
inductive SignupKey where
  | lead (id : Uuid)
  | link (hash : String)
  | restaurant (id : Uuid)
  | rif (rif : String)
  | user (id : Uuid)
  | email (email : List Char)
  deriving DecidableEq, Repr

def Opening.keys (o : Opening) : List SignupKey :=
  [.lead o.lead.id, .restaurant o.v.restaurantId, .rif o.lead.rif]

def Opening.allKeys (o : Opening) : List SignupKey :=
  o.keys ++ [.user o.v.userId, .email (lowered o.lead.email)]

def SignupPhase.keys : SignupPhase → List SignupKey
  | .inviting lead _ _ | .renewing lead _ _ => [.lead lead.id]
  | .renewed lead hash _ => [.lead lead.id, .link hash]
  | .founding o => [.lead o.lead.id]
  | .staffing o => o.keys
  | .consuming o | .consumed o => o.allKeys
  | _ => []

inductive SignupEvent where
  | received (leadId : Uuid) (duplicate : Duplicate)
  | invited (leadId : Uuid) (hash : String)
  | born (o : Opening) (restaurant : Tenant) (owner : User)
  | marked (leadId : Uuid)
  | created (user : User)
  | numbered (restaurantId : Uuid) (rif : String)
  | refused (err : Err)
  deriving DecidableEq, Repr

section Services

variable {Token : Type} (codec : TokenCodec Token) (auth : AuthConfig) (config : SignupConfig)
  (hashToken : String → String)

/-- The row that `submitLead` inserts. -/
def LeadForm.row (form : LeadForm) : Lead where
  id := form.id
  restaurantName := form.restaurantName
  rif := String.ofList (Rif.normaliseRif form.rif)
  rifChecksumOk := Rif.isValidRif (some (String.ofList (Rif.normaliseRif form.rif)))
  email := String.ofList (lowered form.email)
  phone := form.phone
  menuCurrency := form.menuCurrency
  status := .new
  tokenHash := none
  expiresAt := none
  contactedAt := none
  invitedAt := none
  consumedAt := none
  restaurantId := none
  reviewNotes := none

/-- `existingTenant(client, { email, rif })`. -/
def SignupDb.existingTenant (s : SignupDb) (email rif : String) : Duplicate where
  emailTaken := s.auth.users.rows.any fun u => lowered u.email = lowered email
  rifTaken := s.restaurants.rows.any fun r => r.rif = some rif

/-- The `UPDATE` of `inviteLead`. -/
def Lead.invite (hash : String) (started : Time) (r : Lead) : Lead :=
  { r with
    tokenHash := some hash
    expiresAt := some (started + config.tokenTtlMs)
    status := .invited
    invitedAt := some started }

theorem Lead.invite_key (hash : String) (started : Time) (r : Lead) :
    Keyed.key (r.invite config hash started) = Keyed.key r := rfl

/-- The `UPDATE` of `verifySignup`. -/
def Lead.consume (restaurantId : Uuid) (started : Time) (r : Lead) : Lead :=
  { r with consumedAt := some started, restaurantId := some restaurantId, status := .onboarded }

theorem Lead.consume_key (restaurantId : Uuid) (started : Time) (r : Lead) :
    Keyed.key (r.consume restaurantId started) = Keyed.key r := rfl

/-- The `UPDATE` of `markLead`. -/
def Lead.mark (status : LeadStatus) (reviewNotes : Option String) (now : Time) (r : Lead) : Lead :=
  { r with
    status
    reviewNotes := reviewNotes.or r.reviewNotes
    contactedAt := if status = .contacted then some now else r.contactedAt }

theorem Lead.mark_key (status : LeadStatus) (reviewNotes : Option String) (now : Time) (r : Lead) :
    Keyed.key (r.mark status reviewNotes now) = Keyed.key r := rfl

def Tenant.number (rif : String) (r : Tenant) : Tenant := { r with rif := some rif }

theorem Tenant.number_key (rif : String) (r : Tenant) : Keyed.key (r.number rif) = Keyed.key r := rfl

/-- The restaurant that a link opens. -/
def Opening.tenant (o : Opening) : Tenant where
  id := o.v.restaurantId
  name := o.lead.restaurantName
  rif := some o.lead.rif
  menuCurrency := (o.lead.menuCurrency.filter (· ≠ "")).getD "VES"
  vatBps := DEFAULT_VAT_BPS
  serviceChargeBps := DEFAULT_SERVICE_CHARGE_BPS
  planTier := .trial
  trialEndsAt := some (o.started + config.trialMs)

/-- Its owner. -/
def Opening.owner (o : Opening) : User where
  id := o.v.userId
  restaurantId := o.v.restaurantId
  email := o.lead.email
  role := "OWNER"
  active := true
  displayName := none

def tokenInvalid : Err := .api .onboardingTokenInvalid "This verification link is no longer valid" []

/-- The `catch` of `verifySignup`, by the name of the index. -/
def asTaken (constraint : String) : Err :=
  if "rif".toList <:+: constraint.toList then
    .api .rifAlreadyRegistered "That RIF is already registered" []
  else .api .emailAlreadyRegistered "That email is already registered" []

/-- What the unique indexes of `restaurants` refuse. -/
def SignupDb.tenantClash (s : SignupDb) (restaurantId : Uuid) (rif : String) : Option String :=
  if (s.restaurants.find? restaurantId).isSome then some "restaurants_pkey"
  else if s.restaurants.rows.any fun r => r.rif = some rif then some "restaurants_rif_unique_idx"
  else none

/-- What the unique indexes of `users` refuse. -/
def SignupDb.userClash (s : SignupDb) (userId : Uuid) (email : String) : Option String :=
  if (s.auth.users.find? userId).isSome then some "users_pkey"
  else if s.auth.users.rows.any fun u => lowered u.email = lowered email then some "users_email_unique_idx"
  else none

/-- What `verifySignup` commits. -/
def SignupDb.found (s : SignupDb) (o : Opening) : Except Err SignupDb :=
  match s.restaurants.insert? (o.tenant config), s.auth.users.insert? o.owner with
  | none, _ => .error (asTaken "restaurants_pkey")
  | _, none => .error (asTaken "users_pkey")
  | some restaurants, some users =>
    match (issueSession codec auth s.now o.v.jti o.owner).run { s.auth with users } with
    | .error (.uniqueViolation constraint) _ => .error (asTaken constraint)
    | .error err _ => .error err
    | .ok _ auth => .ok { s with
        restaurants
        auth
        leads := s.leads.update o.lead.id (Lead.consume o.v.restaurantId o.started)
          (Lead.consume_key o.v.restaurantId o.started) }

/-- The next statement, beside the other calls. -/
def SignupPhase.next (s : SignupDb) (others : List SignupPhase) :
    SignupPhase → Advance SignupDb SignupPhase SignupEvent
  | .begun (.submitLead form) =>
    .goes s (.submitting form (s.existingTenant form.row.email form.row.rif)) []
  | .begun (.inviteLead leadId token) =>
    match s.leads.find? leadId with
    | none => .ends s [.refused (.api .notFound "No such lead" [])]
    | some _ => .goes s (.lockLead leadId (hashToken token) s.now) []
  | .begun (.verifySignup v) =>
    match s.leads.rows.find? fun r => r.tokenHash = some (hashToken v.token) with
    | none => .ends s [.refused tokenInvalid]
    | some lead => .goes s (.lockSignup v lead.id s.now) []
  | .begun (.markLead leadId status reviewNotes) =>
    match s.leads.find? leadId with
    | none => .ends s [.refused (.api .notFound "No such lead" [])]
    | some _ => .goes s (.marking leadId status reviewNotes s.now) []
  | .begun (.createUser user) =>
    if Held.taken keys Held.same others [.user user.id, .email (lowered user.email)] then .waits
    else
      match s.userClash user.id user.email, s.auth.users.insert? user with
      | none, some users => .ends { s with auth := { s.auth with users } } [.created user]
      | some constraint, _ => .ends s [.refused (.uniqueViolation constraint)]
      | none, none => .ends s [.refused (.uniqueViolation "users_pkey")]
  | .begun (.writeRif restaurantId rif) =>
    if Held.taken keys Held.same others [.rif rif] then .waits
    else if s.restaurants.rows.any fun r => r.id ≠ restaurantId && r.rif = some rif then
      .ends s [.refused (.uniqueViolation "restaurants_rif_unique_idx")]
    else
      .ends { s with
        restaurants := s.restaurants.update restaurantId (Tenant.number rif) (Tenant.number_key rif) }
        [.numbered restaurantId rif]
  | .begun (.elapse ms) => .ends { s with now := s.now + ms } []
  | .submitting form duplicate =>
    match s.leads.insert? form.row with
    | none => .ends s [.refused (.uniqueViolation "restaurant_signups_pkey")]
    | some leads => .ends { s with leads } [.received form.id duplicate]
  | .lockLead leadId hash started =>
    if Held.taken keys Held.same others [.lead leadId] then .waits
    else
      match s.leads.find? leadId with
      | none => .ends s [.refused (.api .notFound "No such lead" [])]
      | some lead =>
        if lead.consumedAt.isSome then
          .ends s [.refused (.api .notFound "That lead has already been onboarded" [])]
        else .goes s (.inviting lead hash started) []
  | .inviting lead hash started =>
    let duplicate := s.existingTenant lead.email lead.rif
    if duplicate.emailTaken then
      .ends s [.refused (.api .emailAlreadyRegistered "That email already has an account" [])]
    else if duplicate.rifTaken then
      .ends s [.refused (.api .rifAlreadyRegistered "That RIF is already registered" [])]
    else .goes s (.renewing lead hash started) []
  | .renewing lead hash started =>
    if Held.taken keys Held.same others [.link hash] then .waits
    else if s.leads.rows.any fun r => r.id ≠ lead.id && r.tokenHash = some hash then
      .ends s [.refused (.uniqueViolation "restaurant_signups_token_hash_key")]
    else .goes s (.renewed lead hash started) []
  | .renewed lead hash started =>
    .ends { s with
      leads := s.leads.update lead.id (Lead.invite config hash started)
        (Lead.invite_key config hash started) }
      [.invited lead.id hash]
  | .lockSignup v leadId started =>
    if Held.taken keys Held.same others [.lead leadId] then .waits
    else
      -- `WHERE token_hash = $1` is checked again on the row as it is now.
      match (s.leads.find? leadId).filter fun r => r.tokenHash = some (hashToken v.token) with
      | none => .ends s [.refused tokenInvalid]
      | some lead =>
        if lead.consumedAt.isSome ∨ ∀ expiresAt ∈ lead.expiresAt, expiresAt ≤ s.now then
          .ends s [.refused tokenInvalid]
        else .goes s (.founding ⟨v, lead, started, s.now⟩) []
  | .founding o =>
    if Held.taken keys Held.same others [.restaurant o.v.restaurantId, .rif o.lead.rif] then .waits
    else
      match s.tenantClash o.v.restaurantId o.lead.rif with
      | some constraint => .ends s [.refused (asTaken constraint)]
      | none => .goes s (.staffing o) []
  | .staffing o =>
    if Held.taken keys Held.same others [.user o.v.userId, .email (lowered o.lead.email)] then .waits
    else
      match s.userClash o.v.userId o.lead.email with
      | some constraint => .ends s [.refused (asTaken constraint)]
      | none => .goes s (.consuming o) []
  | .consuming o => .goes s (.consumed o) []
  | .consumed o =>
    match s.found codec auth config o with
    | .error err => .ends s [.refused err]
    | .ok s' => .ends s' [.born o (o.tenant config) o.owner]
  | .marking leadId status reviewNotes started =>
    if Held.taken keys Held.same others [.lead leadId] then .waits
    else
      match s.leads.find? leadId with
      | none => .ends s [.refused (.api .notFound "No such lead" [])]
      | some _ =>
        .ends { s with
          leads := s.leads.update leadId (Lead.mark status reviewNotes started)
            (Lead.mark_key status reviewNotes started) }
          [.marked leadId]

def signup : Protocol SignupDb SignupPhase SignupCall SignupEvent where
  start := .begun
  next := SignupPhase.next codec auth config hashToken

end Services

/-! ## What a call knows -/

namespace SignupDb

/-- Its unique indexes, and that a restaurant which a lead has opened exists. -/
structure Sound (s : SignupDb) : Prop where
  rif : s.restaurants.UniqueOn Tenant.rif
  email : s.auth.users.UniqueOn fun u => some (lowered u.email)
  link : s.leads.UniqueOn Lead.tokenHash
  restaurant : s.leads.UniqueOn Lead.restaurantId
  opened : ∀ r ∈ s.leads, ∀ id ∈ r.restaurantId,
    r.consumedAt.isSome = true ∧ ∃ restaurant ∈ s.restaurants, restaurant.id = id

/-- The lead is as it was when it was locked, and has opened nothing. -/
structure Locked (s : SignupDb) (lead : Lead) : Prop where
  row : s.leads.find? lead.id = some lead
  unspent : lead.consumedAt = none

end SignupDb

/-- The link was the newest one of its lead, and had not expired, at `readAt`. -/
structure Opening.Good (hashToken : String → String) (s : SignupDb) (o : Opening) : Prop
    extends s.Locked o.lead where
  link : o.lead.tokenHash = some (hashToken o.v.token)
  expires : ∃ expiresAt, o.lead.expiresAt = some expiresAt ∧ o.readAt < expiresAt
  read : o.readAt ≤ s.now

namespace SignupPhase

/-- What a call knows by its next statement. -/
def Sound (hashToken : String → String) (s : SignupDb) : SignupPhase → Prop
  | .inviting lead _ _ | .renewing lead _ _ => s.Locked lead
  | .renewed lead hash _ => s.Locked lead ∧ ∀ r ∈ s.leads, r.tokenHash = some hash → r.id = lead.id
  | .founding o => o.Good hashToken s
  | .staffing o => o.Good hashToken s ∧ s.tenantClash o.v.restaurantId o.lead.rif = none
  | .consuming o | .consumed o => o.Good hashToken s ∧
    s.tenantClash o.v.restaurantId o.lead.rif = none ∧ s.userClash o.v.userId o.lead.email = none
  | _ => True

end SignupPhase

def SignupEvent.IsRefused : SignupEvent → Prop
  | .refused _ => True
  | _ => False

theorem tenantClash_eq_none {s : SignupDb} {restaurantId : Uuid} {rif : String} :
    s.tenantClash restaurantId rif = none ↔
      ∀ r ∈ s.restaurants, r.id ≠ restaurantId ∧ r.rif ≠ some rif := by
  unfold SignupDb.tenantClash
  constructor
  · intro h r hr
    split at h
    · cases h
    · rename_i hid
      split at h
      · cases h
      · rename_i hrif
        refine ⟨fun heq => ?_, fun heq => ?_⟩
        · apply hid
          rw [Option.isSome_iff_ne_none]
          intro hnone
          exact Table.find?_eq_none.mp hnone r hr heq
        · exact hrif (List.any_eq_true.mpr ⟨r, hr, by simpa using heq⟩)
  · intro h
    rw [if_neg, if_neg]
    · intro hany
      obtain ⟨r, hr, heq⟩ := List.any_eq_true.mp hany
      exact (h r hr).2 (by simpa using heq)
    · rw [Option.not_isSome_iff_eq_none]
      exact Table.find?_eq_none.mpr fun r hr => (h r hr).1

theorem userClash_eq_none {s : SignupDb} {userId : Uuid} {email : String} :
    s.userClash userId email = none ↔
      ∀ u ∈ s.auth.users, u.id ≠ userId ∧ lowered u.email ≠ lowered email := by
  unfold SignupDb.userClash
  constructor
  · intro h u hu
    split at h
    · cases h
    · rename_i hid
      split at h
      · cases h
      · rename_i hemail
        refine ⟨fun heq => ?_, fun heq => ?_⟩
        · apply hid
          rw [Option.isSome_iff_ne_none]
          intro hnone
          exact Table.find?_eq_none.mp hnone u hu heq
        · exact hemail (List.any_eq_true.mpr ⟨u, hu, by simpa using heq⟩)
  · intro h
    rw [if_neg, if_neg]
    · intro hany
      obtain ⟨u, hu, heq⟩ := List.any_eq_true.mp hany
      exact (h u hu).2 (by simpa using heq)
    · rw [Option.not_isSome_iff_eq_none]
      exact Table.find?_eq_none.mpr fun u hu => (h u hu).1

section Statements

variable {Token : Type} {codec : TokenCodec Token} {auth : AuthConfig} {config : SignupConfig}
  {hashToken : String → String} {s s' : SignupDb} {t t' u : SignupPhase} {us : List SignupPhase}
  {answer : List SignupEvent}

/-- What `verifySignup` commits: the restaurant, its owner, and the lead that they are from. -/
theorem found_ok {o : Opening} (h : s.found codec auth config o = .ok s') :
    s.restaurants.insert? (o.tenant config) = some s'.restaurants ∧
      s.auth.users.insert? o.owner = some s'.auth.users ∧ s'.now = s.now ∧
      s'.leads = s.leads.update o.lead.id (Lead.consume o.v.restaurantId o.started)
        (Lead.consume_key o.v.restaurantId o.started) := by
  unfold SignupDb.found at h
  split at h
  · cases h
  · cases h
  · rename_i restaurants users hrestaurants husers
    split at h
    · cases h
    · cases h
    · rename_i issued auth' hissue
      cases h
      obtain ⟨session, sessions, -, -, -, rfl⟩ := issueSession_ok hissue
      exact ⟨hrestaurants, husers, rfl, rfl⟩

/-- What a statement commits and answers. -/
inductive SignupDoes (codec : TokenCodec Token) (auth : AuthConfig) (config : SignupConfig)
    (s s' : SignupDb) (us : List SignupPhase) (t : SignupPhase) : List SignupEvent → Prop where
  | quiet (answer : List SignupEvent) : s'.leads = s.leads → s'.restaurants = s.restaurants →
      s'.auth = s.auth → s.now ≤ s'.now → (∀ e ∈ answer, e.IsRefused ∧ s' = s) → answer.length ≤ 1 →
      SignupDoes codec auth config s s' us t answer
  | received (form : LeadForm) (duplicate : Duplicate) (leads : Table Lead) :
      t = .submitting form duplicate → s.leads.insert? form.row = some leads → s' = { s with leads } →
      SignupDoes codec auth config s s' us t [.received form.id duplicate]
  | invited (lead : Lead) (hash : String) (started : Time) : t = .renewed lead hash started →
      s' = { s with
        leads := s.leads.update lead.id (Lead.invite config hash started)
          (Lead.invite_key config hash started) } →
      SignupDoes codec auth config s s' us t [.invited lead.id hash]
  | born (o : Opening) : t = .consumed o → s.found codec auth config o = .ok s' →
      SignupDoes codec auth config s s' us t [.born o (o.tenant config) o.owner]
  | marked (leadId : Uuid) (status : LeadStatus) (reviewNotes : Option String) (started : Time) :
      ¬Held.taken SignupPhase.keys Held.same us [.lead leadId] = true →
      s' = { s with
        leads := s.leads.update leadId (Lead.mark status reviewNotes started)
          (Lead.mark_key status reviewNotes started) } →
      SignupDoes codec auth config s s' us t [.marked leadId]
  | created (user : User) (users : Table User) :
      ¬Held.taken SignupPhase.keys Held.same us [.user user.id, .email (lowered user.email)] = true →
      s.userClash user.id user.email = none →
      s.auth.users.insert? user = some users → s' = { s with auth := { s.auth with users } } →
      SignupDoes codec auth config s s' us t [.created user]
  | numbered (restaurantId : Uuid) (rif : String) :
      ¬Held.taken SignupPhase.keys Held.same us [.rif rif] = true →
      (∀ r ∈ s.restaurants, r.rif = some rif → r.id = restaurantId) →
      s' = { s with
        restaurants := s.restaurants.update restaurantId (Tenant.number rif) (Tenant.number_key rif) } →
      SignupDoes codec auth config s s' us t [.numbered restaurantId rif]

/-- Where a statement leaves its call: nothing is committed, and what it holds it had held or nobody has. -/
structure SignupGoes (hashToken : String → String) (s s' : SignupDb) (us : List SignupPhase)
    (t t' : SignupPhase) (answer : List SignupEvent) : Prop where
  same : s' = s
  silent : answer = []
  sound : t.Sound hashToken s → t'.Sound hashToken s
  keys : ∃ wanted, ¬Held.taken SignupPhase.keys Held.same us wanted = true ∧
    ∀ k ∈ t'.keys, k ∈ t.keys ∨ k ∈ wanted

/-- A statement that takes nothing. -/
theorem SignupGoes.of_keys (hsound : t.Sound hashToken s → t'.Sound hashToken s)
    (hkeys : ∀ k ∈ t'.keys, k ∈ t.keys) : SignupGoes hashToken s s us t t' [] :=
  ⟨rfl, rfl, hsound, [], Held.not_taken_nil, fun k hk => .inl (hkeys k hk)⟩

theorem next_goes_signup (h : t.next codec auth config hashToken s us = .goes s' t' answer) :
    SignupGoes hashToken s s' us t t' answer := by
  cases t with
  | begun call =>
    cases call with
    | submitLead form =>
      cases h
      exact .of_keys (fun _ => trivial) (by simp [SignupPhase.keys])
    | inviteLead leadId token =>
      unfold SignupPhase.next at h
      dsimp only at h
      split at h <;> cases h
      exact .of_keys (fun _ => trivial) (by simp [SignupPhase.keys])
    | verifySignup v =>
      unfold SignupPhase.next at h
      dsimp only at h
      split at h <;> cases h
      exact .of_keys (fun _ => trivial) (by simp [SignupPhase.keys])
    | markLead leadId status reviewNotes =>
      unfold SignupPhase.next at h
      dsimp only at h
      split at h <;> cases h
      exact .of_keys (fun _ => trivial) (by simp [SignupPhase.keys])
    | createUser user =>
      unfold SignupPhase.next at h
      dsimp only at h
      split at h
      · cases h
      · split at h <;> cases h
    | writeRif restaurantId rif =>
      unfold SignupPhase.next at h
      dsimp only at h
      split at h
      · cases h
      · split at h <;> cases h
    | elapse ms => cases h
  | submitting form duplicate =>
    unfold SignupPhase.next at h
    dsimp only at h
    split at h <;> cases h
  | lockLead leadId hash started =>
    unfold SignupPhase.next at h
    dsimp only at h
    split at h
    · cases h
    · rename_i hfree
      split at h
      · cases h
      · rename_i lead hfind
        split at h
        · cases h
        · rename_i hunspent
          cases h
          have hid : lead.id = leadId := Table.find?_key hfind
          refine ⟨rfl, rfl, fun _ => ⟨hid ▸ hfind, by simpa using hunspent⟩, _, hfree, fun k hk => .inr ?_⟩
          simpa [SignupPhase.keys, hid] using hk
  | inviting lead hash started =>
    unfold SignupPhase.next at h
    dsimp only at h
    split at h
    · cases h
    · split at h <;> cases h
      exact .of_keys id fun k hk => hk
  | renewing lead hash started =>
    unfold SignupPhase.next at h
    dsimp only at h
    split at h
    · cases h
    · rename_i hfree
      split at h
      · cases h
      · rename_i hother
        cases h
        refine ⟨rfl, rfl, fun hlocked => ⟨hlocked, fun r hr hhash => ?_⟩, _, hfree, fun k hk => ?_⟩
        · by_contra hne
          exact hother (List.any_eq_true.mpr ⟨r, hr, by simp [hne, hhash]⟩)
        · simpa [SignupPhase.keys] using hk
  | renewed lead hash started => cases h
  | lockSignup v leadId started =>
    unfold SignupPhase.next at h
    dsimp only at h
    split at h
    · cases h
    · rename_i hfree
      split at h
      · cases h
      · rename_i lead hfind
        split at h
        · cases h
        · rename_i hgood
          cases h
          obtain ⟨hfind, hhash⟩ := Option.filter_eq_some_iff.mp hfind
          have hid : lead.id = leadId := Table.find?_key hfind
          push Not at hgood
          obtain ⟨hunspent, expiresAt, hexpires, hlater⟩ := hgood
          refine ⟨rfl, rfl, fun _ => ⟨⟨hid ▸ hfind, by simpa using hunspent⟩, by simpa using hhash,
            ⟨expiresAt, hexpires, hlater⟩, le_rfl⟩, _, hfree, fun k hk => .inr ?_⟩
          simpa [SignupPhase.keys, hid] using hk
  | founding o =>
    unfold SignupPhase.next at h
    dsimp only at h
    split at h
    · cases h
    · rename_i hfree
      split at h
      · cases h
      · rename_i hclash
        cases h
        refine ⟨rfl, rfl, fun hgood => ⟨hgood, hclash⟩, _, hfree, fun k hk => ?_⟩
        simpa [SignupPhase.keys, Opening.keys] using hk
  | staffing o =>
    unfold SignupPhase.next at h
    dsimp only at h
    split at h
    · cases h
    · rename_i hfree
      split at h
      · cases h
      · rename_i hclash
        cases h
        refine ⟨rfl, rfl, fun hgood => ⟨hgood.1, hgood.2, hclash⟩, _, hfree, fun k hk => ?_⟩
        exact List.mem_append.mp hk
  | consuming o =>
    cases h
    exact .of_keys id fun k hk => hk
  | consumed o =>
    unfold SignupPhase.next at h
    dsimp only at h
    split at h <;> cases h
  | marking leadId status reviewNotes started =>
    unfold SignupPhase.next at h
    dsimp only at h
    split at h
    · cases h
    · split at h <;> cases h

theorem SignupDoes.refused {err : Err} : SignupDoes codec auth config s s us t [.refused err] :=
  .quiet _ rfl rfl rfl le_rfl (fun e he => by
    obtain rfl := List.mem_singleton.mp he
    exact ⟨trivial, rfl⟩) le_rfl

theorem next_ends_signup (h : t.next codec auth config hashToken s us = .ends s' answer) :
    SignupDoes codec auth config s s' us t answer := by
  cases t with
  | begun call =>
    cases call with
    | submitLead form => cases h
    | inviteLead leadId token =>
      unfold SignupPhase.next at h
      dsimp only at h
      split at h <;> cases h
      exact .refused
    | verifySignup v =>
      unfold SignupPhase.next at h
      dsimp only at h
      split at h <;> cases h
      exact .refused
    | markLead leadId status reviewNotes =>
      unfold SignupPhase.next at h
      dsimp only at h
      split at h <;> cases h
      exact .refused
    | createUser user =>
      unfold SignupPhase.next at h
      dsimp only at h
      split at h
      · cases h
      · rename_i hfree
        split at h
        · rename_i users hclash hins
          cases h
          exact .created user users hfree hclash hins rfl
        · cases h
          exact .refused
        · cases h
          exact .refused
    | writeRif restaurantId rif =>
      unfold SignupPhase.next at h
      dsimp only at h
      split at h
      · cases h
      · rename_i hfree
        split at h
        · cases h
          exact .refused
        · rename_i hother
          cases h
          refine .numbered restaurantId rif hfree (fun r hr hrif => ?_) rfl
          by_contra hne
          exact hother (List.any_eq_true.mpr ⟨r, hr, by simp [hne, hrif]⟩)
    | elapse ms =>
      cases h
      exact .quiet _ rfl rfl rfl (Nat.le_add_right _ _) (fun e he => absurd he List.not_mem_nil) Nat.one_pos.le
  | submitting form duplicate =>
    unfold SignupPhase.next at h
    dsimp only at h
    split at h
    · cases h
      exact .refused
    · rename_i leads hins
      cases h
      exact .received form duplicate leads rfl hins rfl
  | lockLead leadId hash started =>
    unfold SignupPhase.next at h
    dsimp only at h
    split at h
    · cases h
    · split at h
      · cases h
        exact .refused
      · split at h <;> cases h
        exact .refused
  | inviting lead hash started =>
    unfold SignupPhase.next at h
    dsimp only at h
    split at h
    · cases h
      exact .refused
    · split at h <;> cases h
      exact .refused
  | renewing lead hash started =>
    unfold SignupPhase.next at h
    dsimp only at h
    split at h
    · cases h
    · split at h <;> cases h
      exact .refused
  | renewed lead hash started =>
    cases h
    exact .invited lead hash started rfl rfl
  | lockSignup v leadId started =>
    unfold SignupPhase.next at h
    dsimp only at h
    split at h
    · cases h
    · split at h
      · cases h
        exact .refused
      · split at h <;> cases h
        exact .refused
  | founding o =>
    unfold SignupPhase.next at h
    dsimp only at h
    split at h
    · cases h
    · split at h <;> cases h
      exact .refused
  | staffing o =>
    unfold SignupPhase.next at h
    dsimp only at h
    split at h
    · cases h
    · split at h <;> cases h
      exact .refused
  | consuming o => cases h
  | consumed o =>
    unfold SignupPhase.next at h
    dsimp only at h
    split at h
    · cases h
      exact .refused
    · rename_i hfound
      cases h
      exact .born o rfl hfound
  | marking leadId status reviewNotes started =>
    unfold SignupPhase.next at h
    dsimp only at h
    split at h
    · cases h
    · rename_i hfree
      split at h
      · cases h
        exact .refused
      · cases h
        exact .marked leadId status reviewNotes started hfree rfl

/-- What a statement that writes no other key leaves to the other calls. -/
structure Frame (s s' : SignupDb) (ks : List SignupKey) : Prop where
  lead : ∀ r, .lead r.id ∉ ks → s.leads.find? r.id = some r → s'.leads.find? r.id = some r
  link : ∀ hash, .link hash ∉ ks → ∀ r ∈ s'.leads, r.tokenHash = some hash →
    ∃ r₀ ∈ s.leads, r₀.id = r.id ∧ r₀.tokenHash = some hash
  tenant : ∀ id rif, .restaurant id ∉ ks → .rif rif ∉ ks → s.tenantClash id rif = none →
    s'.tenantClash id rif = none
  user : ∀ id email, .user id ∉ ks → .email (lowered email) ∉ ks → s.userClash id email = none →
    s'.userClash id email = none
  now : s.now ≤ s'.now

/-- An update of one lead, which gives it no link that is not among the keys. -/
theorem Frame.of_update {ks : List SignupKey} {id : Uuid} (f : Lead → Lead)
    (hf : ∀ r, Keyed.key (f r) = Keyed.key r) (hid : .lead id ∈ ks)
    (hlink : ∀ r hash, (f r).tokenHash = some hash → .link hash ∉ ks → r.tokenHash = some hash) :
    Frame s { s with leads := s.leads.update id f hf } ks where
  lead r hr hfind := by
    rw [Table.find?_update, if_neg, hfind]
    rintro rfl
    exact hr hid
  link hash hhash r hr hrhash := by
    have hr : r ∈ s.leads.update id f hf := hr
    obtain ⟨r₀, hr₀, rfl⟩ := Table.mem_update.mp hr
    by_cases hkey : Keyed.key r₀ = id
    · rw [if_pos hkey] at hrhash ⊢
      exact ⟨r₀, hr₀, (hf r₀).symm, hlink r₀ hash hrhash hhash⟩
    · rw [if_neg hkey] at hrhash ⊢
      exact ⟨r₀, hr₀, rfl, hrhash⟩
  tenant _ _ _ _ h := h
  user _ _ _ _ h := h
  now := le_rfl

/-- What it commits nobody else holds. -/
theorem SignupDoes.apart (h : SignupDoes codec auth config s s' us t answer) :
    ∃ ks, Frame s s' ks ∧ ∀ u ∈ us, Held.Apart SignupPhase.keys Held.same t u → ∀ k ∈ ks, k ∉ u.keys := by
  cases h with
  | quiet _ hleads hrestaurants hauth hnow =>
    refine ⟨[], ⟨fun r _ hr => hleads ▸ hr, fun hash _ r hr hhash => ⟨r, hleads ▸ hr, rfl, hhash⟩,
      fun id rif _ _ hclash => ?_, fun id email _ _ hclash => ?_, hnow⟩,
      fun _ _ _ k hk => absurd hk List.not_mem_nil⟩
    · rw [tenantClash_eq_none] at hclash ⊢
      exact hrestaurants ▸ hclash
    · rw [userClash_eq_none] at hclash ⊢
      exact hauth ▸ hclash
  | received form duplicate leads ht hins hs' =>
    subst hs'
    refine ⟨[], ⟨fun r _ hr => ?_, fun hash _ r hr hhash => ?_, fun _ _ _ _ h => h, fun _ _ _ _ h => h,
      le_rfl⟩, fun _ _ _ k hk => absurd hk List.not_mem_nil⟩
    · change leads.find? r.id = some r
      rw [Table.find?_insert? hins, if_neg, hr]
      intro hkey
      exact (Table.insert?_eq_some.mp hins).1 r (Table.find?_mem hr) hkey
    · rcases (Table.mem_insert? hins).mp hr with hr | rfl
      · exact ⟨r, hr, rfl, hhash⟩
      · cases hhash
  | invited lead hash started ht hs' =>
    subst ht hs'
    refine ⟨[.lead lead.id, .link hash], ?_, fun u hu hapart k hk => hapart.not_mem hk⟩
    apply Frame.of_update
    · simp
    · intro r hash' hhash' hnot
      obtain rfl := Option.some.inj hhash'
      simp at hnot
  | born o ht hfound =>
    subst ht
    refine ⟨o.allKeys, ?_, fun u hu hapart k hk => hapart.not_mem hk⟩
    obtain ⟨hrestaurants, husers, hnow, hleads⟩ := found_ok hfound
    have hupdate : Frame s { s with leads := s'.leads } o.allKeys := by
      rw [hleads]
      exact .of_update _ _ (by simp [Opening.allKeys, Opening.keys]) fun r hash hhash _ => hhash
    refine ⟨hupdate.lead, hupdate.link, fun id rif hid hrif hclash => ?_,
      fun id email hid hemail hclash => ?_, hnow.ge⟩
    · rw [tenantClash_eq_none] at hclash ⊢
      intro r hr
      rcases (Table.mem_insert? hrestaurants).mp hr with hr | rfl
      · exact hclash r hr
      · refine ⟨fun heq => hid ?_, fun heq => hrif ?_⟩
        · obtain rfl : o.v.restaurantId = id := heq
          simp [Opening.allKeys, Opening.keys]
        · obtain rfl : o.lead.rif = rif := Option.some.inj heq
          simp [Opening.allKeys, Opening.keys]
    · rw [userClash_eq_none] at hclash ⊢
      intro user huser
      rcases (Table.mem_insert? husers).mp huser with huser | rfl
      · exact hclash user huser
      · refine ⟨fun heq => hid ?_, fun heq => hemail ?_⟩
        · obtain rfl : o.v.userId = id := heq
          simp [Opening.allKeys, Opening.keys]
        · rw [← show lowered o.lead.email = lowered email from heq]
          simp [Opening.allKeys, Opening.keys]
  | marked leadId status reviewNotes started hfree hs' =>
    subst hs'
    refine ⟨[.lead leadId], ?_, fun u hu _ k hk => Held.not_mem_of_free hfree hu hk⟩
    apply Frame.of_update
    · simp
    · exact fun r hash hhash _ => hhash
  | created user users hfree _ hins hs' =>
    subst hs'
    refine ⟨[.user user.id, .email (lowered user.email)], ?_,
      fun u hu _ k hk => Held.not_mem_of_free hfree hu hk⟩
    refine ⟨fun _ _ h => h, fun hash _ r hr hhash => ⟨r, hr, rfl, hhash⟩, fun _ _ _ _ h => h,
      fun id email hid hemail hclash => ?_, le_rfl⟩
    rw [userClash_eq_none] at hclash ⊢
    intro user' huser'
    rcases (Table.mem_insert? hins).mp huser' with huser' | rfl
    · exact hclash user' huser'
    · refine ⟨fun heq => hid ?_, fun heq => hemail ?_⟩
      · subst heq
        simp
      · simp [heq]
  | numbered restaurantId rif hfree hother hs' =>
    subst hs'
    refine ⟨[.rif rif], ?_, fun u hu _ k hk => Held.not_mem_of_free hfree hu hk⟩
    refine ⟨fun _ _ h => h, fun hash _ r hr hhash => ⟨r, hr, rfl, hhash⟩, fun id rif' _ hrif hclash => ?_,
      fun _ _ _ _ h => h, le_rfl⟩
    rw [tenantClash_eq_none] at hclash ⊢
    intro r hr
    have hr : r ∈ s.restaurants.update restaurantId (Tenant.number rif) (Tenant.number_key rif) := hr
    obtain ⟨r₀, hr₀, rfl⟩ := Table.mem_update.mp hr
    by_cases hkey : Keyed.key r₀ = restaurantId
    · rw [if_pos hkey]
      refine ⟨(hclash r₀ hr₀).1, fun heq => hrif ?_⟩
      obtain rfl := Option.some.inj heq
      exact List.mem_singleton.mpr rfl
    · rw [if_neg hkey]
      exact hclash r₀ hr₀

theorem Opening.Good.frame {o : Opening} {ks : List SignupKey} (h : o.Good hashToken s)
    (hframe : Frame s s' ks) (hks : .lead o.lead.id ∉ ks) : o.Good hashToken s' :=
  ⟨⟨hframe.lead _ hks h.row, h.unspent⟩, h.link, h.expires, h.read.trans hframe.now⟩

/-- What a call knows no statement beside it takes away. -/
theorem SignupPhase.Sound.frame {ks : List SignupKey} (hu : u.Sound hashToken s) (hframe : Frame s s' ks)
    (hks : ∀ k ∈ ks, k ∉ u.keys) : u.Sound hashToken s' := by
  have hnot : ∀ k ∈ u.keys, k ∉ ks := fun k hk hk' => hks k hk' hk
  cases u with
  | inviting lead hash started | renewing lead hash started =>
    exact ⟨hframe.lead _ (hnot _ (by simp [keys])) hu.row, hu.unspent⟩
  | renewed lead hash started =>
    refine ⟨⟨hframe.lead _ (hnot _ (by simp [keys])) hu.1.row, hu.1.unspent⟩, fun r hr hhash => ?_⟩
    obtain ⟨r₀, hr₀, hid, hhash₀⟩ := hframe.link hash (hnot _ (by simp [keys])) r hr hhash
    rw [← hid, hu.2 r₀ hr₀ hhash₀]
  | founding o => exact Opening.Good.frame hu hframe (hnot _ (by simp [keys]))
  | staffing o =>
    exact ⟨hu.1.frame hframe (hnot _ (by simp [keys, Opening.keys])),
      hframe.tenant _ _ (hnot _ (by simp [keys, Opening.keys])) (hnot _ (by simp [keys, Opening.keys])) hu.2⟩
  | consuming o | consumed o =>
    have hmem : ∀ k ∈ o.allKeys, k ∉ ks := hnot
    simp only [Opening.allKeys, Opening.keys, List.cons_append, List.nil_append, List.forall_mem_cons] at hmem
    obtain ⟨hlead, hrestaurant, hrif, huser, hemail, -⟩ := hmem
    exact ⟨hu.1.frame hframe hlead, hframe.tenant _ _ hrestaurant hrif hu.2.1,
      hframe.user _ _ huser hemail hu.2.2⟩
  | _ => trivial

/-- Statements keep the unique indexes. -/
theorem SignupDoes.keeps (h : SignupDoes codec auth config s s' us t answer) (hs : s.Sound)
    (ht : t.Sound hashToken s) : s'.Sound := by
  cases h with
  | quiet _ hleads hrestaurants hauth =>
    refine ⟨hrestaurants ▸ hs.rif, hauth ▸ hs.email, hleads ▸ hs.link, hleads ▸ hs.restaurant, ?_⟩
    rw [hleads, hrestaurants]
    exact hs.opened
  | received form duplicate leads _ hins hs' =>
    subst hs'
    refine ⟨hs.rif, hs.email, hs.link.insert hins (by rintro _ ⟨⟩), hs.restaurant.insert hins (by rintro _ ⟨⟩),
      fun r hr id hid => ?_⟩
    rcases (Table.mem_insert? hins).mp hr with hr | rfl
    · exact hs.opened r hr id hid
    · cases hid
  | invited lead hash started hphase hs' =>
    subst hphase hs'
    refine ⟨hs.rif, hs.email, hs.link.rekey (Lead.invite_key config hash started) ?_,
      hs.restaurant.update (Lead.invite_key config hash started) fun _ => rfl, fun r hr id hid => ?_⟩
    · intro r _ _ hash' hhash' r' hr' hrhash'
      obtain rfl := Option.some.inj hhash'
      exact ht.2 r' hr' hrhash'
    · have hr : r ∈ s.leads.update lead.id (Lead.invite config hash started)
        (Lead.invite_key config hash started) := hr
      obtain ⟨r₀, hr₀, rfl⟩ := Table.mem_update.mp hr
      by_cases hkey : Keyed.key r₀ = lead.id
      · rw [if_pos hkey] at hid ⊢
        exact hs.opened r₀ hr₀ id hid
      · rw [if_neg hkey] at hid ⊢
        exact hs.opened r₀ hr₀ id hid
  | born o hphase hfound =>
    subst hphase
    obtain ⟨hrestaurants, husers, -, hleads⟩ := found_ok hfound
    obtain ⟨hgood, htenant, huser⟩ := ht
    rw [tenantClash_eq_none] at htenant
    rw [userClash_eq_none] at huser
    have hnew : ∀ r ∈ s.leads, r.restaurantId ≠ some o.v.restaurantId := by
      intro r hr heq
      obtain ⟨-, restaurant, hmem, hid⟩ := hs.opened r hr _ heq
      exact (htenant restaurant hmem).1 hid
    refine ⟨hs.rif.insert hrestaurants ?_, hs.email.insert husers ?_, ?_, ?_, fun r hr id hid => ?_⟩
    · intro rif hrif r hr
      obtain rfl := Option.some.inj hrif
      exact (htenant r hr).2
    · intro email hemail u hu
      obtain rfl := Option.some.inj hemail
      intro heq
      exact (huser u hu).2 (Option.some.inj heq)
    · rw [hleads]
      exact hs.link.update _ fun _ => rfl
    · rw [hleads]
      refine hs.restaurant.rekey _ fun r _ _ id hid r' hr' hid' => ?_
      obtain rfl := Option.some.inj hid
      exact absurd hid' (hnew r' hr')
    · rw [hleads] at hr
      obtain ⟨r₀, hr₀, rfl⟩ := Table.mem_update.mp hr
      by_cases hkey : Keyed.key r₀ = o.lead.id
      · rw [if_pos hkey] at hid ⊢
        obtain rfl := Option.some.inj hid
        exact ⟨rfl, _, (Table.mem_insert? hrestaurants).mpr (.inr rfl), rfl⟩
      · rw [if_neg hkey] at hid ⊢
        obtain ⟨hconsumed, restaurant, hmem, hid⟩ := hs.opened r₀ hr₀ id hid
        exact ⟨hconsumed, restaurant, (Table.mem_insert? hrestaurants).mpr (.inl hmem), hid⟩
  | marked leadId status reviewNotes started _ hs' =>
    subst hs'
    refine ⟨hs.rif, hs.email, hs.link.update (Lead.mark_key status reviewNotes started) fun _ => rfl,
      hs.restaurant.update (Lead.mark_key status reviewNotes started) fun _ => rfl, fun r hr id hid => ?_⟩
    have hr : r ∈ s.leads.update leadId (Lead.mark status reviewNotes started)
      (Lead.mark_key status reviewNotes started) := hr
    obtain ⟨r₀, hr₀, rfl⟩ := Table.mem_update.mp hr
    by_cases hkey : Keyed.key r₀ = leadId
    · rw [if_pos hkey] at hid ⊢
      exact hs.opened r₀ hr₀ id hid
    · rw [if_neg hkey] at hid ⊢
      exact hs.opened r₀ hr₀ id hid
  | created user users _ hclash hins hs' =>
    subst hs'
    rw [userClash_eq_none] at hclash
    refine ⟨hs.rif, hs.email.insert hins fun email hemail u hu => ?_, hs.link, hs.restaurant, hs.opened⟩
    obtain rfl := Option.some.inj hemail
    simpa using (hclash u hu).2
  | numbered restaurantId rif _ hother hs' =>
    subst hs'
    refine ⟨hs.rif.rekey (Tenant.number_key rif) fun r _ _ rif' hrif r' hr' hrif' => ?_, hs.email, hs.link,
      hs.restaurant, fun r hr id hid => ?_⟩
    · obtain rfl := Option.some.inj hrif
      exact hother r' hr' hrif'
    · obtain ⟨hconsumed, restaurant, hmem, hkey⟩ := hs.opened r hr id hid
      have hafter : (if Keyed.key restaurant = restaurantId then restaurant.number rif else restaurant) ∈
          s.restaurants.update restaurantId (Tenant.number rif) (Tenant.number_key rif) :=
        Table.mem_update.mpr ⟨restaurant, hmem, rfl⟩
      refine ⟨hconsumed, _, hafter, ?_⟩
      split
      · exact hkey
      · exact hkey

variable (codec auth config hashToken) in
/-- Statements keep the indexes, what the calls know, and that no two of them hold one key. -/
theorem signupRule : (signup codec auth config hashToken).Rule (fun _ => True) (fun _ _ _ => True)
    SignupDb.Sound (fun s t => t.Sound hashToken s) (Held.Apart SignupPhase.keys Held.same) where
  symm _ _ h := h.symm Held.same_symm
  start _ _ _ _ := ⟨trivial, fun _ _ _ hk => absurd hk List.not_mem_nil⟩
  goes s us t hs ht hus _ s' t' answer hnext := by
    obtain ⟨rfl, -, hsound, wanted, hfree, hkeys⟩ := next_goes_signup hnext
    exact ⟨hs, hsound ht, fun u hu => ⟨(hus u hu).1, (hus u hu).2.take hfree hkeys hu⟩⟩
  ends s us t hs ht hus _ s' answer hnext := by
    have hdoes := next_ends_signup hnext
    obtain ⟨ks, hframe, hks⟩ := hdoes.apart
    exact ⟨hdoes.keeps hs ht, fun u hu => (hus u hu).1.frame hframe (hks u hu (hus u hu).2)⟩

/-- What holds of the calls at every moment. -/
abbrev Signing (hashToken : String → String) (w : Sessions SignupDb SignupPhase) : Prop :=
  Protocol.Holds SignupDb.Sound (fun s t => t.Sound hashToken s) (Held.Apart SignupPhase.keys Held.same) w

variable (codec auth config hashToken) in
/-- What any move does is what some statement does. -/
theorem signup_move {w : Sessions SignupDb SignupPhase} (hw : Signing hashToken w) (m : Move SignupCall) :
    ∃ us t, t.Sound hashToken w.committed ∧
      SignupDoes codec auth config w.committed
        ((signup codec auth config hashToken).machine.step w m).1.committed us t
        ((signup codec auth config hashToken).machine.step w m).2 := by
  have hquiet : ∀ us t, SignupDoes codec auth config w.committed w.committed us t [] := fun us t =>
    .quiet _ rfl rfl rfl le_rfl (fun e he => absurd he List.not_mem_nil) Nat.one_pos.le
  rcases Protocol.move_cases (p := signup codec auth config hashToken) w m with
    ⟨r, hfind, -, hcommitted, hanswer⟩ | ⟨hcommitted, hanswer, -⟩
  · rw [hcommitted, hanswer]
    refine ⟨w.others r.id, r.state, hw.session r (Table.find?_mem hfind), ?_⟩
    cases hnext : (signup codec auth config hashToken).next w.committed (w.others r.id) r.state with
    | waits => exact hquiet _ _
    | goes s' t' answer =>
      obtain ⟨rfl, rfl, -, -⟩ := next_goes_signup hnext
      exact hquiet _ _
    | ends s' answer => exact next_ends_signup hnext
  · rw [hcommitted, hanswer]
    exact ⟨[], .begun (.elapse 0), trivial, hquiet _ _⟩

end Statements

/-! ## Runs -/

/-- What a restaurant is born from, and what it is born with: a lead that was reviewed, its newest link,
and an owner with its address. -/
structure Birth (hashToken : String → String) (s s' : SignupDb) (o : Opening) (restaurant : Tenant)
    (owner : User) : Prop where
  good : o.Good hashToken s
  founded : restaurant ∈ s'.restaurants ∧ restaurant.rif = some o.lead.rif ∧
    restaurant.planTier = .trial
  owned : owner ∈ s'.auth.users ∧ owner.restaurantId = restaurant.id ∧ owner.role = "OWNER" ∧
    owner.email = o.lead.email
  spent : ∃ lead, s'.leads.find? o.lead.id = some lead ∧ lead.restaurantId = some restaurant.id ∧
    lead.consumedAt.isSome = true

/-- No two restaurants have one tax number, no two accounts one address, no two leads one link, and no two
leads one restaurant. A restaurant comes into being by a birth and no other way. -/
structure Onboards {Token : Type} (codec : TokenCodec Token) (auth : AuthConfig) (config : SignupConfig)
    (hashToken : String → String) (w : Sessions SignupDb SignupPhase) (m : Move SignupCall) : Prop where
  indexes : ((signup codec auth config hashToken).machine.step w m).1.committed.Sound
  births : ∀ o restaurant owner,
    .born o restaurant owner ∈ ((signup codec auth config hashToken).machine.step w m).2 →
      Birth hashToken w.committed ((signup codec auth config hashToken).machine.step w m).1.committed o
        restaurant owner
  restaurants : ∀ r ∈ ((signup codec auth config hashToken).machine.step w m).1.committed.restaurants,
    (∃ r₀ ∈ w.committed.restaurants, r₀.id = r.id) ∨
      ∃ o owner, .born o r owner ∈ ((signup codec auth config hashToken).machine.step w m).2
  users : ∀ u ∈ ((signup codec auth config hashToken).machine.step w m).1.committed.auth.users,
    u ∈ w.committed.auth.users ∨
      .created u ∈ ((signup codec auth config hashToken).machine.step w m).2 ∨
      ∃ o r, .born o r u ∈ ((signup codec auth config hashToken).machine.step w m).2

/-- A link, of the lead that it was made for. -/
structure SignupLink where
  leadId : Uuid
  hash : String

namespace SignupEvent

/-- The lead has opened its restaurant. -/
def Spends : SignupEvent → Uuid → Prop
  | .born o _ _, id => o.lead.id = id
  | _, _ => False

/-- The lead that opens its restaurant, or is sent a link. -/
def leadOf : SignupEvent → Option Uuid
  | .born o _ _ => some o.lead.id
  | .invited leadId _ => some leadId
  | _ => none

/-- The link that opens a restaurant. -/
def follows : SignupEvent → Option SignupLink
  | .born o _ _ => o.lead.tokenHash.map fun hash => ⟨o.lead.id, hash⟩
  | _ => none

/-- Another link is sent to the lead. -/
def Supersedes : SignupEvent → SignupLink → Prop
  | .invited leadId hash, link => leadId = link.leadId ∧ hash ≠ link.hash
  | _, _ => False

def Sends : SignupEvent → SignupLink → Prop
  | .invited leadId hash, link => leadId = link.leadId ∧ hash = link.hash
  | _, _ => False

end SignupEvent

section Runs

variable {Token : Type} {codec : TokenCodec Token} {auth : AuthConfig} {config : SignupConfig}
  {hashToken : String → String} {s s' : SignupDb} {t : SignupPhase} {us : List SignupPhase}
  {answer : List SignupEvent} {w : Sessions SignupDb SignupPhase}

theorem SignupDoes.birth (h : SignupDoes codec auth config s s' us t answer) (ht : t.Sound hashToken s)
    {o : Opening} {restaurant : Tenant} {owner : User} (hmem : .born o restaurant owner ∈ answer) :
    Birth hashToken s s' o restaurant owner := by
  cases h with
  | quiet _ _ _ _ _ hrefused => exact absurd (hrefused _ hmem).1 id
  | born o' hphase hfound =>
    cases List.mem_singleton.mp hmem
    subst hphase
    obtain ⟨hrestaurants, husers, -, hleads⟩ := found_ok hfound
    refine ⟨ht.1, ⟨(Table.mem_insert? hrestaurants).mpr (.inr rfl), rfl, rfl⟩,
      ⟨(Table.mem_insert? husers).mpr (.inr rfl), rfl, rfl, rfl⟩,
      Lead.consume o.v.restaurantId o.started o.lead, ?_, rfl, rfl⟩
    rw [hleads]
    exact Table.find?_update_self _ (Lead.consume_key o.v.restaurantId o.started) ht.1.row
  | _ => cases List.mem_singleton.mp hmem

theorem SignupDoes.restaurants (h : SignupDoes codec auth config s s' us t answer) :
    ∀ r ∈ s'.restaurants, (∃ r₀ ∈ s.restaurants, r₀.id = r.id) ∨ ∃ o owner, .born o r owner ∈ answer := by
  intro r hr
  cases h with
  | quiet _ _ hrestaurants => exact .inl ⟨r, hrestaurants ▸ hr, rfl⟩
  | born o hphase hfound =>
    rcases (Table.mem_insert? (found_ok hfound).1).mp hr with hr | rfl
    · exact .inl ⟨r, hr, rfl⟩
    · exact .inr ⟨o, _, List.mem_singleton.mpr rfl⟩
  | numbered restaurantId rif _ _ hs' =>
    subst hs'
    have hr : r ∈ s.restaurants.update restaurantId (Tenant.number rif) (Tenant.number_key rif) := hr
    obtain ⟨r₀, hr₀, rfl⟩ := Table.mem_update.mp hr
    refine .inl ⟨r₀, hr₀, ?_⟩
    split <;> rfl
  | received _ _ _ _ _ hs' | invited _ _ _ _ hs' | marked _ _ _ _ _ hs' | created _ _ _ _ _ hs' =>
    subst hs'
    exact .inl ⟨r, hr, rfl⟩

theorem SignupDoes.users (h : SignupDoes codec auth config s s' us t answer) :
    ∀ u ∈ s'.auth.users, u ∈ s.auth.users ∨ .created u ∈ answer ∨ ∃ o r, .born o r u ∈ answer := by
  intro u hu
  cases h with
  | quiet _ _ _ hauth => exact .inl (hauth ▸ hu)
  | born o hphase hfound =>
    rcases (Table.mem_insert? (found_ok hfound).2.1).mp hu with hu | rfl
    · exact .inl hu
    · exact .inr (.inr ⟨o, _, List.mem_singleton.mpr rfl⟩)
  | created user users _ _ hins hs' =>
    subst hs'
    rcases (Table.mem_insert? hins).mp hu with hu | rfl
    · exact .inl hu
    · exact .inr (.inl (List.mem_singleton.mpr rfl))
  | received _ _ _ _ _ hs' | invited _ _ _ _ hs' | marked _ _ _ _ _ hs' | numbered _ _ _ _ hs' =>
    subst hs'
    exact .inl hu

/-- A lead that has been consumed stays so. -/
theorem SignupDoes.stays_consumed (h : SignupDoes codec auth config s s' us t answer) {r : Lead}
    (hr : r ∈ s.leads) (hconsumed : r.consumedAt.isSome = true) :
    ∃ r' ∈ s'.leads, r'.id = r.id ∧ r'.consumedAt.isSome = true := by
  have hupdate : ∀ (id : Uuid) (f : Lead → Lead) (hf : ∀ r, Keyed.key (f r) = Keyed.key r),
      (∀ r : Lead, r.consumedAt.isSome = true → (f r).consumedAt.isSome = true) →
        ∃ r' ∈ s.leads.update id f hf, r'.id = r.id ∧ r'.consumedAt.isSome = true := by
    intro id f hf hkeeps
    refine ⟨_, Table.mem_update.mpr ⟨r, hr, rfl⟩, ?_⟩
    split
    · exact ⟨hf r, hkeeps r hconsumed⟩
    · exact ⟨rfl, hconsumed⟩
  cases h with
  | quiet _ hleads => exact ⟨r, hleads ▸ hr, rfl, hconsumed⟩
  | received form duplicate leads _ hins hs' =>
    subst hs'
    exact ⟨r, (Table.mem_insert? hins).mpr (.inl hr), rfl, hconsumed⟩
  | invited lead hash started _ hs' =>
    subst hs'
    exact hupdate _ _ (Lead.invite_key config hash started) fun _ h => h
  | born o _ hfound =>
    rw [(found_ok hfound).2.2.2]
    exact hupdate _ _ (Lead.consume_key o.v.restaurantId o.started) fun _ _ => rfl
  | marked leadId status reviewNotes started _ hs' =>
    subst hs'
    exact hupdate _ _ (Lead.mark_key status reviewNotes started) fun _ h => h
  | created _ _ _ _ _ hs' | numbered _ _ _ _ hs' =>
    subst hs'
    exact ⟨r, hr, rfl, hconsumed⟩

/-- A lead has a link that it was sent then, or had before. -/
theorem SignupDoes.links (h : SignupDoes codec auth config s s' us t answer) {r : Lead} (hr : r ∈ s'.leads)
    {hash : String} (hhash : r.tokenHash = some hash) :
    .invited r.id hash ∈ answer ∨
      (∃ r₀ ∈ s.leads, r₀.id = r.id ∧ r₀.tokenHash = some hash) ∧
        ∀ hash', .invited r.id hash' ∉ answer := by
  have hupdate : ∀ (id : Uuid) (f : Lead → Lead) (hf : ∀ r, Keyed.key (f r) = Keyed.key r),
      (∀ r : Lead, (f r).tokenHash = r.tokenHash) → r ∈ s.leads.update id f hf →
        ∃ r₀ ∈ s.leads, r₀.id = r.id ∧ r₀.tokenHash = some hash := by
    intro id f hf hkeeps hr
    obtain ⟨r₀, hr₀, rfl⟩ := Table.mem_update.mp hr
    by_cases hkey : Keyed.key r₀ = id
    · rw [if_pos hkey] at hhash ⊢
      exact ⟨r₀, hr₀, (hf r₀).symm, hkeeps r₀ ▸ hhash⟩
    · rw [if_neg hkey] at hhash ⊢
      exact ⟨r₀, hr₀, rfl, hhash⟩
  cases h with
  | quiet _ hleads _ _ _ hrefused =>
    exact .inr ⟨⟨r, hleads ▸ hr, rfl, hhash⟩, fun hash' hmem => (hrefused _ hmem).1⟩
  | received form duplicate leads _ hins hs' =>
    subst hs'
    rcases (Table.mem_insert? hins).mp hr with hr | rfl
    · exact .inr ⟨⟨r, hr, rfl, hhash⟩, by simp⟩
    · cases hhash
  | invited lead hash₀ started _ hs' =>
    subst hs'
    have hr : r ∈ s.leads.update lead.id (Lead.invite config hash₀ started)
      (Lead.invite_key config hash₀ started) := hr
    obtain ⟨r₀, hr₀, rfl⟩ := Table.mem_update.mp hr
    by_cases hkey : Keyed.key r₀ = lead.id
    · rw [if_pos hkey] at hhash ⊢
      obtain rfl := Option.some.inj hhash
      left
      rw [show (Lead.invite config hash₀ started r₀).id = lead.id from hkey]
      exact List.mem_singleton.mpr rfl
    · rw [if_neg hkey] at hhash ⊢
      have hkey : r₀.id ≠ lead.id := hkey
      exact .inr ⟨⟨r₀, hr₀, rfl, hhash⟩, by simp [hkey]⟩
  | born o _ hfound =>
    rw [(found_ok hfound).2.2.2] at hr
    exact .inr ⟨hupdate _ _ (Lead.consume_key o.v.restaurantId o.started) (fun _ => rfl) hr, by simp⟩
  | marked leadId status reviewNotes started _ hs' =>
    subst hs'
    exact .inr ⟨hupdate _ _ (Lead.mark_key status reviewNotes started) (fun _ => rfl) hr, by simp⟩
  | created _ _ _ _ _ hs' | numbered _ _ _ _ hs' =>
    subst hs'
    exact .inr ⟨⟨r, hr, rfl, hhash⟩, by simp⟩

theorem signup_answer_length (hw : Signing hashToken w) (m : Move SignupCall) :
    ((signup codec auth config hashToken).machine.step w m).2.length ≤ 1 := by
  obtain ⟨us, t, -, hdoes⟩ := signup_move codec auth config hashToken hw m
  generalize ((signup codec auth config hashToken).machine.step w m).2 = answer at hdoes
  cases hdoes with
  | quiet _ _ _ _ _ _ hlength => exact hlength
  | received | invited | born | marked | created | numbered => exact le_rfl

theorem onboards (hw : Signing hashToken w) (m : Move SignupCall) :
    Onboards codec auth config hashToken w m := by
  obtain ⟨us, t, ht, hdoes⟩ := signup_move codec auth config hashToken hw m
  exact ⟨hdoes.keeps hw.committed ht, fun _ _ _ hmem => hdoes.birth ht hmem, hdoes.restaurants, hdoes.users⟩

/-- A lead that has opened its restaurant opens no other one, and is sent no link. -/
theorem spentRule : (signup codec auth config hashToken).machine.SpendingRule (Signing hashToken)
    (fun _ _ => True) SignupEvent.Spends SignupEvent.leadOf (fun _ _ => False)
    (fun w id => ∃ r ∈ w.committed.leads, r.id = id ∧ r.consumedAt.isSome = true) where
  step w m hw _ := (signupRule codec auth config hashToken).step w m hw (Protocol.allowed_any m)
  one w m hw _ := signup_answer_length hw m
  used w m hw _ e he id hlead := by
    have hunspent : ∀ lead, w.committed.Locked lead → lead.id = id →
        ¬∃ r ∈ w.committed.leads, r.id = id ∧ r.consumedAt.isSome = true := by
      rintro lead hlocked rfl ⟨r, hr, hid, hconsumed⟩
      obtain rfl : r = lead := Table.eq_of_key hr (Table.find?_mem hlocked.row) hid
      simp [hlocked.unspent] at hconsumed
    obtain ⟨us, t, ht, hdoes⟩ := signup_move codec auth config hashToken hw m
    generalize ((signup codec auth config hashToken).machine.step w m).2 = answer at hdoes he
    cases hdoes with
    | quiet _ _ _ _ _ hrefused =>
      cases e with
      | refused => cases hlead
      | _ => exact (hrefused _ he).1.elim
    | invited lead hash started hphase =>
      obtain rfl := List.mem_singleton.mp he
      subst hphase
      exact hunspent lead ht.1 (Option.some.inj hlead)
    | born o hphase =>
      obtain rfl := List.mem_singleton.mp he
      subst hphase
      exact hunspent o.lead ht.1.toLocked (Option.some.inj hlead)
    | received | marked | created | numbered =>
      obtain rfl := List.mem_singleton.mp he
      cases hlead
  done w m hw _ id hdone := by
    left
    obtain ⟨us, t, ht, hdoes⟩ := signup_move codec auth config hashToken hw m
    rcases hdone with ⟨r, hr, rfl, hconsumed⟩ | ⟨e, he, hspends⟩
    · exact hdoes.stays_consumed hr hconsumed
    · cases e with
      | born o restaurant owner =>
        obtain rfl : o.lead.id = id := hspends
        obtain ⟨lead, hfind, -, hconsumed⟩ := (hdoes.birth ht he).spent
        exact ⟨lead, Table.find?_mem hfind, Table.find?_key hfind, hconsumed⟩
      | _ => cases hspends

/-- Behind a newer one for its lead, a link opens nothing. -/
theorem staleRule : (signup codec auth config hashToken).machine.SpendingRule (Signing hashToken)
    (fun _ _ => True) SignupEvent.Supersedes SignupEvent.follows SignupEvent.Sends
    (fun w link => ∀ r ∈ w.committed.leads, r.id = link.leadId → r.tokenHash ≠ some link.hash) where
  step w m hw _ := (signupRule codec auth config hashToken).step w m hw (Protocol.allowed_any m)
  one w m hw _ := signup_answer_length hw m
  used w m hw _ e he link hfollows hdone := by
    cases e with
    | born o restaurant owner =>
      obtain ⟨hash, hhash, rfl⟩ := Option.map_eq_some_iff.mp hfollows
      have hgood := ((onboards hw m).births o restaurant owner he).good
      exact hdone o.lead (Table.find?_mem hgood.row) rfl hhash
    | _ => cases hfollows
  done w m hw _ link hdone := by
    obtain ⟨us, t, -, hdoes⟩ := signup_move codec auth config hashToken hw m
    by_cases hsends : ∃ e ∈ ((signup codec auth config hashToken).machine.step w m).2, e.Sends link
    · exact .inr hsends
    · refine .inl fun r hr hid hhash => ?_
      rcases hdoes.links hr hhash with hinvited | ⟨⟨r₀, hr₀, hid₀, hhash₀⟩, hnone⟩
      · exact hsends ⟨_, hinvited, hid, rfl⟩
      · rcases hdone with hdone | ⟨e, he, hsupersedes⟩
        · exact hdone r₀ hr₀ (hid₀.trans hid) hhash₀
        · cases e with
          | invited leadId hash' =>
            obtain rfl : leadId = r.id := hsupersedes.1.trans hid.symm
            exact hnone hash' he
          | _ => cases hsupersedes

/-- A call commits with its last statement, and not when it is refused. -/
theorem signup_hushed :
    (signup codec auth config hashToken).Hushed (fun _ => False) SignupEvent.IsRefused where
  quiet s us t s' t' answer hnext := .inl (next_goes_signup hnext).same
  keeps _ _ _ _ _ _ h := h.elim
  refused s us t := by
    rintro ⟨e, he, hrefused⟩
    refine ⟨?_, id⟩
    cases hnext : (signup codec auth config hashToken).next s us t with
    | waits => rfl
    | goes s' t' answer => exact (next_goes_signup hnext).same
    | ends s' answer =>
      rw [hnext] at he
      have hdoes := next_ends_signup hnext
      change s' = s
      change e ∈ answer at he
      cases hdoes with
      | quiet _ _ _ _ _ hquiet => exact (hquiet e he).2
      | received | invited | born | marked | created | numbered =>
        obtain rfl := List.mem_singleton.mp he
        cases hrefused

/-- However the calls interleave: a restaurant comes into being with its one owner, out of a lead that has
opened none, by its newest link and before that expires; no two restaurants have one tax number and no two
accounts one address; a lead that has opened its restaurant opens no other one and is sent no link; behind
a newer link of its lead a link opens nothing; and a call that is refused has changed nothing. -/
theorem onboarded_once (codec : TokenCodec Token) (auth : AuthConfig) (config : SignupConfig)
    (hashToken : String → String) (s : SignupDb) (hs : s.Sound) (moves : List (Move SignupCall)) :
    (signup codec auth config hashToken).machine.Every (Onboards codec auth config hashToken)
        (Sessions.start s) moves ∧
      Barred SignupEvent.Spends SignupEvent.leadOf (fun _ _ => False)
        ((signup codec auth config hashToken).machine.outputs (Sessions.start s) moves) ∧
      Barred SignupEvent.Supersedes SignupEvent.follows SignupEvent.Sends
        ((signup codec auth config hashToken).machine.outputs (Sessions.start s) moves) ∧
      (signup codec auth config hashToken).QuietWhen SignupEvent.IsRefused (Sessions.start s) moves := by
  have hany : (signup codec auth config hashToken).machine.Every (fun _ _ => True) (Sessions.start s) moves :=
    Machine.every_input.mpr fun _ _ => trivial
  have hstart : Signing hashToken (Sessions.start s) := .start hs
  refine ⟨?_, spentRule.outputs_barred hstart hany, staleRule.outputs_barred hstart hany,
    signup_hushed.quietWhen _ _⟩
  exact Machine.every_imp spentRule.step (fun w m hw _ => onboards hw m) hstart hany

end Runs

/-! ## Two clicks on one link -/

def noRestaurant : SignupDb := ⟨∅, ∅, ⟨∅, ∅, []⟩, 0⟩

/-- A lead is sent a link, which is followed twice at once; and an older one, which is followed as well. -/
def twoClicks : List (Move SignupCall) :=
  [.start 0 (.submitLead ⟨1, "Casa Ana", some "J-12345678-0", "Ana@example.com", "0212", none⟩), .go 0, .go 0,
    .start 1 (.inviteLead 1 "first"), .go 1, .go 1, .go 1, .go 1, .go 1,
    .start 2 (.inviteLead 1 "second"), .go 2, .start 3 (.verifySignup ⟨"first", 10, 20, 30⟩), .go 3,
    .go 2, .go 2, .go 2, .go 2, .go 3,
    .start 4 (.verifySignup ⟨"second", 11, 21, 31⟩), .start 5 (.verifySignup ⟨"second", 12, 22, 32⟩),
    .go 4, .go 5, .go 4, .go 5, .go 4, .go 4, .go 4, .go 4, .go 5]

example : ((signup plainCodec dayConfig ⟨1000, 1000⟩ id).machine.outputs (Sessions.start noRestaurant)
    twoClicks).filterMap (fun e => e.follows.map SignupLink.hash) = ["second"] := by decide +kernel

theorem two_clicks_onboarded :
    (signup plainCodec dayConfig ⟨1000, 1000⟩ id).machine.Every
        (Onboards plainCodec dayConfig ⟨1000, 1000⟩ id) (Sessions.start noRestaurant) twoClicks ∧
      Barred SignupEvent.Spends SignupEvent.leadOf (fun _ _ => False)
        ((signup plainCodec dayConfig ⟨1000, 1000⟩ id).machine.outputs (Sessions.start noRestaurant)
          twoClicks) ∧
      Barred SignupEvent.Supersedes SignupEvent.follows SignupEvent.Sends
        ((signup plainCodec dayConfig ⟨1000, 1000⟩ id).machine.outputs (Sessions.start noRestaurant)
          twoClicks) ∧
      (signup plainCodec dayConfig ⟨1000, 1000⟩ id).QuietWhen SignupEvent.IsRefused
        (Sessions.start noRestaurant) twoClicks :=
  onboarded_once plainCodec dayConfig ⟨1000, 1000⟩ id noRestaurant
    ⟨.empty, .empty, .empty, .empty, fun _ hr => absurd hr List.not_mem_nil⟩ twoClicks

end Splite.Onboarding
