import Splite.Lib.Journal
import Splite.Lib.Refusal
import Splite.Lib.Unique
import Splite.Platform.Renewal
import Splite.Platform.Rif
import Mathlib.Data.List.TakeWhile

/-!
# The plan and the tax number of a restaurant (`services/plans.js`, `services/fiscalIssuer.js`)

`change` and `writeRif` beside each other and beside the documents that are issued, statement by statement.
Both lock the row of the restaurant with `FOR UPDATE`, and a document that is inserted locks it with
`FOR KEY SHARE`, for its foreign key.

* `tenantRule`: what a call has read of a restaurant and its documents stays true until it commits.
* `identity_frozen`: a restaurant that has issued a document keeps the tax number.
* `plan_trailed`: the audit rows of a restaurant lead to its plan, and it loses no capability that it has
  used unless that was forced.
-/

namespace Splite.Tenants

/-! ## What a plan includes (`services/entitlements.js`) -/

def TIERS : List PlanTier := [.trial, .starter, .pro, .enterprise]

inductive Capability where
  | bills
  | splitting
  | declaredMobilePayment
  | c2pCharge
  | guestOrdering
  | tipReports
  | menuOcr
  | mfa
  | fiscalInvoicing
  deriving DecidableEq, Repr

def Capability.text : Capability → String
  | .bills => "bills"
  | .splitting => "splitting"
  | .declaredMobilePayment => "declaredMobilePayment"
  | .c2pCharge => "c2pCharge"
  | .guestOrdering => "guestOrdering"
  | .tipReports => "tipReports"
  | .menuOcr => "menuOcr"
  | .mfa => "mfa"
  | .fiscalInvoicing => "fiscalInvoicing"

def INCLUDED : Capability → List PlanTier
  | .bills | .splitting | .declaredMobilePayment => TIERS
  | .c2pCharge | .guestOrdering => [.starter, .pro, .enterprise]
  | .tipReports | .menuOcr | .mfa => [.pro, .enterprise]
  | .fiscalInvoicing => [.enterprise]

/-- The capabilities that the API refuses without. -/
def ENFORCED : List Capability := [.fiscalInvoicing]

def CAPABILITIES : List Capability :=
  [.bills, .splitting, .declaredMobilePayment, .c2pCharge, .guestOrdering, .tipReports, .menuOcr, .mfa,
    .fiscalInvoicing]

def tierIncludes (tier : PlanTier) (capability : Capability) : Bool := tier ∈ INCLUDED capability

def isAllowed (tier : PlanTier) (capability : Capability) : Bool :=
  if capability ∉ ENFORCED then true else tierIncludes tier capability

def tiersOffering (capability : Capability) : List PlanTier := INCLUDED capability

/-! ## The source -/

/-- A row of `restaurants`. -/
structure Restaurant where
  id : Uuid
  rif : Option String
  planTier : PlanTier
  trialEndsAt : Option Time
  deriving DecidableEq, Repr

/-- A row of `fiscal_invoices`. -/
structure Document where
  id : Uuid
  restaurantId : Uuid
  deriving DecidableEq, Repr

instance : Keyed Restaurant Uuid := ⟨Restaurant.id⟩
instance : Keyed Document Uuid := ⟨Document.id⟩

/-- `TRIM(…)` takes blanks away. -/
def trimBlanks (s : String) : String :=
  String.ofList (((s.toList.dropWhile (· = ' ')).reverse.dropWhile (· = ' ')).reverse)

/-- `NULLIF(TRIM(rif), '')`. -/
def Restaurant.issuerRif (r : Restaurant) : Option String := (r.rif.map trimBlanks).filter (· ≠ "")

/-- The capabilities that a change of plan gives and takes. -/
structure PlanDiff where
  gained : List Capability
  lost : List Capability
  deriving DecidableEq, Repr

/-- `diff(from, to)`. -/
def diff (before after : PlanTier) : PlanDiff where
  gained := CAPABILITIES.filter fun c => !tierIncludes before c && tierIncludes after c
  lost := CAPABILITIES.filter fun c => tierIncludes before c && !tierIncludes after c

/-- The details of the row `PLAN_CHANGED` of `audit_logs`. -/
structure PlanChanged where
  restaurantId : Uuid
  before : PlanTier
  after : PlanTier
  via : String
  operatorEmail : Option String
  note : Option String
  forced : Bool
  breaking : List (Capability × String)
  gained : List Capability
  lost : List Capability
  deriving DecidableEq, Repr

/-- A row `PLAN_CHANGED` of `operator_audit`. -/
structure OperatorEntry where
  operatorId : Uuid
  restaurantId : Uuid
  before : PlanTier
  after : PlanTier
  note : Option String
  forced : Bool
  trialDays : Option Nat
  deriving DecidableEq, Repr

/-- The argument of `change`; an operator is its id and its address. -/
structure PlanChange where
  restaurantId : Uuid
  tier : String
  trialDays : Option Nat
  note : Option String
  force : Bool
  operator : Option (Uuid × String)
  deriving DecidableEq, Repr

/-- The tables as committed, and the clock. -/
structure TenantDb where
  restaurants : Table Restaurant
  docs : Table Document
  audit : List PlanChanged
  operatorAudit : List OperatorEntry
  now : Time
  deriving DecidableEq

inductive TenantCall where
  | change (c : PlanChange)
  | writeRif (restaurantId : Uuid) (input : Option String)
  /-- `issueForPayment` and `persistIssued`, as far as they read the restaurant and insert the document. -/
  | issue (restaurantId docId : Uuid)
  /-- A restaurant that `verifySignup` opens. -/
  | register (id : Uuid) (rif : Option String) (trialEndsAt : Time)
  | elapse (ms : Nat)
  deriving DecidableEq, Repr

/-- The next statement; `started` is `NOW()` of its transaction. -/
inductive TenantPhase where
  | begun (call : TenantCall)
  /-- `SELECT … FOR UPDATE` of `change`. -/
  | lockPlan (c : PlanChange) (tier : PlanTier) (started : Time)
  /-- `SELECT count(*) FROM fiscal_invoices`. -/
  | counting (c : PlanChange) (tier : PlanTier) (before : Restaurant) (started : Time)
  /-- `UPDATE restaurants SET plan_tier = …`. -/
  | replanning (c : PlanChange) (tier : PlanTier) (before : Restaurant)
      (breaking : List (Capability × String)) (started : Time)
  /-- The plan is written; `INSERT INTO audit_logs`, and `COMMIT`. -/
  | logging (c : PlanChange) (tier : PlanTier) (before : Restaurant)
      (breaking : List (Capability × String)) (started : Time)
  /-- `SELECT … FOR UPDATE` of `writeRif`. -/
  | lockIssuer (restaurantId : Uuid) (rif : String)
  /-- `SELECT 1 FROM fiscal_invoices`. -/
  | readIssued (rif : String) (before : Restaurant)
  /-- `UPDATE restaurants SET rif = $2`. -/
  | numbering (rif : String) (before : Restaurant)
  /-- The number is written; `COMMIT`. -/
  | numbered (rif : String) (before : Restaurant)
  /-- `SELECT NULLIF(TRIM(rif), '')` of `issueForPayment`. -/
  | readIssuer (restaurantId docId : Uuid)
  /-- `INSERT INTO fiscal_invoices`. -/
  | prepared (restaurantId docId : Uuid)
  /-- The document is written; `COMMIT`. -/
  | inserted (restaurantId docId : Uuid)
  deriving DecidableEq, Repr

/-- What one call holds beside the others. -/
inductive TenantKey where
  /-- The restaurant, `FOR UPDATE`. -/
  | update (id : Uuid)
  /-- The restaurant, `FOR KEY SHARE`. -/
  | keyShare (id : Uuid)
  /-- The number, in `restaurants_rif_unique_idx`. -/
  | rif (rif : String)
  deriving DecidableEq, Repr

def TenantKey.clash : TenantKey → TenantKey → Bool
  | .update id, .update id' | .update id, .keyShare id' | .keyShare id, .update id' => id = id'
  | .rif number, .rif number' => number = number'
  | _, _ => false

def TenantPhase.keys : TenantPhase → List TenantKey
  | .counting _ _ before _ | .replanning _ _ before _ _ | .logging _ _ before _ _ => [.update before.id]
  | .readIssued _ before | .numbering _ before => [.update before.id]
  | .numbered rif before => [.update before.id, .rif rif]
  | .inserted restaurantId _ => [.keyShare restaurantId]
  | _ => []

inductive TenantEvent where
  | changed (entry : PlanChanged)
  | numbered (restaurantId : Uuid) (rif : String) (previous : Option String)
  | unchanged (restaurantId : Uuid)
  | issued (doc : Document)
  | registered (id : Uuid)
  | refused (err : Err)
  deriving DecidableEq, Repr

/-- `USAGE[capability].describe(n)`; the capabilities without a count have none. -/
def USAGE : Capability → Option (Nat → String)
  | .fiscalInvoicing => some fun n => "ya ha emitido " ++ toString n ++ " factura(s) fiscal(es)"
  | _ => none

/-- The documents of a restaurant. -/
def TenantDb.issuedBy (s : TenantDb) (restaurantId : Uuid) : List Document :=
  s.docs.rows.filter fun d => d.restaurantId = restaurantId

/-- The capabilities among `lost` that the restaurant is using. -/
def TenantDb.breaking (s : TenantDb) (restaurantId : Uuid) (lost : List Capability) :
    List (Capability × String) :=
  lost.filterMap fun capability =>
    if capability ∉ ENFORCED then none
    else (USAGE capability).bind fun describe =>
      let n := (s.issuedBy restaurantId).length
      if 0 < n then some (capability, describe n) else none

/-- `TIERS.includes(tier)`. -/
def tierOf? (tier : String) : Option PlanTier := TIERS.find? fun t => t.text = tier

/-- The `UPDATE` of `change`. -/
def Restaurant.replan (tier : PlanTier) (trialDays : Option Nat) (started : Time) (r : Restaurant) :
    Restaurant :=
  { r with
    planTier := tier
    trialEndsAt :=
      if tier ≠ .trial then none
      else match trialDays with
        | some days => some (started + days * 86400000)
        | none => r.trialEndsAt }

theorem Restaurant.replan_key (tier : PlanTier) (trialDays : Option Nat) (started : Time) (r : Restaurant) :
    Keyed.key (r.replan tier trialDays started) = Keyed.key r := rfl

/-- The `UPDATE` of `writeRif`. -/
def Restaurant.number (rif : String) (r : Restaurant) : Restaurant := { r with rif := some rif }

theorem Restaurant.number_key (rif : String) (r : Restaurant) : Keyed.key (r.number rif) = Keyed.key r := rfl

/-- The audit row of `change`. -/
def PlanChange.entry (c : PlanChange) (tier : PlanTier) (before : Restaurant)
    (breaking : List (Capability × String)) : PlanChanged where
  restaurantId := before.id
  before := before.planTier
  after := tier
  via := if c.operator.isSome then "console" else "cli"
  operatorEmail := c.operator.map Prod.snd
  note := c.note
  forced := breaking ≠ []
  breaking := breaking
  gained := (diff before.planTier tier).gained
  lost := (diff before.planTier tier).lost

/-- What `change` commits. -/
def TenantDb.replanned (s : TenantDb) (c : PlanChange) (tier : PlanTier) (before : Restaurant)
    (breaking : List (Capability × String)) (started : Time) : TenantDb :=
  { s with
    restaurants := s.restaurants.update before.id (Restaurant.replan tier c.trialDays started)
      (Restaurant.replan_key tier c.trialDays started)
    audit := s.audit ++ [c.entry tier before breaking]
    operatorAudit := s.operatorAudit ++ c.operator.toList.map fun op =>
      ⟨op.1, before.id, before.planTier, tier, c.note, breaking ≠ [], c.trialDays⟩ }

def restaurantNotFound : Err := .api .restaurantNotFound "Restaurant not found" []

/-- `parseRif(input)`, without whether the check digit fits. -/
def parseRif (input : Option String) : Except Err String :=
  if Rif.hasRifShape (Rif.normaliseRif input) then .ok (String.ofList (Rif.normaliseRif input))
  else .error (.api .fiscalRifMalformed "A RIF is a type letter, eight digits and a check digit"
    [("example", "J-12345678-4")])

def downgradeBlocked (before tier : PlanTier) (breaking : List (Capability × String)) : Err :=
  .api .planDowngradeBlocked "This downgrade removes a capability the restaurant is already using"
    ([("from", before.text), ("to", tier.text)] ++
      breaking.map fun b => ("breaking", b.1.text ++ ": " ++ b.2))

def upgradeRequired (tier : PlanTier) (capability : Capability) : Err :=
  .api .planUpgradeRequired "The restaurant plan does not include this capability"
    ([("capability", capability.text), ("currentTier", tier.text)] ++
      (tiersOffering capability).map fun t => ("requiredTiers", t.text))

/-- The next statement, beside the other calls. -/
def TenantPhase.next (s : TenantDb) (others : List TenantPhase) :
    TenantPhase → Advance TenantDb TenantPhase TenantEvent
  | .begun (.change c) =>
    match tierOf? c.tier with
    | none => .ends s [.refused (.api .validationFailed ("Unknown tier " ++ c.tier)
        (TIERS.map fun t => ("allowed", t.text)))]
    | some tier => .goes s (.lockPlan c tier s.now) []
  | .begun (.writeRif restaurantId input) =>
    match parseRif input with
    | .error err => .ends s [.refused err]
    | .ok rif => .goes s (.lockIssuer restaurantId rif) []
  | .begun (.issue restaurantId docId) =>
    -- `requirePlan('fiscalInvoicing')`, before the transaction.
    match s.restaurants.find? restaurantId with
    | none => .ends s [.refused restaurantNotFound]
    | some r =>
      if isAllowed r.planTier .fiscalInvoicing then .goes s (.readIssuer restaurantId docId) []
      else .ends s [.refused (upgradeRequired r.planTier .fiscalInvoicing)]
  | .begun (.register id rif trialEndsAt) =>
    if Held.taken keys TenantKey.clash others (rif.toList.map .rif) then .waits
    else if s.restaurants.rows.any fun r => rif.isSome && r.rif = rif then
      .ends s [.refused (.uniqueViolation "restaurants_rif_unique_idx")]
    else
      match s.restaurants.insert? ⟨id, rif, .trial, some trialEndsAt⟩ with
      | none => .ends s [.refused (.uniqueViolation "restaurants_pkey")]
      | some restaurants => .ends { s with restaurants } [.registered id]
  | .begun (.elapse ms) => .ends { s with now := s.now + ms } []
  | .lockPlan c tier started =>
    if Held.taken keys TenantKey.clash others [.update c.restaurantId] then .waits
    else
      match s.restaurants.find? c.restaurantId with
      | none => .ends s [.refused restaurantNotFound]
      | some before => .goes s (.counting c tier before started) []
  | .counting c tier before started =>
    let breaking := s.breaking before.id (diff before.planTier tier).lost
    if breaking ≠ [] ∧ c.force = false then
      .ends s [.refused (downgradeBlocked before.planTier tier breaking)]
    else .goes s (.replanning c tier before breaking started) []
  | .replanning c tier before breaking started => .goes s (.logging c tier before breaking started) []
  | .logging c tier before breaking started =>
    .ends (s.replanned c tier before breaking started) [.changed (c.entry tier before breaking)]
  | .lockIssuer restaurantId rif =>
    if Held.taken keys TenantKey.clash others [.update restaurantId] then .waits
    else
      match s.restaurants.find? restaurantId with
      | none => .ends s [.refused restaurantNotFound]
      | some before =>
        if before.issuerRif = some rif then .ends s [.unchanged before.id]
        else .goes s (.readIssued rif before) []
  | .readIssued rif before =>
    if s.issuedBy before.id ≠ [] then
      .ends s [.refused (.api .fiscalRifLocked
        "The RIF cannot change once a fiscal document has been issued under it"
        [("issuedRif", before.issuerRif.elim "null" fun previous => Rif.formatRif (some previous))])]
    else .goes s (.numbering rif before) []
  | .numbering rif before =>
    if Held.taken keys TenantKey.clash others [.rif rif] then .waits
    else if s.restaurants.rows.any fun r => r.id ≠ before.id && r.rif = some rif then
      .ends s [.refused (.api .fiscalRifTaken "Another restaurant is already registered with that RIF" [])]
    else .goes s (.numbered rif before) []
  | .numbered rif before =>
    .ends { s with
      restaurants := s.restaurants.update before.id (Restaurant.number rif) (Restaurant.number_key rif) }
      [.numbered before.id rif before.issuerRif]
  | .readIssuer restaurantId docId =>
    match s.restaurants.find? restaurantId with
    | none => .ends s [.refused restaurantNotFound]
    | some r =>
      if r.issuerRif = none then
        .ends s [.refused (.api .fiscalRifMissing
          "This restaurant has no RIF on file, and a fiscal invoice cannot be issued without one" [])]
      else .goes s (.prepared restaurantId docId) []
  | .prepared restaurantId docId =>
    if Held.taken keys TenantKey.clash others [.keyShare restaurantId] then .waits
    else
      match s.docs.find? docId with
      | some _ => .ends s [.refused (.uniqueViolation "fiscal_invoices_pkey")]
      | none => .goes s (.inserted restaurantId docId) []
  | .inserted restaurantId docId =>
    match s.docs.insert? ⟨docId, restaurantId⟩ with
    | none => .ends s [.refused (.uniqueViolation "fiscal_invoices_pkey")]
    | some docs => .ends { s with docs } [.issued ⟨docId, restaurantId⟩]

def tenancy : Protocol TenantDb TenantPhase TenantCall TenantEvent where
  start := .begun
  next := TenantPhase.next

/-! ## What a call knows -/

def Shaped (rif : String) : Prop := Rif.hasRifShape rif.toList = true

namespace TenantDb

/-- The plans of a restaurant, from the trial that it begins with. -/
def planHistory (s : TenantDb) (restaurantId : Uuid) : List (Option PlanTier × PlanTier) :=
  (none, .trial) ::
    (s.audit.filter fun e => e.restaurantId = restaurantId).map fun e => (some e.before, e.after)

/-- The restaurant can be named on a document. -/
def HasIssuer (s : TenantDb) (restaurantId : Uuid) : Prop :=
  ∃ r, s.restaurants.find? restaurantId = some r ∧ r.issuerRif.isSome = true

/-- Tax numbers are unique, and a restaurant with documents has one. Only a trial ends, and the audit rows of
a restaurant lead to its plan. -/
structure Sound (s : TenantDb) : Prop where
  rif : s.restaurants.UniqueOn Restaurant.rif
  issuer : ∀ d ∈ s.docs, s.HasIssuer d.restaurantId
  trial : ∀ r ∈ s.restaurants, r.planTier ≠ .trial → r.trialEndsAt = none
  history : ∀ r ∈ s.restaurants,
    Replays (fun tier => tier = .trial) (fun _ _ => True) (s.planHistory r.id) r.planTier
  known : ∀ e ∈ s.audit, ∃ r ∈ s.restaurants, r.id = e.restaurantId

end TenantDb

namespace TenantPhase

/-- What a call knows by its next statement. -/
def Sound (s : TenantDb) : TenantPhase → Prop
  | .counting _ _ before _ => s.restaurants.find? before.id = some before
  | .replanning c tier before breaking _ | .logging c tier before breaking _ =>
    s.restaurants.find? before.id = some before ∧
      breaking = s.breaking before.id (diff before.planTier tier).lost ∧ (breaking ≠ [] → c.force = true)
  | .lockIssuer _ rif => Shaped rif
  | .readIssued rif before => Shaped rif ∧ s.restaurants.find? before.id = some before
  | .numbering rif before => Shaped rif ∧ s.restaurants.find? before.id = some before ∧ s.issuedBy before.id = []
  | .numbered rif before => Shaped rif ∧ s.restaurants.find? before.id = some before ∧
    s.issuedBy before.id = [] ∧ ∀ r ∈ s.restaurants, r.rif = some rif → r.id = before.id
  | .prepared restaurantId _ | .inserted restaurantId _ => s.HasIssuer restaurantId
  | _ => True

end TenantPhase

def TenantEvent.IsRefused : TenantEvent → Prop
  | .refused _ => True
  | _ => False

/-- Nothing is written. -/
def TenantEvent.Idle : TenantEvent → Prop
  | .refused _ | .unchanged _ => True
  | _ => False

theorem TenantKey.clash_symm (k k' : TenantKey) : k.clash k' = k'.clash k := by
  cases k <;> cases k' <;> simp [TenantKey.clash, eq_comm]

/-- A number that has the shape is not blank. -/
theorem Shaped.issuerRif {rif : String} (h : Shaped rif) (r : Restaurant) :
    (r.number rif).issuerRif.isSome = true := by
  obtain ⟨⟨value, body, check⟩, hparts⟩ := Option.isSome_iff_exists.mp h
  obtain ⟨letter, hrif, -, hlength, hbody, hcheck⟩ := Rif.parts_eq_some hparts
  have hblank : check ≠ ' ' := by
    rintro rfl
    revert hcheck
    decide
  have hne : trimBlanks rif ≠ "" := by
    intro hempty
    have hlist : ((rif.toList.dropWhile (· = ' ')).reverse.dropWhile (· = ' ')).reverse = [] := by
      rw [← String.toList_ofList (l := ((rif.toList.dropWhile (· = ' ')).reverse.dropWhile (· = ' ')).reverse)]
      rw [show String.ofList _ = "" from hempty]
      rfl
    have hall : ∀ c ∈ rif.toList.dropWhile (· = ' '), c = ' ' := by
      have hnil := List.dropWhile_eq_nil_iff.mp (List.reverse_eq_nil_iff.mp hlist)
      intro c hc
      simpa using hnil c (List.mem_reverse.mpr hc)
    have hmem : check ∈ rif.toList.dropWhile (· = ' ') := by
      have hcheck : check ∈ rif.toList := by simp [hrif]
      rw [← List.takeWhile_append_dropWhile (p := (· = ' ')) (l := rif.toList)] at hcheck
      rcases List.mem_append.mp hcheck with hcheck | hcheck
      · exact absurd (by simpa using List.mem_takeWhile_imp hcheck) hblank
      · exact hcheck
    exact hblank (hall check hmem)
  simp [Restaurant.issuerRif, Restaurant.number, Option.filter, hne]

section Statements

variable {s s' : TenantDb} {t t' u : TenantPhase} {us : List TenantPhase} {answer : List TenantEvent}

/-- What a statement commits and answers. -/
inductive TenantDoes (s s' : TenantDb) (us : List TenantPhase) (t : TenantPhase) : List TenantEvent → Prop where
  | quiet (answer : List TenantEvent) : s'.restaurants = s.restaurants → s'.docs = s.docs →
      s'.audit = s.audit → (∀ e ∈ answer, e.Idle ∧ s' = s) → answer.length ≤ 1 →
      TenantDoes s s' us t answer
  | registered (id : Uuid) (rif : Option String) (trialEndsAt : Time) (restaurants : Table Restaurant) :
      ¬Held.taken TenantPhase.keys TenantKey.clash us (rif.toList.map .rif) = true →
      (∀ r ∈ s.restaurants, ∀ number, rif = some number → r.rif ≠ some number) →
      s.restaurants.insert? ⟨id, rif, .trial, some trialEndsAt⟩ = some restaurants →
      s' = { s with restaurants } → TenantDoes s s' us t [.registered id]
  | changed (c : PlanChange) (tier : PlanTier) (before : Restaurant) (breaking : List (Capability × String))
      (started : Time) : t = .logging c tier before breaking started →
      s' = s.replanned c tier before breaking started →
      TenantDoes s s' us t [.changed (c.entry tier before breaking)]
  | numbered (rif : String) (before : Restaurant) : t = .numbered rif before →
      s' = { s with
        restaurants := s.restaurants.update before.id (Restaurant.number rif) (Restaurant.number_key rif) } →
      TenantDoes s s' us t [.numbered before.id rif before.issuerRif]
  | issued (restaurantId docId : Uuid) (docs : Table Document) : t = .inserted restaurantId docId →
      s.docs.insert? ⟨docId, restaurantId⟩ = some docs → s' = { s with docs } →
      TenantDoes s s' us t [.issued ⟨docId, restaurantId⟩]

/-- Where a statement leaves its call: nothing is committed, and nobody excludes what it holds. -/
structure TenantGoes (s s' : TenantDb) (us : List TenantPhase) (t t' : TenantPhase)
    (answer : List TenantEvent) : Prop where
  same : s' = s
  silent : answer = []
  sound : t.Sound s → t'.Sound s
  keys : ∃ wanted, ¬Held.taken TenantPhase.keys TenantKey.clash us wanted = true ∧
    ∀ k ∈ t'.keys, k ∈ t.keys ∨ k ∈ wanted

/-- A statement that takes nothing. -/
theorem TenantGoes.of_keys (hsound : t.Sound s → t'.Sound s) (hkeys : ∀ k ∈ t'.keys, k ∈ t.keys) :
    TenantGoes s s us t t' [] :=
  ⟨rfl, rfl, hsound, [], Held.not_taken_nil, fun k hk => .inl (hkeys k hk)⟩

theorem next_goes_tenant (h : t.next s us = .goes s' t' answer) : TenantGoes s s' us t t' answer := by
  cases t with
  | begun call =>
    cases call with
    | change c =>
      unfold TenantPhase.next at h
      dsimp only at h
      split at h <;> cases h
      exact .of_keys (fun _ => trivial) (by simp [TenantPhase.keys])
    | writeRif restaurantId input =>
      unfold TenantPhase.next at h
      dsimp only at h
      split at h
      · cases h
      · rename_i rif hparse
        cases h
        refine .of_keys (fun _ => ?_) (by simp [TenantPhase.keys])
        unfold parseRif at hparse
        split at hparse
        · rename_i hshape
          cases hparse
          change Rif.hasRifShape (String.ofList _).toList = true
          rw [String.toList_ofList]
          exact hshape
        · cases hparse
    | issue restaurantId docId =>
      unfold TenantPhase.next at h
      dsimp only at h
      split at h
      · cases h
      · split at h <;> cases h
        exact .of_keys (fun _ => trivial) (by simp [TenantPhase.keys])
    | register id rif trialEndsAt =>
      unfold TenantPhase.next at h
      dsimp only at h
      split at h
      · cases h
      · split at h
        · cases h
        · split at h <;> cases h
    | elapse ms => cases h
  | lockPlan c tier started =>
    unfold TenantPhase.next at h
    dsimp only at h
    split at h
    · cases h
    · rename_i hfree
      split at h
      · cases h
      · rename_i before hfind
        cases h
        have hid : before.id = c.restaurantId := Table.find?_key hfind
        rw [← hid] at hfind
        refine ⟨rfl, rfl, fun _ => hfind, _, hfree, fun k hk => .inr ?_⟩
        simpa [TenantPhase.keys, hid] using hk
  | counting c tier before started =>
    unfold TenantPhase.next at h
    dsimp only at h
    split at h
    · cases h
    · rename_i hforce
      cases h
      refine .of_keys (fun hfind => ⟨hfind, rfl, fun hne => ?_⟩) fun k hk => hk
      by_contra hnot
      exact hforce ⟨hne, by simpa using hnot⟩
  | replanning c tier before breaking started =>
    cases h
    exact .of_keys id fun k hk => hk
  | logging c tier before breaking started => cases h
  | lockIssuer restaurantId rif =>
    unfold TenantPhase.next at h
    dsimp only at h
    split at h
    · cases h
    · rename_i hfree
      split at h
      · cases h
      · rename_i before hfind
        split at h
        · cases h
        · cases h
          have hid : before.id = restaurantId := Table.find?_key hfind
          refine ⟨rfl, rfl, fun hshaped => ⟨hshaped, hid ▸ hfind⟩, _, hfree, fun k hk => .inr ?_⟩
          simpa [TenantPhase.keys, hid] using hk
  | readIssued rif before =>
    unfold TenantPhase.next at h
    dsimp only at h
    split at h
    · cases h
    · rename_i hnone
      cases h
      exact .of_keys (fun hsound => ⟨hsound.1, hsound.2, by simpa using hnone⟩) fun k hk => hk
  | numbering rif before =>
    unfold TenantPhase.next at h
    dsimp only at h
    split at h
    · cases h
    · rename_i hfree
      split at h
      · cases h
      · rename_i hother
        cases h
        refine ⟨rfl, rfl, fun hsound => ⟨hsound.1, hsound.2.1, hsound.2.2, fun r hr hrif => ?_⟩, _, hfree,
          fun k hk => ?_⟩
        · by_contra hne
          exact hother (List.any_eq_true.mpr ⟨r, hr, by simp [hne, hrif]⟩)
        · simpa [TenantPhase.keys] using hk
  | numbered rif before => cases h
  | readIssuer restaurantId docId =>
    unfold TenantPhase.next at h
    dsimp only at h
    split at h
    · cases h
    · rename_i r hfind
      split at h
      · cases h
      · rename_i hissuer
        cases h
        exact .of_keys (fun _ => ⟨r, hfind, Option.isSome_iff_ne_none.mpr hissuer⟩) (by simp [TenantPhase.keys])
  | prepared restaurantId docId =>
    unfold TenantPhase.next at h
    dsimp only at h
    split at h
    · cases h
    · rename_i hfree
      split at h <;> cases h
      exact ⟨rfl, rfl, id, _, hfree, fun k hk => .inr hk⟩
  | inserted restaurantId docId =>
    unfold TenantPhase.next at h
    dsimp only at h
    split at h <;> cases h

theorem TenantDoes.idle {e : TenantEvent} (he : e.Idle) : TenantDoes s s us t [e] :=
  .quiet _ rfl rfl rfl (fun e' he' => by
    obtain rfl := List.mem_singleton.mp he'
    exact ⟨he, rfl⟩) le_rfl

theorem next_ends_tenant (h : t.next s us = .ends s' answer) : TenantDoes s s' us t answer := by
  cases t with
  | begun call =>
    cases call with
    | change c =>
      unfold TenantPhase.next at h
      dsimp only at h
      split at h <;> cases h
      exact .idle trivial
    | writeRif restaurantId input =>
      unfold TenantPhase.next at h
      dsimp only at h
      split at h <;> cases h
      exact .idle trivial
    | issue restaurantId docId =>
      unfold TenantPhase.next at h
      dsimp only at h
      split at h
      · cases h
        exact .idle trivial
      · split at h <;> cases h
        exact .idle trivial
    | register id rif trialEndsAt =>
      unfold TenantPhase.next at h
      dsimp only at h
      split at h
      · cases h
      · rename_i hfree
        split at h
        · cases h
          exact .idle trivial
        · rename_i hother
          split at h
          · cases h
            exact .idle trivial
          · rename_i restaurants hins
            cases h
            refine .registered id rif trialEndsAt restaurants hfree (fun r hr number hnumber hrif => ?_) hins rfl
            exact hother (List.any_eq_true.mpr ⟨r, hr, by simp [hnumber, hrif]⟩)
    | elapse ms =>
      cases h
      exact .quiet _ rfl rfl rfl (fun e he => absurd he List.not_mem_nil) Nat.one_pos.le
  | lockPlan c tier started =>
    unfold TenantPhase.next at h
    dsimp only at h
    split at h
    · cases h
    · split at h <;> cases h
      exact .idle trivial
  | counting c tier before started =>
    unfold TenantPhase.next at h
    dsimp only at h
    split at h <;> cases h
    exact .idle trivial
  | replanning c tier before breaking started => cases h
  | logging c tier before breaking started =>
    cases h
    exact .changed c tier before breaking started rfl rfl
  | lockIssuer restaurantId rif =>
    unfold TenantPhase.next at h
    dsimp only at h
    split at h
    · cases h
    · split at h
      · cases h
        exact .idle trivial
      · split at h <;> cases h
        exact .idle trivial
  | readIssued rif before =>
    unfold TenantPhase.next at h
    dsimp only at h
    split at h <;> cases h
    exact .idle trivial
  | numbering rif before =>
    unfold TenantPhase.next at h
    dsimp only at h
    split at h
    · cases h
    · split at h <;> cases h
      exact .idle trivial
  | numbered rif before =>
    cases h
    exact .numbered rif before rfl rfl
  | readIssuer restaurantId docId =>
    unfold TenantPhase.next at h
    dsimp only at h
    split at h
    · cases h
      exact .idle trivial
    · split at h <;> cases h
      exact .idle trivial
  | prepared restaurantId docId =>
    unfold TenantPhase.next at h
    dsimp only at h
    split at h
    · cases h
    · split at h <;> cases h
      exact .idle trivial
  | inserted restaurantId docId =>
    unfold TenantPhase.next at h
    dsimp only at h
    split at h
    · cases h
      exact .idle trivial
    · rename_i docs hins
      cases h
      exact .issued restaurantId docId docs rfl hins rfl

/-- What a statement leaves to the calls whose keys it does not exclude. -/
structure Frame (s s' : TenantDb) (ks : List TenantKey) : Prop where
  restaurant : ∀ r, (∀ k ∈ ks, k.clash (.update r.id) = false) → s.restaurants.find? r.id = some r →
    s'.restaurants.find? r.id = some r
  docs : ∀ id, (∀ k ∈ ks, k.clash (.update id) = false) → s'.issuedBy id = s.issuedBy id
  rif : ∀ number id, (∀ k ∈ ks, k.clash (.rif number) = false) →
    (∀ r ∈ s.restaurants, r.rif = some number → r.id = id) → ∀ r ∈ s'.restaurants, r.rif = some number → r.id = id
  issuer : ∀ id, s.HasIssuer id → s'.HasIssuer id

theorem breaking_congr (h : s'.issuedBy restaurantId = s.issuedBy restaurantId) (lost : List Capability) :
    s'.breaking restaurantId lost = s.breaking restaurantId lost := by
  simp only [TenantDb.breaking, h]

/-- A row of one restaurant is rewritten. -/
theorem hasIssuer_update {id : Uuid} {f : Restaurant → Restaurant} (hf : ∀ r, Keyed.key (f r) = Keyed.key r)
    (hissuer : ∀ r, r.issuerRif.isSome = true → (f r).issuerRif.isSome = true) {restaurantId : Uuid}
    (h : s.HasIssuer restaurantId) :
    ({ s with restaurants := s.restaurants.update id f hf } : TenantDb).HasIssuer restaurantId := by
  obtain ⟨r, hfind, hr⟩ := h
  refine ⟨if restaurantId = id then f r else r, ?_, ?_⟩
  · change (s.restaurants.update id f hf).find? restaurantId = _
    rw [Table.find?_update_with f hf restaurantId, hfind]
    split <;> rfl
  · split
    · exact hissuer r hr
    · exact hr

theorem TenantDoes.frame (h : TenantDoes s s' us t answer) (ht : t.Sound s) :
    ∃ ks, Frame s s' ks ∧ ∀ u ∈ us, Held.Apart TenantPhase.keys TenantKey.clash t u →
      ∀ k ∈ ks, ∀ k' ∈ u.keys, k.clash k' = false := by
  cases h with
  | quiet _ hrestaurants hdocs =>
    refine ⟨[],
      ⟨fun r _ hr => hrestaurants ▸ hr, fun id _ => ?_, fun number id _ hnone => ?_, fun id hid => ?_⟩,
      fun _ _ _ k hk => absurd hk List.not_mem_nil⟩
    · simp only [TenantDb.issuedBy, hdocs]
    · exact hrestaurants ▸ hnone
    · unfold TenantDb.HasIssuer
      rw [hrestaurants]
      exact hid
  | registered id rif trialEndsAt restaurants hfree hnew hins hs' =>
    subst hs'
    have hkeep : ∀ id' r, s.restaurants.find? id' = some r → restaurants.find? id' = some r := by
      intro id' r hr
      rw [Table.find?_insert? hins, if_neg, hr]
      rintro rfl
      exact (Table.insert?_eq_some.mp hins).1 r (Table.find?_mem hr) (Table.find?_key hr)
    refine ⟨rif.toList.map .rif, ⟨fun r _ hr => hkeep _ r hr, fun _ _ => rfl, ?_, ?_⟩,
      fun u hu _ k hk k' hk' => Held.not_taken hfree hu hk hk'⟩
    · intro number id' hks hnone r hr hrif
      rcases (Table.mem_insert? hins).mp hr with hr | rfl
      · exact hnone r hr hrif
      · have hclash := hks (.rif number) (by simpa using hrif)
        simp [TenantKey.clash] at hclash
    · rintro id' ⟨r, hr, hissuer⟩
      exact ⟨r, hkeep _ r hr, hissuer⟩
  | changed c tier before breaking started hphase hs' =>
    subst hphase hs'
    have hkey := Restaurant.replan_key tier c.trialDays started
    refine ⟨[.update before.id], ⟨fun r hks hr => ?_, fun _ _ => rfl, fun number id _ hnone r hr hrif => ?_,
      fun id hid => hasIssuer_update hkey (fun _ h => h) hid⟩, fun u hu hapart k hk => hapart k hk⟩
    · have hne : ¬before.id = r.id := by simpa [TenantKey.clash] using hks _ List.mem_cons_self
      change (s.restaurants.update before.id _ hkey).find? r.id = some r
      rw [Table.find?_update, if_neg (Ne.symm hne), hr]
    · have hr : r ∈ s.restaurants.update before.id (Restaurant.replan tier c.trialDays started) hkey := hr
      obtain ⟨r₀, hr₀, rfl⟩ := Table.mem_update.mp hr
      by_cases hid : Keyed.key r₀ = before.id
      · rw [if_pos hid] at hrif ⊢
        exact hnone r₀ hr₀ hrif
      · rw [if_neg hid] at hrif ⊢
        exact hnone r₀ hr₀ hrif
  | numbered rif before hphase hs' =>
    subst hphase hs'
    have hkey := Restaurant.number_key rif
    refine ⟨[.update before.id, .rif rif],
      ⟨fun r hks hr => ?_, fun _ _ => rfl, fun number id hks hnone r hr hrif => ?_,
      fun id hid => hasIssuer_update hkey (fun r _ => Shaped.issuerRif ht.1 r) hid⟩,
      fun u hu hapart k hk => hapart k hk⟩
    · have hne : ¬before.id = r.id := by simpa [TenantKey.clash] using hks _ List.mem_cons_self
      change (s.restaurants.update before.id _ hkey).find? r.id = some r
      rw [Table.find?_update, if_neg (Ne.symm hne), hr]
    · have hr : r ∈ s.restaurants.update before.id (Restaurant.number rif) hkey := hr
      have hne : ¬rif = number := by
        simpa [TenantKey.clash] using hks _ (List.mem_cons_of_mem _ List.mem_cons_self)
      obtain ⟨r₀, hr₀, rfl⟩ := Table.mem_update.mp hr
      by_cases hid : Keyed.key r₀ = before.id
      · rw [if_pos hid] at hrif
        exact absurd (Option.some.inj hrif) hne
      · rw [if_neg hid] at hrif ⊢
        exact hnone r₀ hr₀ hrif
  | issued restaurantId docId docs hphase hins hs' =>
    subst hphase hs'
    refine ⟨[.keyShare restaurantId], ⟨fun _ _ h => h, fun id hks => ?_, fun _ _ _ h => h, fun _ h => h⟩,
      fun u hu hapart k hk => hapart k hk⟩
    have hne : ¬restaurantId = id := by simpa [TenantKey.clash] using hks _ List.mem_cons_self
    simp only [TenantDb.issuedBy, (Table.insert?_eq_some.mp hins).2, List.filter_append]
    rw [List.filter_cons_of_neg (by simpa using hne), List.filter_nil, List.append_nil]

/-- What a call knows no statement beside it takes away. -/
theorem TenantPhase.Sound.frame {ks : List TenantKey} (hu : u.Sound s) (hframe : Frame s s' ks)
    (hks : ∀ k ∈ ks, ∀ k' ∈ u.keys, k.clash k' = false) : u.Sound s' := by
  have hfree : ∀ k' ∈ u.keys, ∀ k ∈ ks, k.clash k' = false := fun k' hk' k hk => hks k hk k' hk'
  cases u with
  | counting c tier before started => exact hframe.restaurant before (hfree _ List.mem_cons_self) hu
  | replanning c tier before breaking started | logging c tier before breaking started =>
    have hrow := hfree _ List.mem_cons_self
    obtain ⟨hfind, hbreaking, hforce⟩ := hu
    exact ⟨hframe.restaurant before hrow hfind, by rw [breaking_congr (hframe.docs _ hrow), hbreaking], hforce⟩
  | readIssued rif before => exact ⟨hu.1, hframe.restaurant before (hfree _ List.mem_cons_self) hu.2⟩
  | numbering rif before =>
    have hrow := hfree _ List.mem_cons_self
    exact ⟨hu.1, hframe.restaurant before hrow hu.2.1, (hframe.docs _ hrow).trans hu.2.2⟩
  | numbered rif before =>
    have hrow := hfree _ List.mem_cons_self
    have hrif := hfree _ (List.mem_cons_of_mem _ List.mem_cons_self)
    exact ⟨hu.1, hframe.restaurant before hrow hu.2.1, (hframe.docs _ hrow).trans hu.2.2.1,
      hframe.rif _ _ hrif hu.2.2.2⟩
  | prepared restaurantId docId | inserted restaurantId docId => exact hframe.issuer _ hu
  | lockIssuer restaurantId rif => exact hu
  | _ => trivial

theorem planHistory_append (entry : PlanChanged) (id : Uuid) (h : s'.audit = s.audit ++ [entry]) :
    s'.planHistory id =
      s.planHistory id ++ if entry.restaurantId = id then [(some entry.before, entry.after)] else [] := by
  unfold TenantDb.planHistory
  rw [h, List.filter_append, List.map_append]
  by_cases hid : entry.restaurantId = id
  · simp [hid]
  · simp [hid]

/-- Statements keep the state sound. -/
theorem TenantDoes.keeps (h : TenantDoes s s' us t answer) (hs : s.Sound) (ht : t.Sound s) : s'.Sound := by
  obtain ⟨ks, hframe, -⟩ := h.frame ht
  cases h with
  | quiet _ hrestaurants hdocs haudit =>
    have hhistory : ∀ id, s'.planHistory id = s.planHistory id := fun id => by
      simp only [TenantDb.planHistory, haudit]
    refine ⟨hrestaurants ▸ hs.rif, fun d hd => hframe.issuer _ (hs.issuer d (hdocs ▸ hd)),
      hrestaurants ▸ hs.trial,
      fun r hr => ?_, ?_⟩
    · rw [hhistory]
      exact hs.history r (hrestaurants ▸ hr)
    · rw [haudit, hrestaurants]
      exact hs.known
  | registered id rif trialEndsAt restaurants _ hnew hins hs' =>
    subst hs'
    have hfresh := (Table.insert?_eq_some.mp hins).1
    refine ⟨hs.rif.insert hins fun number hnumber r hr => hnew r hr number hnumber,
      fun d hd => hframe.issuer _ (hs.issuer d hd), fun r hr => ?_, fun r hr => ?_, fun e he => ?_⟩
    · rcases (Table.mem_insert? hins).mp hr with hr | rfl
      · exact hs.trial r hr
      · exact fun hne => absurd rfl hne
    · rcases (Table.mem_insert? hins).mp hr with hr | rfl
      · exact hs.history r hr
      · -- Nothing has been written of a restaurant that was not there.
        have hnone : s.audit.filter (fun e => e.restaurantId = id) = [] := by
          rw [List.filter_eq_nil_iff]
          intro e he heq
          obtain ⟨r, hr, hid⟩ := hs.known e he
          exact hfresh r hr (hid.trans (of_decide_eq_true heq))
        simp only [TenantDb.planHistory, hnone, List.map_nil]
        exact .begin rfl
    · obtain ⟨r, hr, hid⟩ := hs.known e he
      exact ⟨r, (Table.mem_insert? hins).mpr (.inl hr), hid⟩
  | changed c tier before breaking started hphase hs' =>
    subst hphase hs'
    obtain ⟨hfind, -, -⟩ := ht
    have hkey := Restaurant.replan_key tier c.trialDays started
    have hrows : ∀ r, r ∈ (s.replanned c tier before breaking started).restaurants ↔
        r = before.replan tier c.trialDays started ∨ r ∈ s.restaurants ∧ r.id ≠ before.id := fun r =>
      Table.mem_update_of_find _ hkey hfind
    refine ⟨hs.rif.update hkey fun _ => rfl, fun d hd => hframe.issuer _ (hs.issuer d hd), fun r hr hne => ?_,
      fun r hr => ?_, fun e he => ?_⟩
    · rcases (hrows r).mp hr with rfl | ⟨hr, -⟩
      · exact if_pos hne
      · exact hs.trial r hr hne
    · rw [planHistory_append (s := s) (c.entry tier before breaking) r.id rfl]
      rcases (hrows r).mp hr with rfl | ⟨hr, hid⟩
      · rw [if_pos (show (c.entry tier before breaking).restaurantId =
          (before.replan tier c.trialDays started).id from rfl)]
        exact .change (hs.history before (Table.find?_mem hfind)) trivial
      · rw [if_neg (show ¬(c.entry tier before breaking).restaurantId = r.id from Ne.symm hid), List.append_nil]
        exact hs.history r hr
    · have hstays : ∀ r ∈ s.restaurants, ∃ r' ∈ (s.replanned c tier before breaking started).restaurants,
          r'.id = r.id := by
        intro r hr
        by_cases hid : r.id = before.id
        · exact ⟨_, (hrows _).mpr (.inl rfl), hid.symm⟩
        · exact ⟨r, (hrows r).mpr (.inr ⟨hr, hid⟩), rfl⟩
      rcases List.mem_append.mp he with he | he
      · obtain ⟨r, hr, hid⟩ := hs.known e he
        obtain ⟨r', hr', hid'⟩ := hstays r hr
        exact ⟨r', hr', hid'.trans hid⟩
      · obtain rfl := List.mem_singleton.mp he
        exact hstays before (Table.find?_mem hfind)
  | numbered rif before hphase hs' =>
    subst hphase hs'
    obtain ⟨-, hfind, -, hother⟩ := ht
    have hkey := Restaurant.number_key rif
    have hrows : ∀ r, r ∈ s.restaurants.update before.id (Restaurant.number rif) hkey ↔
        r = before.number rif ∨ r ∈ s.restaurants ∧ r.id ≠ before.id := fun r =>
      Table.mem_update_of_find _ hkey hfind
    refine ⟨hs.rif.rekey hkey fun r _ _ number hnumber r' hr' hrif => ?_,
      fun d hd => hframe.issuer _ (hs.issuer d hd), fun r hr => ?_, fun r hr => ?_, fun e he => ?_⟩
    · obtain rfl := Option.some.inj hnumber
      exact hother r' hr' hrif
    · rcases (hrows r).mp hr with rfl | ⟨hr, -⟩
      · exact hs.trial before (Table.find?_mem hfind)
      · exact hs.trial r hr
    · rcases (hrows r).mp hr with rfl | ⟨hr, -⟩
      · exact hs.history before (Table.find?_mem hfind)
      · exact hs.history r hr
    · obtain ⟨r, hr, hid⟩ := hs.known e he
      by_cases hsame : r.id = before.id
      · exact ⟨_, (hrows _).mpr (.inl rfl), hsame.symm.trans hid⟩
      · exact ⟨r, (hrows r).mpr (.inr ⟨hr, hsame⟩), hid⟩
  | issued restaurantId docId docs hphase hins hs' =>
    subst hphase hs'
    refine ⟨hs.rif, fun d hd => ?_, hs.trial, hs.history, hs.known⟩
    rcases (Table.mem_insert? hins).mp hd with hd | rfl
    · exact hs.issuer d hd
    · exact ht

/-- Statements keep the state sound, what the calls know, and that no two of them exclude each other. -/
theorem tenantRule : tenancy.Rule (fun _ => True) (fun _ _ _ => True) TenantDb.Sound (fun s t => t.Sound s)
    (Held.Apart TenantPhase.keys TenantKey.clash) where
  symm _ _ h := h.symm TenantKey.clash_symm
  start _ _ _ _ := ⟨trivial, fun _ _ _ hk => absurd hk List.not_mem_nil⟩
  goes s us t hs ht hus _ s' t' answer hnext := by
    obtain ⟨rfl, -, hsound, wanted, hfree, hkeys⟩ := next_goes_tenant hnext
    exact ⟨hs, hsound ht, fun u hu => ⟨(hus u hu).1, (hus u hu).2.take hfree hkeys hu⟩⟩
  ends s us t hs ht hus _ s' answer hnext := by
    have hdoes := next_ends_tenant hnext
    obtain ⟨ks, hframe, hks⟩ := hdoes.frame ht
    exact ⟨hdoes.keeps hs ht, fun u hu => (hus u hu).1.frame hframe (hks u hu (hus u hu).2)⟩

/-- What holds of the calls at every moment. -/
abbrev Tended (w : Sessions TenantDb TenantPhase) : Prop :=
  Protocol.Holds TenantDb.Sound (fun s t => t.Sound s) (Held.Apart TenantPhase.keys TenantKey.clash) w

/-- What any move does is what some statement does. -/
theorem tenant_move {w : Sessions TenantDb TenantPhase} (hw : Tended w) (m : Move TenantCall) :
    ∃ us t, t.Sound w.committed ∧
      TenantDoes w.committed (tenancy.machine.step w m).1.committed us t (tenancy.machine.step w m).2 := by
  have hquiet : ∀ us t, TenantDoes w.committed w.committed us t [] := fun us t =>
    .quiet _ rfl rfl rfl (fun e he => absurd he List.not_mem_nil) Nat.one_pos.le
  rcases Protocol.move_cases (p := tenancy) w m with
    ⟨r, hfind, -, hcommitted, hanswer⟩ | ⟨hcommitted, hanswer, -⟩
  · rw [hcommitted, hanswer]
    refine ⟨w.others r.id, r.state, hw.session r (Table.find?_mem hfind), ?_⟩
    cases hnext : tenancy.next w.committed (w.others r.id) r.state with
    | waits => exact hquiet _ _
    | goes s' t' answer =>
      obtain ⟨rfl, rfl, -, -⟩ := next_goes_tenant hnext
      exact hquiet _ _
    | ends s' answer => exact next_ends_tenant hnext
  · rw [hcommitted, hanswer]
    exact ⟨[], .begun (.elapse 0), trivial, hquiet _ _⟩

end Statements

/-! ## Runs -/

section Runs

variable {s s' : TenantDb} {t : TenantPhase} {us : List TenantPhase} {answer : List TenantEvent}
  {w : Sessions TenantDb TenantPhase}

/-- A restaurant stays, with another number or plan where a call has said so. -/
theorem TenantDoes.stays (h : TenantDoes s s' us t answer) (ht : t.Sound s) {r : Restaurant}
    (hr : r ∈ s.restaurants) : ∃ r' ∈ s'.restaurants, r'.id = r.id ∧
      (r'.rif = r.rif ∨ s.issuedBy r.id = []) ∧
      (r'.planTier = r.planTier ∨ ∃ entry, .changed entry ∈ answer ∧ entry.restaurantId = r.id ∧
        entry.before = r.planTier ∧ entry.after = r'.planTier) := by
  have hsame : r ∈ s'.restaurants → ∃ r' ∈ s'.restaurants, r'.id = r.id ∧
      (r'.rif = r.rif ∨ s.issuedBy r.id = []) ∧
      (r'.planTier = r.planTier ∨ ∃ entry, .changed entry ∈ answer ∧ entry.restaurantId = r.id ∧
        entry.before = r.planTier ∧ entry.after = r'.planTier) := fun hr' => ⟨r, hr', rfl, .inl rfl, .inl rfl⟩
  cases h with
  | quiet _ hrestaurants => exact hsame (hrestaurants ▸ hr)
  | registered id rif trialEndsAt restaurants _ _ hins hs' =>
    subst hs'
    exact hsame ((Table.mem_insert? hins).mpr (.inl hr))
  | changed c tier before breaking started hphase hs' =>
    subst hphase hs'
    have hrows := fun r' => Table.mem_update_of_find (r := r') (Restaurant.replan tier c.trialDays started)
      (Restaurant.replan_key tier c.trialDays started) ht.1
    by_cases hid : r.id = before.id
    · obtain rfl : r = before := Table.eq_of_key hr (Table.find?_mem ht.1) hid
      exact ⟨_, (hrows _).mpr (.inl rfl), rfl, .inl rfl, .inr ⟨_, List.mem_singleton.mpr rfl, rfl, rfl, rfl⟩⟩
    · exact hsame ((hrows r).mpr (.inr ⟨hr, hid⟩))
  | numbered rif before hphase hs' =>
    subst hphase hs'
    have hrows := fun r' => Table.mem_update_of_find (r := r') (Restaurant.number rif)
      (Restaurant.number_key rif) ht.2.1
    by_cases hid : r.id = before.id
    · obtain rfl : r = before := Table.eq_of_key hr (Table.find?_mem ht.2.1) hid
      exact ⟨_, (hrows _).mpr (.inl rfl), rfl, .inr ht.2.2.1, .inl rfl⟩
    · exact hsame ((hrows r).mpr (.inr ⟨hr, hid⟩))
  | issued restaurantId docId docs _ _ hs' =>
    subst hs'
    exact hsame hr

/-- Only `fiscalInvoicing` is counted, and it is refused without a plan. -/
theorem breaking_ne_nil {restaurantId : Uuid} {lost : List Capability} (hlost : .fiscalInvoicing ∈ lost)
    (hissued : s.issuedBy restaurantId ≠ []) : s.breaking restaurantId lost ≠ [] := by
  intro hnil
  have hpos : 0 < (s.issuedBy restaurantId).length := List.length_pos_iff.mpr hissued
  have hnone := List.filterMap_eq_nil_iff.mp hnil _ hlost
  simp [ENFORCED, USAGE, hpos] at hnone

/-- The tax numbers stay unique; a restaurant that has issued a document has one, and keeps it; and a document
is issued for a restaurant that has one. -/
structure Frozen (w : Sessions TenantDb TenantPhase) (m : Move TenantCall) : Prop where
  unique : (tenancy.machine.step w m).1.committed.restaurants.UniqueOn Restaurant.rif
  kept : ∀ d ∈ w.committed.docs, ∃ r ∈ w.committed.restaurants, r.id = d.restaurantId ∧
    r.issuerRif.isSome = true ∧
    ∃ r' ∈ (tenancy.machine.step w m).1.committed.restaurants, r'.id = r.id ∧ r'.rif = r.rif
  issued : ∀ doc, .issued doc ∈ (tenancy.machine.step w m).2 →
    (tenancy.machine.step w m).1.committed.HasIssuer doc.restaurantId

/-- The audit rows of every restaurant lead from the trial to its plan, and only a trial ends. A restaurant
gets another plan with an audit row that says from which one; and none that takes away the documents it has
issued, unless that was forced. -/
structure Trailed (w : Sessions TenantDb TenantPhase) (m : Move TenantCall) : Prop where
  history : ∀ r ∈ (tenancy.machine.step w m).1.committed.restaurants,
    Replays (fun tier => tier = .trial) (fun _ _ => True)
      ((tenancy.machine.step w m).1.committed.planHistory r.id) r.planTier
  trial : ∀ r ∈ (tenancy.machine.step w m).1.committed.restaurants, r.planTier ≠ .trial → r.trialEndsAt = none
  moved : ∀ r ∈ w.committed.restaurants, ∃ r' ∈ (tenancy.machine.step w m).1.committed.restaurants,
    r'.id = r.id ∧ (r'.planTier = r.planTier ∨ ∃ entry, .changed entry ∈ (tenancy.machine.step w m).2 ∧
      entry.restaurantId = r.id ∧ entry.before = r.planTier ∧ entry.after = r'.planTier)
  forced : ∀ entry, .changed entry ∈ (tenancy.machine.step w m).2 →
    entry ∈ (tenancy.machine.step w m).1.committed.audit ∧
      (.fiscalInvoicing ∈ entry.lost → w.committed.issuedBy entry.restaurantId ≠ [] → entry.forced = true)
  appended : w.committed.audit <+: (tenancy.machine.step w m).1.committed.audit

theorem frozen (hw : Tended w) (m : Move TenantCall) : Frozen w m := by
  obtain ⟨us, t, ht, hdoes⟩ := tenant_move hw m
  have hkeeps := hdoes.keeps hw.committed ht
  refine ⟨hkeeps.rif, fun d hd => ?_, fun doc hdoc => ?_⟩
  · obtain ⟨r, hfind, hissuer⟩ := hw.committed.issuer d hd
    obtain ⟨r', hr', hid, hrif | hnone, -⟩ := hdoes.stays ht (Table.find?_mem hfind)
    · exact ⟨r, Table.find?_mem hfind, Table.find?_key hfind, hissuer, r', hr', hid, hrif⟩
    · have hd' : d ∈ w.committed.issuedBy r.id :=
        List.mem_filter.mpr ⟨hd, decide_eq_true (Table.find?_key hfind : r.id = d.restaurantId).symm⟩
      rw [hnone] at hd'
      cases hd'
  · generalize (tenancy.machine.step w m).2 = answer at hdoes hdoc
    generalize (tenancy.machine.step w m).1.committed = s' at hdoes hkeeps
    cases hdoes with
    | quiet _ _ _ _ hidle => exact (hidle _ hdoc).1.elim
    | issued restaurantId docId docs _ hins hs' =>
      cases List.mem_singleton.mp hdoc
      subst hs'
      exact hkeeps.issuer _ ((Table.mem_insert? hins).mpr (.inr rfl))
    | _ => cases List.mem_singleton.mp hdoc

theorem TenantDoes.forced (h : TenantDoes s s' us t answer) (ht : t.Sound s) {entry : PlanChanged}
    (hentry : .changed entry ∈ answer) : entry ∈ s'.audit ∧
      (.fiscalInvoicing ∈ entry.lost → s.issuedBy entry.restaurantId ≠ [] → entry.forced = true) := by
  cases h with
  | quiet _ _ _ _ hidle => exact (hidle _ hentry).1.elim
  | changed c tier before breaking started hphase hs' =>
    cases List.mem_singleton.mp hentry
    subst hphase hs'
    obtain ⟨-, rfl, -⟩ := ht
    refine ⟨List.mem_append_right _ (List.mem_singleton.mpr rfl), fun hlost hissued => ?_⟩
    simpa [PlanChange.entry] using breaking_ne_nil hlost hissued
  | _ => cases List.mem_singleton.mp hentry

theorem TenantDoes.appended (h : TenantDoes s s' us t answer) : s.audit <+: s'.audit := by
  cases h with
  | quiet _ _ _ haudit => exact haudit ▸ List.prefix_rfl
  | changed c tier before breaking started _ hs' =>
    subst hs'
    exact List.prefix_append _ _
  | registered _ _ _ _ _ _ _ hs' | numbered _ _ _ hs' | issued _ _ _ _ _ hs' =>
    subst hs'
    exact List.prefix_rfl

theorem trailed (hw : Tended w) (m : Move TenantCall) : Trailed w m := by
  obtain ⟨us, t, ht, hdoes⟩ := tenant_move hw m
  have hkeeps := hdoes.keeps hw.committed ht
  refine ⟨hkeeps.history, hkeeps.trial, fun r hr => ?_, fun entry hentry => hdoes.forced ht hentry,
    hdoes.appended⟩
  obtain ⟨r', hr', hid, -, hplan⟩ := hdoes.stays ht hr
  exact ⟨r', hr', hid, hplan⟩

/-- A call commits with its last statement, and not when it is refused. -/
theorem tenancy_hushed : tenancy.Hushed (fun _ => False) TenantEvent.IsRefused where
  quiet s us t s' t' answer hnext := .inl (next_goes_tenant hnext).same
  keeps _ _ _ _ _ _ h := h.elim
  refused s us t := by
    rintro ⟨e, he, hrefused⟩
    refine ⟨?_, id⟩
    cases hnext : tenancy.next s us t with
    | waits => rfl
    | goes s' t' answer => exact (next_goes_tenant hnext).same
    | ends s' answer =>
      rw [hnext] at he
      have hdoes := next_ends_tenant hnext
      change s' = s
      change e ∈ answer at he
      cases hdoes with
      | quiet _ _ _ _ hidle => exact (hidle e he).2
      | registered | changed | numbered | issued =>
        obtain rfl := List.mem_singleton.mp he
        cases hrefused

theorem tenancy_every {P : Sessions TenantDb TenantPhase → Move TenantCall → Prop}
    (hP : ∀ {w}, Tended w → ∀ m, P w m) {s : TenantDb} (hs : s.Sound) (moves : List (Move TenantCall)) :
    tenancy.machine.Every P (Sessions.start s) moves :=
  tenantRule.every (fun _ m hw _ => hP hw m) (.start hs) (Protocol.every_allowed fun _ _ _ => trivial)

/-- However `writeRif`, `change`, registrations and the issue of documents interleave: no two restaurants have
one tax number, a document is issued for a restaurant that has one, and a restaurant that has issued a
document keeps the one it has. -/
theorem identity_frozen (s : TenantDb) (hs : s.Sound) (moves : List (Move TenantCall)) :
    tenancy.machine.Every Frozen (Sessions.start s) moves :=
  tenancy_every frozen hs moves

end Runs

/-! ## A document on its way -/

def noTenant : TenantDb := ⟨∅, ∅, [], [], 0⟩

theorem noTenant_sound : noTenant.Sound :=
  ⟨.empty, fun _ hd => absurd hd List.not_mem_nil, fun _ hr => absurd hr List.not_mem_nil,
    fun _ hr => absurd hr List.not_mem_nil, fun _ he => absurd he List.not_mem_nil⟩

/-- The number is changed, and the plan taken back, while a document is inserted. -/
def onItsWay : List (Move TenantCall) :=
  [.start 0 (.register 1 (some "J123456784") 5), .go 0,
    .start 1 (.change ⟨1, "ENTERPRISE", none, none, false, none⟩), .go 1, .go 1, .go 1, .go 1, .go 1,
    .start 2 (.issue 1 7), .go 2, .go 2, .go 2,
    .start 3 (.writeRif 1 (some "J-98765432-1")), .start 4 (.change ⟨1, "PRO", none, none, false, none⟩),
    .go 3, .go 3, .go 4, .go 4, .go 2, .go 3, .go 3, .go 4, .go 4]

example : (tenancy.machine.outputs (Sessions.start noTenant) onItsWay).filterMap (fun e =>
    match e with
    | .refused err => err.apiCode
    | _ => none) = [.fiscalRifLocked, .planDowngradeBlocked] := by decide +kernel

theorem on_its_way_frozen : tenancy.machine.Every Frozen (Sessions.start noTenant) onItsWay :=
  identity_frozen noTenant noTenant_sound onItsWay

end Splite.Tenants
