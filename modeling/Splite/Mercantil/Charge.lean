import Splite.Lib.Js

/-!
# Asking Mercantil for a charge (`payments/providers/mercantil/c2p.js`, `services/mercantilC2P.js`)

The HTTP layer, the mapper of the body and the exception handler of `createC2PPayment`, which
together decide whether a charge is approved, failed or in doubt.

`charge_verdict_iff`: for every reply the verdict is as honest as the module's header promises
exactly when the reply is `Conclusive`, or the request was never sent.
-/

namespace Splite.Mercantil

open Js

/-- The codes of `MercantilC2PError`. -/
inductive C2PCode where
  | bankIndeterminate
  | bankRejected
  | invalidInvoice
  | invalidAmount
  | invalidPayer
  | providerMisconfigured
  deriving DecidableEq, Repr

/-- What `charge` throws: a `MercantilC2PError`, or anything else. -/
inductive ChargeError where
  | c2p (code : C2PCode) (message : String)
  | typeError
  deriving DecidableEq, Repr

/-- The credentials of one restaurant; an empty string is a missing value. -/
structure Credentials where
  clientId : String
  merchantId : String
  secretKey : String
  deriving DecidableEq, Repr

structure Client where
  baseUrl : String
  credentials : Option Credentials
  deriving DecidableEq, Repr

structure Payer where
  bankCode : String
  idNumber : String
  phone : String
  clave : String
  deriving DecidableEq, Repr

/-- The text of a response: empty, JSON, or something `JSON.parse` refuses. -/
inductive Body where
  | empty
  | json (value : Json)
  | unparsable

/-- What the call to the bank meets. A body too large to read and an invalid URL throw inside the
same `try` as a connection that fails. -/
inductive Network where
  | timeout
  | unreachable
  | reply (status : Nat) (body : Body)

/-- `isIndeterminateStatus(status)`. -/
def isIndeterminateStatus (status : Nat) : Bool :=
  [408, 425, 429].contains status || (500 ≤ status && status ≤ 599)

/-- `response.ok`. -/
def isOk (status : Nat) : Bool := 200 ≤ status && status ≤ 299

/-- `text ? JSON.parse(text) : {}`, and `{}` when it throws. -/
def Body.data : Body → Json
  | .json value => value
  | .empty | .unparsable => .obj []

/-- What `_requireConfigured` finds missing. -/
def missingConfiguration (client : Client) : List String :=
  (if client.baseUrl = "" then ["MERCANTIL_C2P_URL"] else []) ++
  (if (client.credentials.elim "" (·.clientId)) = "" then ["clientId"] else []) ++
  (if (client.credentials.elim "" (·.merchantId)) = "" then ["merchantId"] else []) ++
  (if (client.credentials.elim "" (·.secretKey)) = "" then ["secretKey"] else [])

/-- `_request(path, body)`. -/
def request (client : Client) (network : Network) : Except ChargeError Json :=
  let missing := missingConfiguration client
  if missing ≠ [] then
    .error (.c2p .providerMisconfigured
      ("Mercantil C2P is not configured: missing " ++ ", ".intercalate missing))
  else match network with
    | .timeout => .error (.c2p .bankIndeterminate "Timed out waiting for Mercantil")
    | .unreachable =>
      .error (.c2p .bankIndeterminate "Could not obtain a response from Mercantil")
    | .reply status body =>
      if !isOk status then
        if isIndeterminateStatus status then
          .error (.c2p .bankIndeterminate "Mercantil did not return a conclusive response")
        else .error (.c2p .bankRejected "Mercantil rejected the operation")
      else .ok body.data

/-- What `mapCharge` returns. -/
inductive ChargeResult where
  | succeeded (providerPaymentId bankReference : Option String)
  | failed (reason : String)
  deriving DecidableEq, Repr

def approvedTexts : List String := ["SUCCESS", "SUCCEEDED", "COMPLETED", "APPROVED", "APROBADO", "00"]

def rejectedTexts : List String := ["FAILED", "REJECTED", "DECLINED", "RECHAZADO"]

/-- `String(…) || null`. -/
def orNull (text : String) : Option String := if text = "" then none else some text

section Mapper

-- `toUpperCase` of the language; the results hold whatever it does.
variable (toUpperCase : String → String)

/-- `body`, of a reply that is not null. -/
def chargeBody (data : Json) : Json :=
  (Json.coalesce (data.prop "transaction_c2p_response") (some data)).getD data

/-- The status text of a reply; `none` when reading it throws. -/
def statusText (data : Json) : Option String :=
  if data.isNull then none
  else
    (Json.textOrEmpty
      (Json.coalesce (data.prop "status") (Json.coalesce (data.prop "estado")
        (Json.optionalProp "status" (data.prop "transaction_c2p_response"))))).map toUpperCase

/-- The payment id of an approval; `none` when reading it throws. -/
def paymentIdText (body : Json) : Option String :=
  Json.textOrEmpty (Json.coalesce (body.prop "payment_id")
    (Json.coalesce (body.prop "transaction_id") (body.prop "id")))

/-- The bank reference of an approval; `none` when reading it throws. -/
def referenceText (body : Json) : Option String :=
  Json.textOrEmpty (Json.coalesce (body.prop "reference")
    (Json.coalesce (body.prop "referencia") (body.prop "payment_reference")))

/-- The message of a rejection; `none` when reading it throws. -/
def reasonText (body : Json) : Option String :=
  match Json.coalesce (body.prop "message") (body.prop "mensaje") with
  | none | some .null => some "Mercantil rejected the payment"
  | some j => j.text

/-- `mapCharge(data)`. -/
def mapCharge (data : Json) : Except ChargeError ChargeResult :=
  match statusText toUpperCase data with
  | none => .error .typeError
  | some status =>
    let body := chargeBody data
    let approved := approvedTexts.contains status || Json.isBool true (body.prop "approved") ||
      Json.isBool true (body.prop "exitoso")
    let rejected := rejectedTexts.contains status || Json.isBool false (body.prop "approved")
    if approved then
      match paymentIdText body, referenceText body with
      | some id, some reference => .ok (.succeeded (orNull id) (orNull reference))
      | _, _ => .error .typeError
    else if rejected then
      match reasonText body with
      | some reason => .ok (.failed reason)
      | none => .error .typeError
    else .error (.c2p .bankIndeterminate "Mercantil returned an inconclusive status")

/-- `charge({ invoiceNumber, amountVesMinor, payer })`. -/
def charge (client : Client) (invoiceNumber : String) (amount : Int) (payer : Payer)
    (network : Network) : Except ChargeError ChargeResult :=
  if invoiceNumber = "" then .error (.c2p .invalidInvoice "invoiceNumber is required")
  else if amount ≤ 0 then .error (.c2p .invalidAmount "Charge amount must be positive")
  else if payer.bankCode = "" ∨ payer.idNumber = "" ∨ payer.phone = "" ∨ payer.clave = "" then
    .error (.c2p .invalidPayer "Missing required C2P payer fields")
  else if client.credentials.isNone then
    -- `this.credentials.integratorId` of the body, before `_request` is called.
    .error .typeError
  else do
    let data ← request client network
    mapCharge toUpperCase data

/-- How `createC2PPayment` goes on after the charge. -/
inductive Verdict where
  | approved (providerPaymentId bankReference : Option String)
  | failed (reason : String)
  | inDoubt
  deriving DecidableEq, Repr

/-- The `catch` of `createC2PPayment`, and the check of the result after it. -/
def verdictOf : Except ChargeError ChargeResult → Verdict
  | .error (.c2p .bankIndeterminate _) => .inDoubt
  | .error (.c2p _ message) => .failed message
  | .error .typeError => .failed "Charge could not be completed"
  | .ok (.failed reason) => .failed reason
  | .ok (.succeeded id reference) => .approved id reference

/-- The whole of it: what a charge comes to, given what the network brings. -/
def chargeVerdict (client : Client) (invoiceNumber : String) (amount : Int) (payer : Payer)
    (network : Network) : Verdict :=
  verdictOf (charge toUpperCase client invoiceNumber amount payer network)

/-! ## What a reply says -/

/-- The request is refused before it is sent: something is missing from it, or the configuration. -/
def NeverSent (client : Client) (invoiceNumber : String) (amount : Int) (payer : Payer) : Prop :=
  invoiceNumber = "" ∨ amount ≤ 0 ∨
    (payer.bankCode = "" ∨ payer.idNumber = "" ∨ payer.phone = "" ∨ payer.clave = "") ∨
    missingConfiguration client ≠ []

/-- The body says yes: an approving status text, `approved: true` or `exitoso: true`. -/
def Approves (data : Json) : Prop :=
  (∃ status ∈ statusText toUpperCase data, status ∈ approvedTexts) ∨
    Json.isBool true ((chargeBody data).prop "approved") ∨
    Json.isBool true ((chargeBody data).prop "exitoso")

/-- The body says no: a rejecting status text, or `approved: false`. -/
def Rejects (data : Json) : Prop :=
  (∃ status ∈ statusText toUpperCase data, status ∈ rejectedTexts) ∨
    Json.isBool false ((chargeBody data).prop "approved")

/-- The statuses that are a decision of the bank. -/
def deliberateStatuses : List Nat := [400, 401, 403, 404, 409, 422]

instance (data : Json) : Decidable (Approves toUpperCase data) :=
  inferInstanceAs (Decidable (_ ∨ _))

instance (data : Json) : Decidable (Rejects toUpperCase data) :=
  inferInstanceAs (Decidable (_ ∨ _))

def ExplicitApproval : Network → Prop
  | .reply _ body => Approves toUpperCase body.data
  | _ => False

def ExplicitRejection : Network → Prop
  | .reply status body => status ∈ deliberateStatuses ∨ Rejects toUpperCase body.data
  | _ => False

/-- Failed only if the request was never sent or the reply rejects; approved only if the reply
approves and does not reject; in doubt in every other case. -/
def Honest (sent : Prop) (network : Network) (verdict : Verdict) : Prop :=
  (∀ reason, verdict = .failed reason → ¬sent ∨ ExplicitRejection toUpperCase network) ∧
  (∀ id reference, verdict = .approved id reference →
    ExplicitApproval toUpperCase network ∧ ¬ExplicitRejection toUpperCase network) ∧
  (sent → ¬ExplicitRejection toUpperCase network → ¬ExplicitApproval toUpperCase network →
    verdict = .inDoubt)

/-- The ids of an approval can be read. -/
def IdsReadable (data : Json) : Prop :=
  (paymentIdText (chargeBody data)).isSome ∧ (referenceText (chargeBody data)).isSome

/-- A reply that the three layers read without a slip. With a 2xx status: its status text can be
read, unless it says `approved: false`; and if it approves, then it rejects as well exactly when
its ids cannot be read. With another status: one of the indeterminate ones, one of the deliberate
ones, or a body that rejects. -/
def Conclusive : Network → Prop
  | .timeout | .unreachable => True
  | .reply status body =>
    if isOk status then
      (statusText toUpperCase body.data = none → Rejects toUpperCase body.data) ∧
      (statusText toUpperCase body.data ≠ none → Approves toUpperCase body.data →
        (Rejects toUpperCase body.data ↔ ¬IdsReadable body.data))
    else
      isIndeterminateStatus status = true ∨ status ∈ deliberateStatuses ∨
        Rejects toUpperCase body.data

end Mapper

/-! ## The verdict -/

section Verdict

variable {toUpperCase : String → String} {client : Client} {invoiceNumber : String} {amount : Int}
  {payer : Payer} {network : Network}

/-- Without credentials something is missing from the configuration. -/
theorem missing_of_no_credentials (h : client.credentials.isNone) :
    missingConfiguration client ≠ [] := by
  have : client.credentials = none := by simpa using h
  simp [missingConfiguration, this]

/-- A request that is never sent fails, whatever the network would have brought. -/
theorem charge_never_sent (toUpperCase : String → String) (network : Network)
    (h : NeverSent client invoiceNumber amount payer) :
    ∃ reason, chargeVerdict toUpperCase client invoiceNumber amount payer network =
      .failed reason := by
  unfold chargeVerdict charge
  by_cases h1 : invoiceNumber = ""
  · exact ⟨_, by rw [if_pos h1]; rfl⟩
  rw [if_neg h1]
  by_cases h2 : amount ≤ 0
  · exact ⟨_, by rw [if_pos h2]; rfl⟩
  rw [if_neg h2]
  by_cases h3 : payer.bankCode = "" ∨ payer.idNumber = "" ∨ payer.phone = "" ∨ payer.clave = ""
  · exact ⟨_, by rw [if_pos h3]; rfl⟩
  rw [if_neg h3]
  by_cases h4 : client.credentials.isNone
  · exact ⟨_, by rw [if_pos h4]; rfl⟩
  rw [if_neg h4]
  have h5 : missingConfiguration client ≠ [] := by
    rcases h with h | h | h | h
    exacts [absurd h h1, absurd h h2, absurd h h3, h]
  exact ⟨"Mercantil C2P is not configured: missing " ++
    ", ".intercalate (missingConfiguration client), by simp [request, h5]; rfl⟩

/-- A request that is sent comes to what the network and the mapper make of it. -/
theorem charge_sent (h : ¬NeverSent client invoiceNumber amount payer) :
    chargeVerdict toUpperCase client invoiceNumber amount payer network =
      match network with
      | .timeout | .unreachable => .inDoubt
      | .reply status body =>
        if isOk status then verdictOf (mapCharge toUpperCase body.data)
        else if isIndeterminateStatus status then .inDoubt
        else .failed "Mercantil rejected the operation" := by
  simp only [NeverSent, not_or] at h
  obtain ⟨h1, h2, h3, h4⟩ := h
  have h5 : ¬client.credentials.isNone := fun hn => h4 (missing_of_no_credentials hn)
  unfold chargeVerdict charge
  rw [if_neg h1, if_neg h2, if_neg (by simpa only [not_or] using h3), if_neg h5]
  simp only [request, if_neg h4]
  cases network with
  | timeout => rfl
  | unreachable => rfl
  | reply status body =>
    by_cases hok : isOk status <;> simp only [hok, Bool.not_true, Bool.not_false, if_true]
    · rfl
    · by_cases hind : isIndeterminateStatus status <;> simp only [hind, if_true] <;> rfl

theorem approves_iff {data : Json} {status : String} (h : statusText toUpperCase data = some status) :
    (approvedTexts.contains status || Json.isBool true ((chargeBody data).prop "approved") ||
      Json.isBool true ((chargeBody data).prop "exitoso")) = true ↔ Approves toUpperCase data := by
  simp [Approves, h, or_assoc]

theorem rejects_iff {data : Json} {status : String} (h : statusText toUpperCase data = some status) :
    (rejectedTexts.contains status || Json.isBool false ((chargeBody data).prop "approved")) = true ↔
      Rejects toUpperCase data := by
  simp [Rejects, h]

/-- What `mapCharge` makes of a body, in terms of what the body says. -/
theorem verdict_mapCharge (toUpperCase : String → String) (data : Json) :
    let verdict := verdictOf (mapCharge toUpperCase data)
    (statusText toUpperCase data = none → ∃ reason, verdict = .failed reason) ∧
    (statusText toUpperCase data ≠ none →
      (Approves toUpperCase data → IdsReadable data → ∃ id reference, verdict = .approved id reference) ∧
      (Approves toUpperCase data → ¬IdsReadable data → ∃ reason, verdict = .failed reason) ∧
      (¬Approves toUpperCase data → Rejects toUpperCase data → ∃ reason, verdict = .failed reason) ∧
      (¬Approves toUpperCase data → ¬Rejects toUpperCase data → verdict = .inDoubt)) := by
  intro verdict
  cases hs : statusText toUpperCase data with
  | none =>
    refine ⟨fun _ => ⟨"Charge could not be completed", ?_⟩, fun h => absurd rfl h⟩
    simp only [verdict, mapCharge, hs]
    rfl
  | some status =>
    refine ⟨nofun, fun _ => ?_⟩
    simp only [verdict, mapCharge, hs, approves_iff hs, rejects_iff hs]
    refine ⟨fun ha hids => ?_, fun ha hids => ?_, fun ha hr => ?_, fun ha hr => ?_⟩
    · rw [if_pos ha]
      obtain ⟨hid, href⟩ := hids
      obtain ⟨id, hid⟩ := Option.isSome_iff_exists.mp hid
      obtain ⟨reference, href⟩ := Option.isSome_iff_exists.mp href
      rw [hid, href]
      exact ⟨_, _, rfl⟩
    · rw [if_pos ha]
      refine ⟨"Charge could not be completed", ?_⟩
      unfold IdsReadable at hids
      cases hid : paymentIdText (chargeBody data) <;> cases href : referenceText (chargeBody data)
      all_goals first | rfl | simp [hid, href] at hids
    · rw [if_neg ha, if_pos hr]
      cases reasonText (chargeBody data) <;> exact ⟨_, rfl⟩
    · rw [if_neg ha, if_neg hr]
      rfl

theorem not_deliberate_of_ok {status : Nat} (h : isOk status) : status ∉ deliberateStatuses := by
  simp only [isOk, Bool.and_eq_true, decide_eq_true_eq] at h
  simp only [deliberateStatuses, List.mem_cons, List.not_mem_nil, or_false]
  omega

/-- A 2xx reply: what the mapper makes of the body is honest exactly for a conclusive one. -/
theorem honest_ok_iff {status : Nat} {body : Body} (hok : isOk status) :
    Honest toUpperCase True (.reply status body)
      (verdictOf (mapCharge toUpperCase body.data)) ↔
    Conclusive toUpperCase (.reply status body) := by
  obtain ⟨hthrow, hread⟩ := verdict_mapCharge toUpperCase body.data
  simp only [Honest, ExplicitRejection, ExplicitApproval, Conclusive, if_pos hok,
    not_deliberate_of_ok hok, false_or, not_true_eq_false, forall_const]
  by_cases hs : statusText toUpperCase body.data = none
  · obtain ⟨reason, hv⟩ := hthrow hs
    rw [hv]
    constructor
    · intro h
      exact ⟨fun _ => h.1 _ rfl, fun hn => absurd hs hn⟩
    · intro h
      exact ⟨fun _ _ => h.1 hs, nofun, fun hr => absurd (h.1 hs) hr⟩
  obtain ⟨happ, hunread, hrej, hneither⟩ := hread hs
  by_cases ha : Approves toUpperCase body.data
  · by_cases hids : IdsReadable body.data
    · obtain ⟨id, reference, hv⟩ := happ ha hids
      rw [hv]
      constructor
      · intro h
        exact ⟨fun hn => absurd hn hs,
          fun _ _ => iff_of_false (h.2.1 _ _ rfl).2 (not_not.mpr hids)⟩
      · intro h
        have hr : ¬Rejects toUpperCase body.data := fun hr => (h.2 hs ha).mp hr hids
        exact ⟨nofun, fun _ _ _ => ⟨ha, hr⟩, fun _ hna => absurd ha hna⟩
    · obtain ⟨reason, hv⟩ := hunread ha hids
      rw [hv]
      constructor
      · intro h
        exact ⟨fun hn => absurd hn hs, fun _ _ => iff_of_true (h.1 _ rfl) hids⟩
      · intro h
        have hr := (h.2 hs ha).mpr hids
        exact ⟨fun _ _ => hr, nofun, fun hnr => absurd hr hnr⟩
  · refine iff_of_true ?_ ⟨fun hn => absurd hn hs, fun _ h => absurd h ha⟩
    by_cases hr : Rejects toUpperCase body.data
    · obtain ⟨reason, hv⟩ := hrej ha hr
      rw [hv]
      exact ⟨fun _ _ => hr, nofun, fun hnr => absurd hr hnr⟩
    · rw [hneither ha hr]
      exact ⟨nofun, nofun, fun _ _ => rfl⟩

/-- Every verdict is honest exactly for the requests that are never sent and the conclusive
replies. -/
theorem charge_verdict_iff :
    Honest toUpperCase (¬NeverSent client invoiceNumber amount payer) network
      (chargeVerdict toUpperCase client invoiceNumber amount payer network) ↔
    NeverSent client invoiceNumber amount payer ∨ Conclusive toUpperCase network := by
  by_cases hns : NeverSent client invoiceNumber amount payer
  · obtain ⟨reason, hv⟩ := charge_never_sent toUpperCase network hns
    rw [hv]
    exact iff_of_true ⟨fun _ _ => .inl (not_not.mpr hns), nofun, fun h => absurd hns h⟩ (.inl hns)
  simp only [hns, not_false_eq_true, false_or, charge_sent hns]
  cases network with
  | timeout => exact iff_of_true ⟨nofun, nofun, fun _ _ _ => rfl⟩ trivial
  | unreachable => exact iff_of_true ⟨nofun, nofun, fun _ _ _ => rfl⟩ trivial
  | reply status body =>
    by_cases hok : isOk status
    · simp only [hok, if_true]
      exact honest_ok_iff hok
    rw [Bool.not_eq_true] at hok
    simp only [hok, Bool.false_eq_true, if_false, Conclusive]
    by_cases hind : isIndeterminateStatus status
    · simp only [hind, if_true, true_or, iff_true]
      exact ⟨nofun, nofun, fun _ _ _ => rfl⟩
    · rw [Bool.not_eq_true] at hind
      simp only [hind, Bool.false_eq_true, if_false, false_or]
      constructor
      · intro h
        exact (h.1 _ rfl).resolve_left (not_not.mpr trivial)
      · intro h
        exact ⟨fun _ _ => .inr h, nofun, fun _ hr => absurd h hr⟩

end Verdict

/-! ## Replies at the edges -/

def capitals (s : String) : String := String.ofList (s.toList.map Char.toUpper)

/-- A client with every credential, and a payer with every field. -/
def readyClient : Client := ⟨"https://api.mercantil.example", some ⟨"client", "merchant", "secret"⟩⟩

def readyPayer : Payer := ⟨"0105", "V12345678", "04141234567", "123456"⟩

theorem ready_sent (invoiceNumber : String) (hi : invoiceNumber ≠ "") :
    ¬NeverSent readyClient invoiceNumber 4500 readyPayer := by
  simp only [NeverSent, hi, false_or]
  decide

/-- A 402 with an empty body and a 200 whose body is `null` are called failed, though neither says
no; a 200 that says both `SUCCESS` and `approved: false` is called approved. -/
theorem dishonest_verdicts :
    ¬NeverSent readyClient "SPL-1" 4500 readyPayer ∧
    ∀ network ∈ [Network.reply 402 .empty, .reply 200 (.json .null),
        .reply 200 (.json (.obj [("status", .str "SUCCESS"), ("approved", .bool false)]))],
      ¬Honest capitals (¬NeverSent readyClient "SPL-1" 4500 readyPayer) network
        (chargeVerdict capitals readyClient "SPL-1" 4500 readyPayer network) := by
  have hsent := ready_sent "SPL-1" (by decide)
  refine ⟨hsent, ?_⟩
  simp only [List.forall_mem_cons, List.not_mem_nil, false_imp_iff, implies_true, and_true]
  refine ⟨fun h => ?_, fun h => ?_, fun h => ?_⟩
  · rcases h.1 "Mercantil rejected the operation" (by decide) with h | h | h
    · exact h hsent
    · exact absurd h (by decide)
    · exact absurd h (by decide)
  · rcases h.1 "Charge could not be completed" (by decide) with h | h | h
    · exact h hsent
    · exact absurd h (by decide)
    · exact absurd h (by decide)
  · exact (h.2.1 none none (by decide)).2 (.inr (by decide))

end Splite.Mercantil
