import Splite.Ledger.Indexes

/-!
# Idempotency keys, and the charges behind them (`services/idempotency.js`, `routes/guest.js`)

Any number of requests to `POST /bill/c2p` run at once, a statement at a time, and any statement may
fail, whether it has taken effect or not. A request claims its key with `begin`, raises its charge,
and stores the response with `complete` or gives the key back with `abort`.

* `Route.Sound.step`: an owner has a row for its key, and no other request owns it; a charge that the
  bank was asked for has its payment, under the key.
* `begin_ends`: `begin` ends after six statements at most.
* `stored_answers`: once a response is stored, `begin` answers with it.
* `charged_once`: the bank is asked for one charge for each key.
-/

namespace Splite

/-! ## The claims -/

/-- A row of `idempotency_keys`. -/
structure IdempotencyKey where
  restaurantId : Uuid
  key : String
  requestHash : String
  /-- `response_status` and `response_body`. -/
  response : Option (Nat × String)
  expiresAt : Time
  deriving DecidableEq, Repr

instance : Keyed IdempotencyKey (Uuid × String) := ⟨fun k => (k.restaurantId, k.key)⟩

/-- `INTERVAL '24 hours'`. -/
def CLAIM_MS : Nat := 24 * 60 * 60 * 1000

def MAX_CLAIM_ATTEMPTS : Nat := 2

/-- The rows of `idempotency_keys`. -/
abbrev Claims := Table IdempotencyKey

namespace Claims

/-- The first statement of `begin`: `DELETE … WHERE restaurant_id = $1 AND key = $2 AND
expires_at <= NOW()`. -/
def clearExpired (keys : Claims) (id : Uuid × String) (now : Time) : Claims :=
  keys.deleteWhere fun k => Keyed.key k = id ∧ k.expiresAt ≤ now

/-- `INSERT … ON CONFLICT (restaurant_id, key) DO NOTHING`. -/
def claim (keys : Claims) (id : Uuid × String) (hash : String) (now : Time) : Option Claims :=
  keys.insert?
    { restaurantId := id.1, key := id.2, requestHash := hash, response := none,
      expiresAt := now + CLAIM_MS }

/-- The statement of `complete`. -/
def complete (keys : Claims) (id : Uuid × String) (status : Nat) (body : String) : Claims :=
  keys.update id (fun k => { k with response := some (status, body) }) fun _ => rfl

/-- The statement of `abort`. -/
def abort (keys : Claims) (id : Uuid × String) : Claims :=
  keys.deleteWhere fun k => Keyed.key k = id ∧ k.response = none

/-- `purgeExpired()`. -/
def purgeExpired (keys : Claims) (now : Time) : Claims :=
  keys.deleteWhere fun k => k.expiresAt ≤ now

end Claims

/-- What `begin` returns. -/
inductive BeginResult where
  | owner
  | replay (status : Nat) (body : String)
  deriving DecidableEq, Repr

def keyReused : Err :=
  .api .idempotencyKeyReused "Idempotency key reused with a different request payload" []

def inFlight : Err :=
  .api .idempotencyInFlight "A request with this idempotency key is already in progress" []

/-- What `begin` makes of the row that its `INSERT` met, or of its absence; `none` where it is called
again. -/
def readClaim (row : Option IdempotencyKey) (hash : String) (attempt : Nat) :
    Option (Except Err BeginResult) :=
  match row with
  | none => if MAX_CLAIM_ATTEMPTS ≤ attempt then some (.error inFlight) else none
  | some row =>
    if row.requestHash ≠ hash then some (.error keyReused)
    else
      match row.response with
      | some (status, body) =>
        if status ≠ 0 then some (.ok (.replay status body)) else some (.error inFlight)
      | none => some (.error inFlight)

/-! ## Requests -/

/-- A request to `POST /bill/c2p`. -/
structure C2PRequest where
  restaurantId : Uuid
  key : String
  /-- `requestHash(req)`. -/
  hash : String
  amountVes : Option Int
  payer : Mercantil.Payer
  splitParticipantId : Option Uuid := none
  tipVes : Option Int := some 0

/-- Where a request is: the statement that comes next. -/
inductive RequestPhase where
  | clearing (attempt : Nat)
  | claiming (attempt : Nat)
  | reading (attempt : Nat)
  /-- It owns the key; `openBillForGuest` and the bank client come next. -/
  | claimed
  /-- The transaction of `createC2PPayment` comes next. -/
  | submitting (billId : Uuid)
  /-- The transaction has committed; `client.charge` comes next. -/
  | submitted (paymentId : Uuid)
  /-- The rest of `createC2PPayment`. -/
  | charging (paymentId : Uuid)
  | completing (body : String)
  | aborting
  deriving DecidableEq, Repr

structure GuestRequest where
  requestId : Nat
  request : C2PRequest
  phase : RequestPhase

instance : Keyed GuestRequest Nat := ⟨GuestRequest.requestId⟩

/-- The key that the request is about. -/
def C2PRequest.keyId (q : C2PRequest) : Uuid × String := (q.restaurantId, q.key)

/-- The argument of `createC2PPayment`. -/
def C2PRequest.charge (q : C2PRequest) (billId : Uuid) : ChargeRequest where
  restaurantId := q.restaurantId
  billId := billId
  amountVes := q.amountVes
  payer := q.payer
  idempotencyKey := some q.key
  splitParticipantId := q.splitParticipantId
  tipVes := q.tipVes

/-- The request owns its key: `begin` has returned `owner: true`, and neither `complete` nor `abort`
is over. -/
def RequestPhase.owns : RequestPhase → Bool
  | .clearing _ | .claiming _ | .reading _ => false
  | _ => true

/-- The ledger, the claims, the requests that are being answered, and the keys of the charges that
the bank was asked for. -/
structure Route where
  ledger : World
  now : Time
  keys : Claims
  requests : Table GuestRequest
  charged : List (Uuid × String)

def Route.start (db : Db) (keys : Claims) (now : Time) : Route := ⟨.idle db, now, keys, ∅, []⟩

/-- `createC2PPayment` is called. -/
def LedgerOp.submits : LedgerOp → Bool
  | .submitCharge .. => true
  | _ => false

inductive RouteOp where
  | tick (now : Time)
  | purgeExpired
  /-- Anything else that the ledger does. -/
  | ledger (op : LedgerOp) (h : op.submits = false)
  | arrive (requestId : Nat) (request : C2PRequest)
  /-- The next statement of `begin`, `complete` or `abort`; when it is not acknowledged it has taken
  effect, but the request sees it fail. -/
  | next (requestId : Nat) (acknowledged : Bool)
  /-- `openBillForGuest` returns the bill, and the bank client is there; or one of them throws. -/
  | opened (requestId : Nat) (bill : Except Err Uuid)
  /-- The transaction of `createC2PPayment`. -/
  | submit (requestId : Nat) (paymentId : Uuid) (acknowledged : Bool)
  /-- `client.charge` is called. -/
  | askBank (requestId : Nat)
  /-- `createC2PPayment` returns or throws. -/
  | ended (requestId : Nat) (result : Except Err String)
  /-- The next statement fails. -/
  | fail (requestId : Nat)
  /-- The process dies. -/
  | crash (requestId : Nat)

/-- What a request was answered with by `begin`. -/
structure BeginAnswer where
  request : C2PRequest
  result : Except Err BeginResult

namespace Route

def setPhase (w : Route) (requestId : Nat) (phase : RequestPhase) : Route :=
  { w with requests := w.requests.update requestId (fun r => { r with phase }) fun _ => rfl }

/-- The request is over. -/
def finish (w : Route) (requestId : Nat) : Route :=
  { w with requests := w.requests.deleteWhere fun r => r.requestId = requestId }

/-- A statement of `begin` has taken effect; if the request sees it fail, `begin` throws before the
key is claimed. -/
def goOn (w : Route) (requestId : Nat) (acknowledged : Bool) (phase : RequestPhase) : Route :=
  if acknowledged then w.setPhase requestId phase else w.finish requestId

/-- The `catch` of the route: a request that has claimed its key aborts. -/
def throws (w : Route) (r : GuestRequest) : Route :=
  if r.phase = .aborting ∨ r.phase.owns = false then w.finish r.requestId
  else w.setPhase r.requestId .aborting

/-- The next statement of `begin`, `complete` or `abort`. -/
def next (w : Route) (r : GuestRequest) (acknowledged : Bool) : Route × List BeginAnswer :=
  let id := r.request.keyId
  match r.phase with
  | .clearing attempt =>
    ({ w with keys := w.keys.clearExpired id w.now }.goOn r.requestId acknowledged
      (.claiming attempt), [])
  | .claiming attempt =>
    match w.keys.claim id r.request.hash w.now with
    | some keys =>
      ({ w with keys }.goOn r.requestId acknowledged .claimed,
        if acknowledged then [⟨r.request, .ok .owner⟩] else [])
    | none => (w.goOn r.requestId acknowledged (.reading attempt), [])
  | .reading attempt =>
    if !acknowledged then (w.finish r.requestId, [])
    else
      match readClaim (w.keys.find? id) r.request.hash attempt with
      | some result => (w.finish r.requestId, [⟨r.request, result⟩])
      | none => (w.setPhase r.requestId (.clearing (attempt + 1)), [])
  | .completing body =>
    let stored := { w with keys := w.keys.complete id 201 body }
    (if acknowledged then stored.finish r.requestId else stored.setPhase r.requestId .aborting, [])
  | .aborting => ({ w with keys := w.keys.abort id }.finish r.requestId, [])
  | _ => (w, [])

end Route

/-- One step, with what `begin` answers in it. -/
def RouteOp.step (w : Route) : RouteOp → Route × List BeginAnswer
  | .tick now => ({ w with now }, [])
  | .purgeExpired => ({ w with keys := w.keys.purgeExpired w.now }, [])
  | .ledger op _ => ({ w with ledger := (op.step w.ledger).1 }, [])
  | .arrive requestId request =>
    match w.requests.insert? ⟨requestId, request, .clearing 1⟩ with
    | some requests => ({ w with requests }, [])
    | none => (w, [])
  | .next requestId acknowledged =>
    match w.requests.find? requestId with
    | some r => w.next r acknowledged
    | none => (w, [])
  | .opened requestId bill =>
    match w.requests.find? requestId with
    | some ⟨_, _, .claimed⟩ =>
      match bill with
      | .ok billId => (w.setPhase requestId (.submitting billId), [])
      | .error _ => (w.setPhase requestId .aborting, [])
    | _ => (w, [])
  | .submit requestId paymentId acknowledged =>
    match w.requests.find? requestId with
    | some ⟨_, q, .submitting billId⟩ =>
      match (Splite.submitCharge paymentId w.now (q.charge billId)).run w.ledger.db with
      | .ok p _ =>
        ({ w with
            ledger := (LedgerOp.step w.ledger (.submitCharge paymentId w.now (q.charge billId))).1
          }.setPhase requestId (if acknowledged then .submitted p.id else .aborting), [])
      | .error _ _ => (w.setPhase requestId .aborting, [])
    | _ => (w, [])
  | .askBank requestId =>
    match w.requests.find? requestId with
    | some ⟨_, q, .submitted paymentId⟩ =>
      ({ w with charged := q.keyId :: w.charged }.setPhase requestId (.charging paymentId), [])
    | _ => (w, [])
  | .ended requestId result =>
    match w.requests.find? requestId with
    | some ⟨_, _, .charging _⟩ =>
      match result with
      | .ok body => (w.setPhase requestId (.completing body), [])
      | .error _ => (w.setPhase requestId .aborting, [])
    | _ => (w, [])
  | .fail requestId =>
    match w.requests.find? requestId with
    | some r => (w.throws r, [])
    | none => (w, [])
  | .crash requestId => (w.finish requestId, [])

/-- The route as a machine that answers with what `begin` ends with. -/
def route : Machine Route RouteOp BeginAnswer := ⟨RouteOp.step⟩

/-- No claim expires while its owner runs. -/
def Route.Prompt (w : Route) : RouteOp → Prop
  | .tick now => ∀ r ∈ w.requests, r.phase.owns → ∀ k ∈ w.keys,
      Keyed.key k = r.request.keyId → now < k.expiresAt
  | _ => True

/-! ## The invariant -/

/-- A payment was committed under the key. -/
def Db.HasKey (s : Db) (id : Uuid × String) : Prop :=
  ∃ p ∈ s.payments, p.restaurantId = id.1 ∧ p.idempotencyKey = some id.2

/-- An owner has a row for its key that has not expired, and no other request owns the key; a charge
that the bank was asked for, or is about to be, has its payment. -/
structure Route.Sound (w : Route) : Prop where
  unclashed : w.ledger.db.Unclashed
  single : ∀ r ∈ w.requests, ∀ r' ∈ w.requests, r.phase.owns → r'.phase.owns →
    r.request.keyId = r'.request.keyId → r.requestId = r'.requestId
  held : ∀ r ∈ w.requests, r.phase.owns → ∃ k ∈ w.keys, Keyed.key k = r.request.keyId ∧
    w.now < k.expiresAt ∧ (r.phase ≠ .aborting → k.response = none)
  submitted : ∀ r ∈ w.requests, ∀ paymentId, r.phase = .submitted paymentId →
    w.ledger.db.HasKey r.request.keyId ∧ r.request.keyId ∉ w.charged
  charged : ∀ id ∈ w.charged, w.ledger.db.HasKey id
  once : w.charged.Nodup

theorem Route.Sound.start {db : Db} (h : db.Unclashed) (keys : Claims) (now : Time) :
    (Route.start db keys now).Sound := by
  refine ⟨h, fun r hr => ?_, fun r hr => ?_, fun r hr => ?_, fun id hid => ?_, List.nodup_nil⟩
  · cases hr
  · cases hr
  · cases hr
  · cases hid

section Requests

variable {w : Route} {r : GuestRequest} {phase : RequestPhase}

/-- Requests that go on as owners, and others that own nothing. -/
theorem Route.Sound.of_requests (h : w.Sound) {requests : Table GuestRequest}
    (hreq : ∀ r' ∈ requests, r'.phase.owns → ∃ r ∈ w.requests, r.requestId = r'.requestId ∧
      r.request = r'.request ∧ r.phase.owns ∧ (r'.phase ≠ .aborting → r.phase ≠ .aborting) ∧
      ∀ paymentId, r'.phase = .submitted paymentId →
        w.ledger.db.HasKey r.request.keyId ∧ r.request.keyId ∉ w.charged) :
    Route.Sound { w with requests } := by
  refine ⟨h.unclashed, fun a ha b hb hao hbo hkey => ?_, fun a ha hao => ?_,
    fun a ha paymentId hphase => ?_, h.charged, h.once⟩
  · obtain ⟨a₀, ha₀, hid, hreq₀, hown, -⟩ := hreq a ha hao
    obtain ⟨b₀, hb₀, hid', hreq₀', hown', -⟩ := hreq b hb hbo
    rw [← hid, ← hid']
    exact h.single a₀ ha₀ b₀ hb₀ hown hown' (by rw [hreq₀, hreq₀', hkey])
  · obtain ⟨a₀, ha₀, -, hreq₀, hown, hlive, -⟩ := hreq a ha hao
    obtain ⟨k, hk, hkey, hfresh, hnone⟩ := h.held a₀ ha₀ hown
    exact ⟨k, hk, hreq₀ ▸ hkey, hfresh, fun hne => hnone (hlive hne)⟩
  · have hao : a.phase.owns := by rw [hphase]; rfl
    obtain ⟨a₀, -, -, hreq₀, -, -, hpaid⟩ := hreq a ha hao
    rw [← hreq₀]
    exact hpaid paymentId hphase

theorem Route.Sound.finish (h : w.Sound) (requestId : Nat) : (w.finish requestId).Sound := by
  refine h.of_requests fun r hr hown => ?_
  obtain ⟨hr, -⟩ := Table.mem_deleteWhere.mp hr
  exact ⟨r, hr, rfl, rfl, hown, id, fun _ hphase => h.submitted r hr _ hphase⟩

/-- The next phase of a request. -/
theorem Route.Sound.setPhase (h : w.Sound) (hr : r ∈ w.requests)
    (hown : phase.owns → r.phase.owns ∧ (phase ≠ .aborting → r.phase ≠ .aborting))
    (hpaid : ∀ paymentId, phase = .submitted paymentId →
      w.ledger.db.HasKey r.request.keyId ∧ r.request.keyId ∉ w.charged) :
    (w.setPhase r.requestId phase).Sound := by
  refine h.of_requests fun r' hr' hown' => ?_
  rcases (Table.mem_update_of_find (fun r : GuestRequest => { r with phase }) (fun _ => rfl)
    (Table.find?_eq_some.mpr ⟨hr, rfl⟩)).mp hr' with rfl | ⟨hr', -⟩
  · exact ⟨r, hr, rfl, rfl, (hown hown').1, (hown hown').2, hpaid⟩
  · exact ⟨r', hr', rfl, rfl, hown', id, fun _ hphase => h.submitted r' hr' _ hphase⟩

/-- A phase of `begin`, or the one in which the request gives up. -/
theorem Route.Sound.setPhase_idle (h : w.Sound) (hr : r ∈ w.requests)
    (hidle : phase.owns = false ∨ (phase = .aborting ∧ r.phase.owns)) :
    (w.setPhase r.requestId phase).Sound := by
  refine h.setPhase hr (fun hown => ?_) fun paymentId hphase => ?_
  · rcases hidle with hidle | ⟨rfl, hrown⟩
    · rw [hidle] at hown
      cases hown
    · exact ⟨hrown, fun hne => absurd rfl hne⟩
  · rcases hidle with hidle | ⟨rfl, -⟩
    · rw [hphase] at hidle
      cases hidle
    · cases hphase

theorem Route.Sound.goOn (h : w.Sound) (hr : r ∈ w.requests) (acknowledged : Bool)
    (hidle : phase.owns = false) : (w.goOn r.requestId acknowledged phase).Sound := by
  unfold Route.goOn
  split
  · exact h.setPhase_idle hr (.inl hidle)
  · exact h.finish _

theorem Route.Sound.throws (h : w.Sound) (hr : r ∈ w.requests) : (w.throws r).Sound := by
  unfold Route.throws
  split
  · exact h.finish _
  · rename_i hlive
    refine h.setPhase_idle hr (.inr ⟨rfl, ?_⟩)
    by_contra hown
    exact hlive (.inr (by simpa using hown))

end Requests

section Keys

variable {w : Route} {r : GuestRequest}

/-- A statement that leaves the rows of owners as they are. -/
theorem Route.Sound.of_keys (h : w.Sound) {keys : Claims}
    (hkeys : ∀ r ∈ w.requests, r.phase.owns → ∀ k ∈ w.keys, Keyed.key k = r.request.keyId →
      w.now < k.expiresAt → ∃ k' ∈ keys, Keyed.key k' = Keyed.key k ∧
        k'.expiresAt = k.expiresAt ∧ (r.phase ≠ .aborting → k'.response = k.response)) :
    Route.Sound { w with keys } := by
  refine ⟨h.unclashed, h.single, fun r hr hown => ?_, h.submitted, h.charged, h.once⟩
  obtain ⟨k, hk, hkey, hfresh, hnone⟩ := h.held r hr hown
  obtain ⟨k', hk', hkey', hexp, hresp⟩ := hkeys r hr hown k hk hkey hfresh
  exact ⟨k', hk', hkey'.trans hkey, hexp ▸ hfresh,
    fun hne => (hresp hne).trans (hnone hne)⟩

/-- The deletion of rows that have expired. -/
theorem Route.Sound.expire (h : w.Sound) {p : IdempotencyKey → Bool}
    (hp : ∀ k, p k → k.expiresAt ≤ w.now) : Route.Sound { w with keys := w.keys.deleteWhere p } := by
  refine h.of_keys fun r _ _ k hk _ hfresh => ⟨k, Table.mem_deleteWhere.mpr ⟨hk, ?_⟩, rfl, rfl,
    fun _ => rfl⟩
  rw [Bool.eq_false_iff]
  intro hexpired
  exact absurd (hp k hexpired) (Nat.not_le.mpr hfresh)

/-- `complete` writes the row of a request that owns nothing more than what it has to give back. -/
theorem Route.Sound.complete (h : w.Sound) {id : Uuid × String} {status : Nat} {body : String}
    (hfree : ∀ r ∈ w.requests, r.phase.owns → r.request.keyId = id → r.phase = .aborting) :
    Route.Sound { w with keys := w.keys.complete id status body } := by
  refine h.of_keys fun r hr hown k hk hkey _ => ?_
  by_cases hid : Keyed.key k = id
  · refine ⟨{ k with response := some (status, body) }, ?_, rfl, rfl, fun hne => ?_⟩
    · exact Table.mem_update.mpr ⟨k, hk, by rw [if_pos hid]⟩
    · exact absurd (hfree r hr hown (hkey.symm.trans hid)) hne
  · exact ⟨k, Table.mem_update.mpr ⟨k, hk, by rw [if_neg hid]⟩, rfl, rfl, fun _ => rfl⟩

/-- `abort` takes back a key that nobody owns any more. -/
theorem Route.Sound.abort (h : w.Sound) {id : Uuid × String}
    (hfree : ∀ r ∈ w.requests, r.phase.owns → r.request.keyId ≠ id) :
    Route.Sound { w with keys := w.keys.abort id } := by
  refine h.of_keys fun r hr hown k hk hkey _ => ⟨k, Table.mem_deleteWhere.mpr ⟨hk, ?_⟩, rfl, rfl,
    fun _ => rfl⟩
  have hne := hfree r hr hown
  rw [← hkey] at hne
  simp [hne]

/-- The `INSERT` of `begin` goes through where there is no row, so that nobody owns the key. -/
theorem Route.Sound.claim (h : w.Sound) {keys : Claims} (acknowledged : Bool) (hr : r ∈ w.requests)
    (hclaim : w.keys.claim r.request.keyId r.request.hash w.now = some keys) :
    ({ w with keys }.goOn r.requestId acknowledged .claimed).Sound := by
  obtain ⟨hfree, -⟩ := Table.insert?_eq_some.mp hclaim
  have hmem : ∀ k ∈ w.keys, k ∈ keys := fun k hk => (Table.mem_insert? hclaim).mpr (.inl hk)
  have hkeys : Route.Sound { w with keys } :=
    h.of_keys fun r _ _ k hk _ _ => ⟨k, hmem k hk, rfl, rfl, fun _ => rfl⟩
  have hnobody : ∀ r' ∈ w.requests, r'.phase.owns → r'.request.keyId ≠ r.request.keyId := by
    intro r' hr' hown hkey
    obtain ⟨k, hk, hkey', -⟩ := h.held r' hr' hown
    exact hfree k hk (hkey'.trans hkey)
  unfold Route.goOn
  split
  · have hrows : ∀ x ∈ (({ w with keys } : Route).setPhase r.requestId .claimed).requests,
        x = { r with phase := .claimed } ∨ (x ∈ w.requests ∧ x.requestId ≠ r.requestId) := fun x hx =>
      (Table.mem_update_of_find (fun r : GuestRequest => { r with phase := .claimed })
        (fun _ => rfl) (Table.find?_eq_some.mpr ⟨hr, rfl⟩)).mp hx
    refine ⟨h.unclashed, fun a ha b hb hao hbo hkey => ?_, fun a ha hao => ?_,
      fun a ha paymentId hphase => ?_, h.charged, h.once⟩
    · rcases hrows a ha with rfl | ⟨ha, -⟩
      · rcases hrows b hb with rfl | ⟨hb, -⟩
        · rfl
        · exact absurd hkey.symm (hnobody b hb hbo)
      · rcases hrows b hb with rfl | ⟨hb, -⟩
        · exact absurd hkey (hnobody a ha hao)
        · exact h.single a ha b hb hao hbo hkey
    · rcases hrows a ha with rfl | ⟨ha, -⟩
      · refine ⟨_, (Table.mem_insert? hclaim).mpr (.inr rfl), rfl, ?_, fun _ => rfl⟩
        exact Nat.lt_add_of_pos_right (show 0 < CLAIM_MS by decide)
      · exact hkeys.held a ha hao
    · rcases hrows a ha with rfl | ⟨ha, -⟩
      · cases hphase
      · exact h.submitted a ha paymentId hphase
  · exact hkeys.finish _

end Keys

/-! ## One step -/

section Step

variable {w : Route}

theorem Db.HasKey.of_traced {s s' : Db} {id : Uuid × String} (h : s.HasKey id) (ht : Traced s s') :
    s'.HasKey id := by
  obtain ⟨p, hp, hrest, hkey⟩ := h
  obtain ⟨p', hp', -, hrest', -, hkey', -⟩ := ht.payments p hp
  exact ⟨p', hp', hrest'.trans hrest, hkey'.trans hkey⟩

/-- What the ledger does besides. -/
theorem Route.Sound.of_ledger (h : w.Sound) {ledger : World} (ht : Traced w.ledger.db ledger.db) :
    Route.Sound { w with ledger } := by
  refine ⟨ht.unclashed h.unclashed, h.single, h.held, fun r hr paymentId hphase => ?_,
    fun id hid => (h.charged id hid).of_traced ht, h.once⟩
  obtain ⟨hpaid, hnot⟩ := h.submitted r hr paymentId hphase
  exact ⟨hpaid.of_traced ht, hnot⟩

/-- The transaction of `createC2PPayment` commits only under a key that no payment has. -/
theorem submitCharge_key {s s' : Db} {paymentId : Uuid} {now : Time} {q : ChargeRequest}
    {key : String} {row : Payment} (hq : q.idempotencyKey = some key)
    (h : (submitCharge paymentId now q).run s = .ok row s') :
    ¬s.HasKey (q.restaurantId, key) ∧ s'.HasKey (q.restaurantId, key) := by
  unfold submitCharge at h
  simp only [Tx.bind_ok, Tx.orThrow_ok, Tx.withTransaction_ok, Tx.pure_ok] at h
  obtain ⟨amount, _, ⟨-, rfl⟩, tip, _, ⟨-, rfl⟩, bill, s₁, hlock, created, s₂, hrec, _, s₃, hins, rfl,
    rfl⟩ := h
  obtain ⟨-, -, -, rfl⟩ := lockPayableBill_ok hlock
  obtain ⟨hrow, hclash, payments, transitions, shares, hpay, rfl⟩ := recordPayment_ok hrec
  obtain ⟨charges, -, rfl⟩ := insertCharge_ok hins
  have hkey : row.idempotencyKey = some key := hrow.idempotencyKey.trans hq
  refine ⟨?_, row, (Table.mem_insert? hpay).mpr (.inr rfl), hrow.restaurantId, hkey⟩
  rintro ⟨p, hp, hrest, hpkey⟩
  have hne : p.id ≠ row.id := (Table.insert?_eq_some.mp hpay).1 p hp
  obtain ⟨hfree, -⟩ := clash_eq_none.mp (paymentClash_eq_none.mp hclash p hp hne)
  exact hfree ⟨hkey ▸ rfl, hrow.restaurantId.trans hrest.symm, hkey.trans hpkey.symm⟩

/-- The transaction of `createC2PPayment`, whether it is acknowledged or not. -/
theorem Route.Sound.submit (h : w.Sound) {r : GuestRequest} {billId paymentId : Uuid}
    {row : Payment} {s' : Db} (hr : r ∈ w.requests) (hphase : r.phase = .submitting billId)
    (hrun : (submitCharge paymentId w.now (r.request.charge billId)).run w.ledger.db = .ok row s')
    (acknowledged : Bool) :
    ({ w with
        ledger := (LedgerOp.step w.ledger
          (.submitCharge paymentId w.now (r.request.charge billId))).1
      }.setPhase r.requestId (if acknowledged then .submitted row.id else .aborting)).Sound := by
  have ht := traced_step w.ledger (.submitCharge paymentId w.now (r.request.charge billId))
  obtain ⟨hnew, hkey⟩ := submitCharge_key (rfl : _ = some r.request.key) hrun
  have hdb : (LedgerOp.step w.ledger
      (.submitCharge paymentId w.now (r.request.charge billId))).1.db = s' := by
    simp only [LedgerOp.step, hrun]
  refine (h.of_ledger ht).setPhase hr (fun _ => ?_) fun _ _ => ⟨?_, fun hcharged => ?_⟩
  · rw [hphase]
    exact ⟨rfl, by rintro _ ⟨⟩⟩
  · rw [hdb]
    exact hkey
  · exact hnew (h.charged _ hcharged)

/-- The bank is asked for a charge whose payment is committed, and that it was not asked for. -/
theorem Route.Sound.askBank (h : w.Sound) {r : GuestRequest} {paymentId : Uuid}
    (hr : r ∈ w.requests) (hphase : r.phase = .submitted paymentId) :
    ({ w with charged := r.request.keyId :: w.charged }.setPhase r.requestId
      (.charging paymentId)).Sound := by
  obtain ⟨hpaid, hnot⟩ := h.submitted r hr paymentId hphase
  have hown : r.phase.owns := by
    rw [hphase]
    rfl
  have hafter : (w.setPhase r.requestId (.charging paymentId)).Sound := by
    refine h.setPhase hr (fun _ => ⟨hown, fun _ => ?_⟩) nofun
    rw [hphase]
    nofun
  refine ⟨h.unclashed, hafter.single, hafter.held, fun a ha id hsub => ?_, fun id hid => ?_,
    List.nodup_cons.mpr ⟨hnot, h.once⟩⟩
  · obtain ⟨hpaid', hnot'⟩ := hafter.submitted a ha id hsub
    refine ⟨hpaid', fun hcharged => ?_⟩
    rcases List.mem_cons.mp hcharged with hkey | hcharged
    · -- Another request that is about to ask for the same key would own it as well.
      rcases (Table.mem_update_of_find
        (fun r : GuestRequest => { r with phase := .charging paymentId }) (fun _ => rfl)
        (Table.find?_eq_some.mpr ⟨hr, rfl⟩)).mp ha with rfl | ⟨ha, hne⟩
      · cases hsub
      · have haown : a.phase.owns := by
          rw [hsub]
          rfl
        exact hne (h.single a ha r hr haown hown hkey)
    · exact hnot' hcharged
  · rcases List.mem_cons.mp hid with rfl | hid
    · exact hpaid
    · exact h.charged id hid

/-- After its last statement a request owns nothing, and nobody else owned its key. -/
theorem Route.Sound.free (h : w.Sound) {r : GuestRequest} (hr : r ∈ w.requests)
    (hown : r.phase.owns) : ∀ a ∈ (w.finish r.requestId).requests, a.phase.owns →
      a.request.keyId ≠ r.request.keyId := by
  intro a ha haown hkey
  obtain ⟨ha, hne⟩ := Table.mem_deleteWhere.mp ha
  have := h.single a ha r hr haown hown hkey
  simp [this] at hne

/-- The next statement of a request: one case for each phase. -/
theorem Route.Sound.next (h : w.Sound) {r : GuestRequest} (hr : r ∈ w.requests)
    (acknowledged : Bool) : (w.next r acknowledged).1.Sound := by
  unfold Route.next
  cases hphase : r.phase with
  | clearing attempt =>
    have hkeys : Route.Sound { w with keys := w.keys.clearExpired r.request.keyId w.now } :=
      h.expire fun k hk => by simpa using (by simpa using hk : _ ∧ _).2
    exact hkeys.goOn hr acknowledged rfl
  | claiming attempt =>
    simp only
    split
    · rename_i hclaim
      exact h.claim acknowledged hr hclaim
    · exact h.goOn hr acknowledged rfl
  | reading attempt =>
    simp only
    split
    · exact h.finish _
    split
    · exact h.finish _
    · exact h.setPhase_idle hr (.inl rfl)
  | completing body =>
    have hown : r.phase.owns := by
      rw [hphase]
      rfl
    simp only
    split
    · exact (h.finish r.requestId).complete fun a ha haown hkey =>
        absurd hkey (h.free hr hown a ha haown)
    · refine (h.setPhase_idle hr (.inr ⟨rfl, hown⟩)).complete fun a ha haown hkey => ?_
      rcases (Table.mem_update_of_find (fun r : GuestRequest => { r with phase := .aborting })
        (fun _ => rfl) (Table.find?_eq_some.mpr ⟨hr, rfl⟩)).mp ha with rfl | ⟨ha, hne⟩
      · rfl
      · exact absurd (h.single a ha r hr haown hown hkey) hne
  | aborting =>
    have hown : r.phase.owns := by
      rw [hphase]
      rfl
    exact (h.finish r.requestId).abort (h.free hr hown)
  | claimed => exact h
  | submitting billId => exact h
  | submitted paymentId => exact h
  | charging paymentId => exact h

/-- What every step keeps: one case for each. -/
theorem Route.Sound.step (h : w.Sound) (op : RouteOp) (hprompt : w.Prompt op) :
    (route.step w op).1.Sound := by
  cases op with
  | tick now =>
    refine ⟨h.unclashed, h.single, fun r hr hown => ?_, h.submitted, h.charged, h.once⟩
    obtain ⟨k, hk, hkey, -, hnone⟩ := h.held r hr hown
    exact ⟨k, hk, hkey, hprompt r hr hown k hk hkey, hnone⟩
  | purgeExpired => exact h.expire fun k hk => by simpa using hk
  | ledger op hop => exact h.of_ledger (traced_step w.ledger op)
  | arrive requestId request =>
    simp only [route, RouteOp.step]
    split
    · rename_i hins
      refine h.of_requests fun r hr hown => ?_
      rcases (Table.mem_insert? hins).mp hr with hr | rfl
      · exact ⟨r, hr, rfl, rfl, hown, id, fun _ hphase => h.submitted r hr _ hphase⟩
      · cases hown
    · exact h
  | next requestId acknowledged =>
    simp only [route, RouteOp.step]
    split
    · rename_i r hfind
      exact h.next (Table.find?_mem hfind) acknowledged
    · exact h
  | opened requestId bill =>
    simp only [route, RouteOp.step]
    split
    · rename_i id q hfind
      obtain ⟨hr, rfl⟩ := Table.find?_eq_some.mp hfind
      split
      · exact h.setPhase hr (fun _ => ⟨rfl, fun _ => nofun⟩) nofun
      · exact h.setPhase_idle hr (.inr ⟨rfl, rfl⟩)
    · exact h
  | submit requestId paymentId acknowledged =>
    simp only [route, RouteOp.step]
    split
    · rename_i id q billId hfind
      obtain ⟨hr, rfl⟩ := Table.find?_eq_some.mp hfind
      split
      · rename_i hrun
        exact h.submit hr rfl hrun acknowledged
      · exact h.setPhase_idle hr (.inr ⟨rfl, rfl⟩)
    · exact h
  | askBank requestId =>
    simp only [route, RouteOp.step]
    split
    · rename_i id q paymentId hfind
      obtain ⟨hr, rfl⟩ := Table.find?_eq_some.mp hfind
      exact h.askBank hr rfl
    · exact h
  | ended requestId result =>
    simp only [route, RouteOp.step]
    split
    · rename_i id q paymentId hfind
      obtain ⟨hr, rfl⟩ := Table.find?_eq_some.mp hfind
      split
      · exact h.setPhase hr (fun _ => ⟨rfl, fun _ => nofun⟩) nofun
      · exact h.setPhase_idle hr (.inr ⟨rfl, rfl⟩)
    · exact h
  | fail requestId =>
    simp only [route, RouteOp.step]
    split
    · rename_i r hfind
      obtain ⟨hr, rfl⟩ := Table.find?_eq_some.mp hfind
      exact h.throws hr
    · exact h
  | crash requestId => exact h.finish _

end Step

/-! ## What `begin` answers -/

/-- How many statements `begin` may still make. -/
def RequestPhase.left : RequestPhase → Nat
  | .clearing attempt => 3 * (MAX_CLAIM_ATTEMPTS - attempt) + 3
  | .claiming attempt => 3 * (MAX_CLAIM_ATTEMPTS - attempt) + 2
  | .reading attempt => 3 * (MAX_CLAIM_ATTEMPTS - attempt) + 1
  | _ => 0

/-- The step is a statement of the request. -/
def RouteOp.isNext (requestId : Nat) : RouteOp → Bool
  | .next id _ => id = requestId
  | _ => false

/-- The request that arrives. -/
def RouteOp.arrival : RouteOp → Option Nat
  | .arrive requestId _ => some requestId
  | _ => none

section Begin

variable {w : Route} {r r' : GuestRequest}

/-- How a request `r'` came to be where it is after a step. -/
inductive Follows (w : Route) (op : RouteOp) (r' : GuestRequest) : Prop where
  | arrived : op.arrival = some r'.requestId → r'.phase = .clearing 1 → Follows w op r'
  | stayed : r' ∈ w.requests → op.isNext r'.requestId = false → Follows w op r'
  | past : r'.phase.left = 0 → Follows w op r'
  | moved {r : GuestRequest} : r ∈ w.requests → r.requestId = r'.requestId →
      r'.phase.left < r.phase.left → Follows w op r'

theorem mem_setPhase {requests : Table GuestRequest} {phase : RequestPhase} (hr : r ∈ requests)
    (h : r' ∈ requests.update r.requestId (fun r => { r with phase }) fun _ => rfl) :
    r' = { r with phase } ∨ (r' ∈ requests ∧ r'.requestId ≠ r.requestId) :=
  (Table.mem_update_of_find (fun r : GuestRequest => { r with phase }) (fun _ => rfl)
    (Table.find?_eq_some.mpr ⟨hr, rfl⟩)).mp h

theorem follows_finish {op : RouteOp} {requests : Table GuestRequest} {requestId : Nat}
    (hop : ∀ id, id ≠ requestId → op.isNext id = false)
    (hrequests : requests = w.requests)
    (h : r' ∈ requests.deleteWhere fun r => r.requestId = requestId) : Follows w op r' := by
  obtain ⟨hr', hne⟩ := Table.mem_deleteWhere.mp h
  exact .stayed (hrequests ▸ hr') (hop _ (by simpa using hne))

theorem follows_setPhase {op : RouteOp} {requests : Table GuestRequest} {phase : RequestPhase}
    (hop : ∀ id, id ≠ r.requestId → op.isNext id = false) (hr : r ∈ w.requests)
    (hrequests : requests = w.requests) (hphase : phase.left = 0 ∨ phase.left < r.phase.left)
    (h : r' ∈ requests.update r.requestId (fun r => { r with phase }) fun _ => rfl) :
    Follows w op r' := by
  rcases mem_setPhase (hrequests ▸ hr) h with rfl | ⟨hr', hne⟩
  · rcases hphase with hzero | hless
    · exact .past hzero
    · exact .moved hr rfl hless
  · exact .stayed (hrequests ▸ hr') (hop _ hne)

theorem follows_goOn {op : RouteOp} {v : Route} {phase : RequestPhase} {acknowledged : Bool}
    (hop : ∀ id, id ≠ r.requestId → op.isNext id = false) (hr : r ∈ w.requests)
    (hrequests : v.requests = w.requests) (hphase : phase.left = 0 ∨ phase.left < r.phase.left)
    (h : r' ∈ (v.goOn r.requestId acknowledged phase).requests) : Follows w op r' := by
  unfold Route.goOn at h
  split at h
  · exact follows_setPhase hop hr hrequests hphase h
  · exact follows_finish hop hrequests h

/-- The next statement of a request brings it nearer to the end of `begin`, or it is past it. -/
theorem follows_next {acknowledged : Bool} (hr : r ∈ w.requests)
    (h : r' ∈ (w.next r acknowledged).1.requests) :
    Follows w (.next r.requestId acknowledged) r' := by
  have hop : ∀ id, id ≠ r.requestId → RouteOp.isNext id (.next r.requestId acknowledged) = false :=
    fun id hne => by simpa [RouteOp.isNext] using hne.symm
  have hpast : r.phase.left = 0 → r' ∈ w.requests → Follows w (.next r.requestId acknowledged) r' := by
    intro hzero hr'
    by_cases hid : r'.requestId = r.requestId
    · rw [Table.eq_of_key hr' hr hid]
      exact .past hzero
    · exact .stayed hr' (hop _ hid)
  unfold Route.next at h
  cases hphase : r.phase with
  | clearing attempt =>
    rw [hphase] at h
    refine follows_goOn hop hr ?_ (.inr ?_) h
    · rfl
    · rw [hphase]
      simp [RequestPhase.left]
  | claiming attempt =>
    rw [hphase] at h
    simp only at h
    split at h
    · refine follows_goOn hop hr ?_ (.inl ?_) h
      · rfl
      · rfl
    · refine follows_goOn hop hr rfl (.inr ?_) h
      rw [hphase]
      simp [RequestPhase.left]
  | reading attempt =>
    rw [hphase] at h
    simp only at h
    split at h
    · exact follows_finish hop rfl h
    split at h
    · exact follows_finish hop rfl h
    · rename_i hagain
      refine follows_setPhase hop hr rfl (.inr ?_) h
      have hless : ¬MAX_CLAIM_ATTEMPTS ≤ attempt := by
        unfold readClaim at hagain
        split at hagain
        · split at hagain
          · cases hagain
          · assumption
        · split at hagain
          · cases hagain
          · split at hagain
            · split at hagain <;> cases hagain
            · cases hagain
      rw [hphase]
      simp only [RequestPhase.left]
      omega
  | completing body =>
    rw [hphase] at h
    simp only at h
    split at h
    · exact follows_finish hop rfl h
    · exact follows_setPhase hop hr rfl (.inl rfl) h
  | aborting =>
    rw [hphase] at h
    exact follows_finish hop rfl h
  | claimed =>
    rw [hphase] at h
    exact hpast (by rw [hphase]; rfl) h
  | submitting billId =>
    rw [hphase] at h
    exact hpast (by rw [hphase]; rfl) h
  | submitted paymentId =>
    rw [hphase] at h
    exact hpast (by rw [hphase]; rfl) h
  | charging paymentId =>
    rw [hphase] at h
    exact hpast (by rw [hphase]; rfl) h

/-- One case for each operation. -/
theorem follows_step (op : RouteOp) (h : r' ∈ (route.step w op).1.requests) : Follows w op r' := by
  revert h
  cases op with
  | tick now => exact fun h => .stayed h rfl
  | purgeExpired => exact fun h => .stayed h rfl
  | ledger op hop => exact fun h => .stayed h rfl
  | arrive requestId request =>
    simp only [route, RouteOp.step]
    split
    · rename_i hins
      intro h
      rcases (Table.mem_insert? hins).mp h with h | rfl
      · exact .stayed h rfl
      · exact .arrived rfl rfl
    · exact fun h => .stayed h rfl
  | next requestId acknowledged =>
    simp only [route, RouteOp.step]
    split
    · rename_i r hfind
      obtain ⟨hr, rfl⟩ := Table.find?_eq_some.mp hfind
      exact follows_next hr
    · rename_i hnone
      intro h
      refine .stayed h ?_
      have hne : r'.requestId ≠ requestId := Table.find?_eq_none.mp hnone r' h
      simpa [RouteOp.isNext] using Ne.symm hne
  | opened requestId bill =>
    simp only [route, RouteOp.step]
    split
    · rename_i id q hfind
      obtain ⟨hr, rfl⟩ := Table.find?_eq_some.mp hfind
      split
      · exact follows_setPhase (fun _ _ => rfl) hr rfl (.inl rfl)
      · exact follows_setPhase (fun _ _ => rfl) hr rfl (.inl rfl)
    · exact fun h => .stayed h rfl
  | submit requestId paymentId acknowledged =>
    simp only [route, RouteOp.step]
    split
    · rename_i id q billId hfind
      obtain ⟨hr, rfl⟩ := Table.find?_eq_some.mp hfind
      split
      · refine follows_setPhase (fun _ _ => rfl) hr rfl (.inl ?_)
        split <;> rfl
      · exact follows_setPhase (fun _ _ => rfl) hr rfl (.inl rfl)
    · exact fun h => .stayed h rfl
  | askBank requestId =>
    simp only [route, RouteOp.step]
    split
    · rename_i id q paymentId hfind
      obtain ⟨hr, rfl⟩ := Table.find?_eq_some.mp hfind
      exact follows_setPhase (fun _ _ => rfl) hr rfl (.inl rfl)
    · exact fun h => .stayed h rfl
  | ended requestId result =>
    simp only [route, RouteOp.step]
    split
    · rename_i id q paymentId hfind
      obtain ⟨hr, rfl⟩ := Table.find?_eq_some.mp hfind
      split
      · exact follows_setPhase (fun _ _ => rfl) hr rfl (.inl rfl)
      · exact follows_setPhase (fun _ _ => rfl) hr rfl (.inl rfl)
    · exact fun h => .stayed h rfl
  | fail requestId =>
    simp only [route, RouteOp.step]
    split
    · rename_i r hfind
      obtain ⟨hr, rfl⟩ := Table.find?_eq_some.mp hfind
      unfold Route.throws
      split
      · exact follows_finish (fun _ _ => rfl) rfl
      · exact follows_setPhase (fun _ _ => rfl) hr rfl (.inl rfl)
    · exact fun h => .stayed h rfl
  | crash requestId => exact follows_finish (fun _ _ => rfl) rfl

/-- `begin` makes six statements at most. -/
theorem left_le_six (keys : Claims) (db : Db) (now : Time) (ops : List RouteOp) :
    ∀ r ∈ (route.run (.start db keys now) ops).requests, r.phase.left ≤ 6 := by
  have hrun : ∀ (ops : List RouteOp) (w : Route), (∀ r ∈ w.requests, r.phase.left ≤ 6) →
      ∀ r ∈ (route.run w ops).requests, r.phase.left ≤ 6 := by
    intro ops
    induction ops with
    | nil => exact fun _ h => h
    | cons op ops ih =>
      refine fun w h => ih _ fun r hr => ?_
      rcases follows_step op hr with ⟨-, hphase⟩ | ⟨hr, -⟩ | hzero | ⟨hr, -, hless⟩
      · rw [hphase]
        decide
      · exact h r hr
      · omega
      · exact hless.le.trans (h _ hr)
  exact hrun ops _ fun r hr => by cases hr

/-- A request that has made as many statements as `begin` may still make is past it. -/
theorem begin_ends {requestId : Nat} (left : Nat) (later : List RouteOp)
    (hr : ∀ r ∈ w.requests, r.requestId = requestId → r.phase.left ≤ left)
    (harrive : ∀ op ∈ later, op.arrival ≠ some requestId)
    (hcount : left ≤ later.countP (RouteOp.isNext requestId)) :
    ∀ r ∈ (route.run w later).requests, r.requestId = requestId → r.phase.left = 0 := by
  induction later generalizing w left with
  | nil =>
    intro r hmem hid
    have := hr r hmem hid
    simp only [List.countP_nil] at hcount
    omega
  | cons op later ih =>
    refine ih (if op.isNext requestId then left - 1 else left) (fun r hmem hid => ?_)
      (fun op' hop' => harrive op' (List.mem_cons_of_mem _ hop')) ?_
    · rcases follows_step op hmem with ⟨harr, -⟩ | ⟨hmem, hnot⟩ | hzero | ⟨hmem, hsame, hless⟩
      · exact absurd (hid ▸ harr) (harrive op List.mem_cons_self)
      · rw [hid] at hnot
        rw [hnot]
        exact hr r hmem hid
      · omega
      · have := hr _ hmem (hsame.trans hid)
        split <;> omega
    · rw [List.countP_cons] at hcount
      split at hcount
      · rename_i hnext
        rw [if_pos hnext]
        omega
      · rename_i hnext
        rw [if_neg hnext]
        omega

end Begin

section Answers

variable {w : Route} {k : IdempotencyKey} {status : Nat} {body : String}

/-- A row with a response stays until it expires: only its owner could write it, and it has none. -/
theorem Route.Sound.stored_step (h : w.Sound) (hk : k ∈ w.keys)
    (hstored : k.response = some (status, body)) (hfresh : w.now < k.expiresAt) (op : RouteOp) :
    k ∈ (route.step w op).1.keys := by
  have hdelete : ∀ {p : IdempotencyKey → Bool},
      (p k → k.expiresAt ≤ w.now ∨ k.response = none) → k ∈ w.keys.deleteWhere p := by
    intro p hp
    refine Table.mem_deleteWhere.mpr ⟨hk, Bool.eq_false_iff.mpr fun hpk => ?_⟩
    rcases hp hpk with hexpired | hnone
    · exact absurd hexpired (Nat.not_le.mpr hfresh)
    · rw [hstored] at hnone
      cases hnone
  cases op with
  | purgeExpired => exact hdelete fun hpk => .inl (by simpa using hpk)
  | next requestId acknowledged =>
    simp only [route, RouteOp.step]
    split
    · rename_i r hfind
      have hr := Table.find?_mem hfind
      unfold Route.next
      cases hphase : r.phase with
      | clearing attempt =>
        have hmem : k ∈ w.keys.clearExpired r.request.keyId w.now :=
          hdelete fun hpk => .inl (by simpa using (by simpa using hpk : _ ∧ _).2)
        simp only [Route.goOn]
        split
        · exact hmem
        · exact hmem
      | claiming attempt =>
        simp only [Route.goOn]
        split
        · rename_i hclaim
          have hmem := (Table.mem_insert? hclaim).mpr (.inl hk)
          split
          · exact hmem
          · exact hmem
        · split
          · exact hk
          · exact hk
      | reading attempt =>
        simp only
        split
        · exact hk
        split
        · exact hk
        · exact hk
      | completing body' =>
        have hne : Keyed.key k ≠ r.request.keyId := by
          intro hkey
          obtain ⟨k', hk', hkey', -, hnone⟩ := h.held r hr (by rw [hphase]; rfl)
          have hsame : k' = k := Table.eq_of_key hk' hk (hkey'.trans hkey.symm)
          rw [hsame, hstored] at hnone
          exact absurd (hnone (by rw [hphase]; nofun)) nofun
        have hmem : k ∈ w.keys.complete r.request.keyId 201 body' :=
          Table.mem_update.mpr ⟨k, hk, by rw [if_neg hne]⟩
        simp only
        split
        · exact hmem
        · exact hmem
      | aborting =>
        exact hdelete fun hpk => .inr (by simpa using (by simpa using hpk : _ ∧ _).2)
      | claimed => exact hk
      | submitting billId => exact hk
      | submitted paymentId => exact hk
      | charging paymentId => exact hk
    · exact hk
  | tick now => exact hk
  | ledger op hop => exact hk
  | arrive requestId request =>
    simp only [route, RouteOp.step]
    split
    · exact hk
    · exact hk
  | opened requestId bill =>
    simp only [route, RouteOp.step]
    split
    · split
      · exact hk
      · exact hk
    · exact hk
  | submit requestId paymentId acknowledged =>
    simp only [route, RouteOp.step]
    split
    · split
      · exact hk
      · exact hk
    · exact hk
  | askBank requestId =>
    simp only [route, RouteOp.step]
    split
    · exact hk
    · exact hk
  | ended requestId result =>
    simp only [route, RouteOp.step]
    split
    · split
      · exact hk
      · exact hk
    · exact hk
  | fail requestId =>
    simp only [route, RouteOp.step, Route.throws]
    split
    · split
      · exact hk
      · exact hk
    · exact hk
  | crash requestId => exact hk

/-- What a request is answered by `begin`, and where: a claim that it inserts, or a row that it
reads. -/
theorem answer_of_step {op : RouteOp} {a : BeginAnswer} (h : a ∈ (route.step w op).2) :
    (a.result = .ok .owner ∧ ∃ keys, w.keys.claim a.request.keyId a.request.hash w.now = some keys) ∨
    ∃ attempt, readClaim (w.keys.find? a.request.keyId) a.request.hash attempt = some a.result := by
  revert h
  cases op with
  | next requestId acknowledged =>
    simp only [route, RouteOp.step]
    split
    · rename_i r hfind
      unfold Route.next
      cases r.phase with
      | claiming attempt =>
        simp only
        split
        · rename_i keys hclaim
          split
          · intro h
            obtain rfl := List.mem_singleton.mp h
            exact .inl ⟨rfl, keys, hclaim⟩
          · nofun
        · nofun
      | reading attempt =>
        simp only
        split
        · nofun
        split
        · rename_i result hread
          intro h
          obtain rfl := List.mem_singleton.mp h
          exact .inr ⟨attempt, hread⟩
        · nofun
      | _ => nofun
    · nofun
  | arrive | opened | submit | askBank | ended | fail =>
    simp only [route, RouteOp.step]
    split <;> try split
    all_goals nofun
  | _ => nofun

/-- `begin` ends as the owner, with a response to replay, or with one of its two refusals. -/
theorem answer_cases {op : RouteOp} {a : BeginAnswer} (h : a ∈ (route.step w op).2) :
    a.result = .ok .owner ∨ (∃ status body, a.result = .ok (.replay status body)) ∨
      a.result = .error keyReused ∨ a.result = .error inFlight := by
  rcases answer_of_step h with ⟨howner, -⟩ | ⟨attempt, hread⟩
  · exact .inl howner
  right
  unfold readClaim at hread
  split at hread
  · split at hread
    · exact .inr (.inr (Option.some.inj hread).symm)
    · cases hread
  · split at hread
    · exact .inr (.inl (Option.some.inj hread).symm)
    · split at hread
      · split at hread
        · exact .inl ⟨_, _, (Option.some.inj hread).symm⟩
        · exact .inr (.inr (Option.some.inj hread).symm)
      · exact .inr (.inr (Option.some.inj hread).symm)

/-- A stored response is what `begin` answers with, and it refuses another request. -/
def Stored (k : IdempotencyKey) (status : Nat) (body : String) (a : BeginAnswer) : Prop :=
  a.request.keyId = Keyed.key k →
    a.result = if a.request.hash = k.requestHash then .ok (.replay status body)
      else .error keyReused

theorem stored_answer {op : RouteOp} {a : BeginAnswer} (hk : k ∈ w.keys)
    (hstored : k.response = some (status, body)) (hstatus : status ≠ 0)
    (h : a ∈ (route.step w op).2) : Stored k status body a := by
  intro hkey
  rcases answer_of_step h with ⟨-, keys, hclaim⟩ | ⟨attempt, hread⟩
  · exact absurd hkey.symm ((Table.insert?_eq_some.mp hclaim).1 k hk)
  · rw [Table.find?_eq_some.mpr ⟨hk, hkey.symm⟩] at hread
    simp only [readClaim, hstored] at hread
    by_cases hhash : a.request.hash = k.requestHash
    · rw [if_neg (not_not.mpr hhash.symm), if_pos hstatus] at hread
      rw [if_pos hhash]
      exact (Option.some.inj hread).symm
    · rw [if_pos (Ne.symm hhash)] at hread
      rw [if_neg hhash]
      exact (Option.some.inj hread).symm

/-- Until it expires. -/
theorem Route.Sound.stored_answers (h : w.Sound) (hk : k ∈ w.keys)
    (hstored : k.response = some (status, body)) (hstatus : status ≠ 0) (later : List RouteOp)
    (hlater : route.Every (fun v op => v.Prompt op ∧ v.now < k.expiresAt) w later) :
    ∀ a ∈ route.outputs w later, Stored k status body a :=
  Machine.forall_outputs (I := fun v => v.Sound ∧ k ∈ v.keys)
    (fun _ op hv hg => ⟨hv.1.step op hg.1, hv.1.stored_step hv.2 hstored hg.2 op⟩)
    (fun _ _ hv _ _ => stored_answer hv.2 hstored hstatus) ⟨h, hk⟩ hlater

end Answers

/-! ## Whole runs -/

/-- Any number of requests, after any steps in which no claim expires while its owner runs: a request
that owns its key has a row for it and no other request owns it; `begin` ends as the owner, with a
replay or with one of two refusals, and after six of its statements at most; a response that is
stored is what `begin` answers with until it expires; and the bank is asked for one charge for each
key, after the one payment that has this key was committed. -/
theorem charged_once (db : Db) (hunclashed : db.Unclashed) (keys : Claims) (now : Time)
    (ops : List RouteOp) (hprompt : route.Every Route.Prompt (.start db keys now) ops) :
    let w := route.run (.start db keys now) ops
    (∀ r ∈ w.requests, r.phase.owns → (∃ k ∈ w.keys, Keyed.key k = r.request.keyId) ∧
      ∀ r' ∈ w.requests, r'.phase.owns → r'.request.keyId = r.request.keyId →
        r'.requestId = r.requestId) ∧
    (∀ a ∈ route.outputs (.start db keys now) ops, a.result = .ok .owner ∨
      (∃ status body, a.result = .ok (.replay status body)) ∨ a.result = .error keyReused ∨
      a.result = .error inFlight) ∧
    (∀ r ∈ w.requests, ∀ later, (∀ op ∈ later, op.arrival ≠ some r.requestId) →
      6 ≤ later.countP (RouteOp.isNext r.requestId) →
        ∀ r' ∈ (route.run w later).requests, r'.requestId = r.requestId → r'.phase.owns) ∧
    (∀ k ∈ w.keys, ∀ status body, k.response = some (status, body) → status ≠ 0 → ∀ later,
      route.Every (fun v op => v.Prompt op ∧ v.now < k.expiresAt) w later →
        ∀ a ∈ route.outputs w later, Stored k status body a) ∧
    (w.charged.Nodup ∧ ∀ id ∈ w.charged, w.ledger.db.HasKey id) ∧
    ∀ p ∈ w.ledger.db.payments, ∀ q ∈ w.ledger.db.payments, p.restaurantId = q.restaurantId →
      p.idempotencyKey = q.idempotencyKey → p.idempotencyKey.isSome → p = q := by
  intro w
  have h : w.Sound :=
    Machine.invariant (fun _ op h hg => Route.Sound.step h op hg) (.start hunclashed keys now) hprompt
  refine ⟨fun r hr hown => ⟨?_, fun r' hr' hown' hkey => h.single r' hr' r hr hown' hown hkey⟩,
    ?_, fun r hr later harrive hcount r' hr' hid => ?_, fun k hk status body hstored hstatus later =>
      h.stored_answers hk hstored hstatus later, ⟨h.once, h.charged⟩, fun p hp q hq hrest hkey hsome => ?_⟩
  · obtain ⟨k, hk, hkey, -⟩ := h.held r hr hown
    exact ⟨k, hk, hkey⟩
  · exact Machine.forall_outputs (I := fun _ => True) (G := Route.Prompt) (fun _ _ _ _ => trivial)
      (fun _ _ _ _ _ ha => answer_cases ha) trivial hprompt
  · have hzero := begin_ends 6 later (fun r hr _ => left_le_six keys db now ops r hr) harrive hcount
      r' hr' hid
    revert hzero
    cases r'.phase <;> simp [RequestPhase.left, RequestPhase.owns]
  · by_contra hne
    have hids : q.id ≠ p.id := fun hid => hne (Table.eq_of_key hp hq hid.symm)
    exact (clash_eq_none.mp (h.unclashed p hp q hq hids)).1 ⟨hsome, hrest, hkey⟩

/-- A diner pays twice with one key: the second request is refused while the first runs, and a third
replays its response. -/
theorem evening_charged_once :
    let q : C2PRequest := ⟨1, "k", "h", some 40, ⟨"0105", "V1", "04141234567", "1"⟩, none, some 0⟩
    let w := route.run (.start evening ∅ 0)
      [ .arrive 1 q, .next 1 true, .next 1 true, .opened 1 (.ok 10),
        .arrive 2 q, .next 2 true, .next 2 true, .next 2 true,
        .submit 1 21 true, .askBank 1, .ended 1 (.ok "SUCCEEDED"), .next 1 true,
        .arrive 3 q, .next 3 true, .next 3 true, .next 3 true ]
    w.charged = [(1, "k")] ∧ w.keys.rows.map (fun k => k.response) = [some (201, "SUCCEEDED")] ∧
      w.charged.Nodup :=
  ⟨by decide +kernel, by decide +kernel,
    (charged_once evening (by decide) ∅ 0 _ (by simp [Machine.Every, Route.Prompt])).2.2.2.2.1.1⟩

end Splite
