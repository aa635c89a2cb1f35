import Splite.Ledger.BillItems
import Splite.Ledger.C2P
import Splite.Ledger.Webhooks
import Splite.Lib.Machine

/-!
# Runs of the ledger

Every transaction is one step, in whatever order the row locks let them through. The two calls that
ask the bank are kept with what they know between their transactions, so that anything may happen
while they wait.

* `step_effect`: what a step does to the database is the effect of one transaction.
* `World.Sound.step`: a charge that waits for its reply stays as it was submitted, whatever the
  others do.
* `run_refines`: along a run every bill goes through the steps of an account.
* `step_refused`: an operation that throws has written nothing.
* `ledger_balanced`: cache and ledger agree on every bill, no bill is overpaid, a closed bill is
  paid or written off, a void one is not paid.
-/

namespace Splite

open Mercantil (ChargeError ChargeResult Match Movement matchInDoubtPayment)

/-- A call of `createC2PPayment` that has submitted its charge. It waits for the reply, or for its
approval to be parked. -/
structure ChargeCall where
  paymentId : Uuid
  restaurantId : Uuid
  billId : Uuid
  amount : Int
  parking : Option Parking

/-- Where a call of `resolveC2PPayment` is. -/
inductive ResolveStage where
  | expired
  | searching
  | decided (found : Match)
  | parking (parking : Parking)

/-- A call of `resolveC2PPayment` that has read a charge in doubt. -/
structure ResolveCall where
  callId : Uuid
  charge : ChargeSnapshot
  askedAt : Time
  actorUserId : Option Uuid
  stage : ResolveStage

structure World where
  db : Db
  charges : List ChargeCall
  resolves : List ResolveCall

/-- No call is waiting for the bank. -/
def World.idle (db : Db) : World := ⟨db, [], []⟩

inductive LedgerOp where
  | processSplitPayment (paymentId : Uuid) (now : Time) (p : SplitPayment)
  | declareClaim (paymentId : Uuid) (now : Time) (c : ClaimRequest)
  | confirmClaim (restaurantId claimId : Uuid) (via : ConfirmedVia) (bankMovementId : Option Uuid)
  | rejectClaim (restaurantId claimId : Uuid) (reason : Option String)
  | settleFromWebhook (providerCode : Provider) (parsed : ParsedDelivery)
  | addItem (itemId restaurantId billId productId : Uuid) (quantity : Int)
  | updateQuantity (restaurantId billId itemId : Uuid) (quantity : Int)
  | removeItem (restaurantId billId itemId : Uuid)
  | settleBill (adjustmentId restaurantId billId : Uuid) (body : SettleRequest)
  | voidBill (restaurantId billId : Uuid)
  /-- `createC2PPayment` is called. -/
  | submitCharge (paymentId : Uuid) (now : Time) (r : ChargeRequest)
  /-- Its `charge` returns or throws. -/
  | bankReplies (paymentId : Uuid) (now : Time) (reply : Except ChargeError ChargeResult)
  /-- It parks an approval that the bill did not take. -/
  | parkCharge (paymentId : Uuid) (now : Time)
  /-- `resolveC2PPayment` is called. -/
  | resolveCharge (callId : Uuid) (now : Time) (restaurantId paymentId : Uuid)
      (actorUserId : Option Uuid)
  /-- It gives up on a charge that is too old. -/
  | expireResolution (callId : Uuid) (now : Time)
  /-- Its `search` returns, and it looks up which references are spent. -/
  | bankShows (callId : Uuid) (movements : List Movement)
  /-- Its `search` throws. -/
  | bankUnreachable (callId : Uuid)
  /-- It acts on what it decided. -/
  | settleResolution (callId : Uuid) (now : Time)
  /-- It parks a charge whose movement the bill did not take. -/
  | parkResolution (callId : Uuid) (now : Time)

namespace World

/-- A transaction whose failure is answered with. -/
def transact {α : Type} (w : World) (x : Tx Err Db α) : World × List Err :=
  match x.run w.db with
  | .ok _ db => ({ w with db }, [])
  | .error err db => ({ w with db }, [err])

/-- A transaction whose failure is logged and swallowed. -/
def transactQuietly {α : Type} (w : World) (x : Tx Err Db α) : World := { w with db := x.exec w.db }

def dropCharge (w : World) (paymentId : Uuid) : World :=
  { w with charges := w.charges.filter fun c => c.paymentId ≠ paymentId }

/-- An approval that is to be parked. -/
def setParking (w : World) (paymentId : Uuid) (parking : Parking) : World :=
  { w with charges := w.charges.map fun c =>
      if c.paymentId = paymentId then { c with parking := some parking } else c }

def dropResolve (w : World) (callId : Uuid) : World :=
  { w with resolves := w.resolves.filter fun c => c.callId ≠ callId }

def setStage (w : World) (callId : Uuid) (stage : ResolveStage) : World :=
  { w with resolves := w.resolves.map fun c => if c.callId = callId then { c with stage } else c }

/-- `createC2PPayment`, once `client.charge` has returned or thrown. -/
def afterReply (w : World) (c : ChargeCall) (now : Time) :
    Except ChargeError ChargeResult → World × List Err
  | .error (.c2p .bankIndeterminate _) =>
    ((w.transactQuietly (moveTo c.restaurantId c.paymentId .inDoubt
      "Mercantil returned no conclusive response")).dropCharge c.paymentId, [])
  | .error _ =>
    (w.dropCharge c.paymentId).transact
      (moveTo c.restaurantId c.paymentId .failed "Rejected by Mercantil")
  | .ok (.failed reason) =>
    (w.dropCharge c.paymentId).transact
      (moveTo c.restaurantId c.paymentId .failed
        (if reason = "" then "Rejected by Mercantil" else reason))
  | .ok (.succeeded providerPaymentId bankReference) =>
    let reference := referenceFor providerPaymentId bankReference
    match (settleApproved c.restaurantId c.billId c.paymentId c.amount reference now).run w.db with
    | .ok _ db => ({ w with db }.dropCharge c.paymentId, [])
    | .error err db =>
      ({ w with
          db
          charges := w.charges.map fun c' =>
            if c'.paymentId = c.paymentId then { c' with parking := some ⟨reference, err, none⟩ }
            else c' }, [])

/-- The end of `resolveC2PPayment`. -/
def afterDecision (w : World) (c : ResolveCall) (found : Match) (now : Time) : World × List Err :=
  match (settleResolution c.charge found c.askedAt now c.actorUserId).run w.db with
  | .ok _ db => ({ w with db }.dropResolve c.callId, [])
  | .error err db =>
    match unappliable found err c.actorUserId with
    | some parking => ({ w with db }.setStage c.callId (.parking parking), [])
    | none =>
      ({ w with db }.dropResolve c.callId, [asReferenceConflict (matchedReference found) err])

end World

/-- One step, with the error that its operation throws. -/
def LedgerOp.step (w : World) : LedgerOp → World × List Err
  | .processSplitPayment paymentId now p => w.transact (Splite.processSplitPayment paymentId now p)
  | .declareClaim paymentId now c => w.transact (Splite.declareClaim paymentId now c)
  | .confirmClaim restaurantId claimId via bankMovementId =>
    w.transact (Splite.confirmClaim restaurantId claimId via bankMovementId)
  | .rejectClaim restaurantId claimId reason =>
    w.transact (Splite.rejectClaim restaurantId claimId reason)
  | .settleFromWebhook providerCode parsed =>
    w.transact (Splite.settleFromWebhook providerCode parsed)
  | .addItem itemId restaurantId billId productId quantity =>
    w.transact (Splite.addItem itemId restaurantId billId productId quantity)
  | .updateQuantity restaurantId billId itemId quantity =>
    w.transact (Splite.updateQuantity restaurantId billId itemId quantity)
  | .removeItem restaurantId billId itemId =>
    w.transact (Splite.removeItem restaurantId billId itemId)
  | .settleBill adjustmentId restaurantId billId body =>
    w.transact (Splite.settleBill adjustmentId restaurantId billId body)
  | .voidBill restaurantId billId => w.transact (Splite.voidBill restaurantId billId)
  | .submitCharge paymentId now r =>
    match (Splite.submitCharge paymentId now r).run w.db with
    | .ok p db =>
      ({ w with
          db
          charges := w.charges ++ [⟨p.id, r.restaurantId, r.billId, p.amountVes, none⟩] }, [])
    | .error err db => ({ w with db }, [err])
  | .bankReplies paymentId now reply =>
    match w.charges.find? fun c => c.paymentId = paymentId ∧ c.parking.isNone with
    | some c => w.afterReply c now reply
    | none => (w, [])
  | .parkCharge paymentId now =>
    match w.charges.find? fun c => c.paymentId = paymentId with
    | some ⟨_, restaurantId, _, _, some parking⟩ =>
      ((w.transactQuietly (parkUnappliable restaurantId paymentId parking now)).dropCharge paymentId,
        [])
    | _ => (w, [])
  | .resolveCharge callId now restaurantId paymentId actorUserId =>
    match (readCharge restaurantId paymentId).run w.db with
    | .ok c _ =>
      if c.status ≠ .inDoubt then (w, [])
      else
        let stage := if c.Expired now then .expired else .searching
        ({ w with resolves := w.resolves ++ [⟨callId, c, now, actorUserId, stage⟩] }, [])
    | .error err _ => (w, [err])
  | .expireResolution callId now =>
    match w.resolves.find? fun c => c.callId = callId with
    | some ⟨_, charge, _, actorUserId, .expired⟩ =>
      (w.dropResolve callId).transact (Splite.expireResolution charge now actorUserId)
    | _ => (w, [])
  | .bankShows callId movements =>
    match w.resolves.find? fun c => c.callId = callId with
    | some ⟨_, charge, _, _, .searching⟩ =>
      (w.setStage callId (.decided (matchInDoubtPayment movements charge.chargedVes
        charge.payerPhoneLast4 (w.db.consumedReferences movements))), [])
    | _ => (w, [])
  | .bankUnreachable callId =>
    match w.resolves.find? fun c => c.callId = callId with
    | some ⟨_, _, _, _, .searching⟩ =>
      (w.dropResolve callId, [.api .paymentResolutionUnavailable
        "Could not reach Mercantil to resolve this charge" [("retryAfterSeconds", "60")]])
    | _ => (w, [])
  | .settleResolution callId now =>
    match w.resolves.find? fun c => c.callId = callId with
    | some ⟨id, charge, askedAt, actorUserId, .decided found⟩ =>
      w.afterDecision ⟨id, charge, askedAt, actorUserId, .decided found⟩ found now
    | _ => (w, [])
  | .parkResolution callId now =>
    match w.resolves.find? fun c => c.callId = callId with
    | some ⟨_, charge, _, _, .parking parking⟩ =>
      ((w.transactQuietly (parkUnappliable charge.restaurantId charge.paymentId parking
        now)).dropResolve callId, [])
    | _ => (w, [])

/-- The ledger as a machine that answers with the errors it throws. -/
def ledger : Machine World LedgerOp Err := ⟨LedgerOp.step⟩

/-! ## Charges that wait for their reply -/

/-- The part of a call that its payment was recorded with. -/
def ChargeCall.data (c : ChargeCall) : Uuid × Uuid × Int := (c.paymentId, c.billId, c.amount)

theorem paymentIds_eq (cs : List ChargeCall) :
    cs.map ChargeCall.paymentId = (cs.map ChargeCall.data).map Prod.fst := by
  rw [List.map_map]
  rfl

/-- The database is sound, each call has a charge of its own in flight, recorded with the amount and
the bill of the call, and no resolution is about a charge in flight. -/
structure World.Sound (w : World) : Prop where
  db : w.db.Sound
  distinct : (w.charges.map ChargeCall.paymentId).Nodup
  charge : ∀ c ∈ w.charges, ∃ p ∈ w.db.payments, p.id = c.paymentId ∧ p.InFlight ∧
    p.billId = c.billId ∧ p.amountVes = c.amount
  resolve : ∀ c ∈ w.resolves, ∃ p ∈ w.db.payments,
    p.id = c.charge.paymentId ∧ p.status ≠ .pending

variable {w w' : World} {own : Option Uuid}

theorem World.Sound.idle {db : Db} (h : db.Sound) : (World.idle db).Sound :=
  ⟨h, List.nodup_nil, by simp [World.idle], by simp [World.idle]⟩

/-- The effect of a transaction, with no new call: the calls that are left are those of before, and
the transaction's own charge is not among them. -/
theorem World.Sound.of_effect (h : w.Sound) (heff : Effect own w.db w'.db)
    (hcharges : (w'.charges.map ChargeCall.data).Sublist (w.charges.map ChargeCall.data))
    (hown : ∀ c ∈ w'.charges, own ≠ some c.paymentId)
    (hresolves : ∀ c ∈ w'.resolves, ∃ c₀ ∈ w.resolves, c₀.charge.paymentId = c.charge.paymentId) :
    w'.Sound := by
  refine ⟨h.db.of_refines heff.refines, ?_, fun c hc => ?_, fun c hc => ?_⟩
  · rw [paymentIds_eq]
    have hdistinct := h.distinct
    rw [paymentIds_eq] at hdistinct
    exact hdistinct.sublist (hcharges.map Prod.fst)
  · obtain ⟨c₀, hc₀, hdata⟩ := List.mem_map.mp (hcharges.subset (List.mem_map_of_mem hc))
    obtain ⟨p, hp, hid, hfl, hbill, hamount⟩ := h.charge c₀ hc₀
    obtain ⟨e1, e2, e3⟩ : c₀.paymentId = c.paymentId ∧ c₀.billId = c.billId ∧
        c₀.amount = c.amount := by simpa [ChargeCall.data] using hdata
    have hp' := heff.inFlight p hp hfl (by rw [hid, e1]; exact hown c hc)
    exact ⟨p, hp', hid.trans e1, hfl, hbill.trans e2, hamount.trans e3⟩
  · obtain ⟨c₀, hc₀, hid₀⟩ := hresolves c hc
    obtain ⟨p, hp, hid, hne⟩ := h.resolve c₀ hc₀
    obtain ⟨p', hp', hid', hne'⟩ := heff.started p hp hne
    exact ⟨p', hp', hid'.trans (hid.trans hid₀), hne'⟩

/-- A transaction that is nobody's charge, with the calls left as they are. -/
theorem World.Sound.of_effect_none (h : w.Sound) (heff : Effect none w.db w'.db)
    (hcharges : w'.charges = w.charges) (hresolves : w'.resolves = w.resolves) : w'.Sound :=
  h.of_effect heff (by rw [hcharges]) (fun _ _ => by simp) fun c hc => ⟨c, hresolves ▸ hc, rfl⟩

/-! ## One step -/

/-- A step has the effect of a transaction, keeps the invariant, and leaves the database as it is
when it throws. -/
structure Fair (w : World) (r : World × List Err) : Prop where
  effect : ∃ own, Effect own w.db r.1.db
  sound : r.1.Sound
  refused : r.2 ≠ [] → r.1.db = w.db

theorem World.Sound.fair_nothing (h : w.Sound) (errs : List Err) : Fair w (w, errs) :=
  ⟨⟨none, .refl _ _⟩, h, fun _ => rfl⟩

theorem World.Sound.fair_transact {α : Type} {x : Tx Err Db α} (h : w.Sound)
    (hatomic : Tx.Atomic x) (hx : ∀ a s', x.run w.db = .ok a s' → Effect none w.db s') :
    Fair w (w.transact x) := by
  unfold World.transact
  cases hrun : x.run w.db with
  | ok a db =>
    have heff := hx a db hrun
    exact ⟨⟨none, heff⟩, h.of_effect_none heff rfl rfl, by simp⟩
  | error err db =>
    obtain rfl := hatomic _ _ _ hrun
    exact ⟨⟨none, .refl _ _⟩, h, fun _ => rfl⟩

/-- A transaction that ends badly leaves the database; one that ends well has its effect. -/
theorem exec_effect {α : Type} {x : Tx Err Db α} {s : Db} (hatomic : Tx.Atomic x)
    (hx : ∀ a s', x.run s = .ok a s' → Effect own s s') : Effect own s (x.exec s) := by
  cases hrun : x.run s with
  | ok a s' =>
    rw [Tx.exec_of_ok hrun]
    exact hx a s' hrun
  | error err s' =>
    rw [hatomic.exec_of_error hrun]
    exact .refl _ _

/-! ### The calls of `createC2PPayment` -/

/-- The charge of a call, as it is found. -/
theorem World.Sound.find_charge (h : w.Sound) {c : ChargeCall} (hc : c ∈ w.charges) :
    ∃ p, w.db.payments.find? c.paymentId = some p ∧ p.InFlight ∧ p.billId = c.billId ∧
      p.amountVes = c.amount := by
  obtain ⟨p, hp, hid, hfl, hbill, hamount⟩ := h.charge c hc
  exact ⟨p, Table.find?_eq_some.mpr ⟨hp, hid⟩, hfl, hbill, hamount⟩

theorem World.Sound.drop (h : w.Sound) {db : Db} {paymentId : Uuid}
    (heff : Effect (some paymentId) w.db db) : ({ w with db }.dropCharge paymentId).Sound := by
  refine h.of_effect heff (List.filter_sublist.map _) (fun c hc he => ?_) fun c hc => ⟨c, hc, rfl⟩
  have hne := (List.mem_filter.mp hc).2
  simp only [Option.some.injEq] at he
  simp [he] at hne

theorem World.Sound.set_parking (h : w.Sound) (paymentId : Uuid) (parking : Parking) :
    (w.setParking paymentId parking).Sound := by
  refine h.of_effect (.refl none _) ?_ (fun _ _ => by simp) fun c hc => ⟨c, hc, rfl⟩
  have hdata : ∀ c : ChargeCall, ChargeCall.data
      (if c.paymentId = paymentId then { c with parking := some parking } else c) = c.data := by
    intro c
    split <;> rfl
  unfold World.setParking
  rw [List.map_map]
  exact List.map_congr_left (fun c _ => hdata c) ▸ List.Sublist.refl _

theorem World.Sound.fair_own {α : Type} {x : Tx Err Db α} {paymentId : Uuid} (h : w.Sound)
    (hatomic : Tx.Atomic x)
    (hx : ∀ a s', x.run w.db = .ok a s' → Effect (some paymentId) w.db s') :
    Fair w ((w.dropCharge paymentId).transact x) := by
  unfold World.transact
  have hdb : (w.dropCharge paymentId).db = w.db := rfl
  rw [hdb]
  cases hrun : x.run w.db with
  | ok a db => exact ⟨⟨_, hx a db hrun⟩, h.drop (hx a db hrun), by simp⟩
  | error err db =>
    obtain rfl := hatomic _ _ _ hrun
    exact ⟨⟨none, .refl _ _⟩, h.drop (.refl _ _), fun _ => rfl⟩

theorem World.Sound.fair_quiet {α : Type} {x : Tx Err Db α} {paymentId : Uuid} (h : w.Sound)
    (hatomic : Tx.Atomic x)
    (hx : ∀ a s', x.run w.db = .ok a s' → Effect (some paymentId) w.db s') :
    Fair w ((w.transactQuietly x).dropCharge paymentId, []) :=
  ⟨⟨_, exec_effect hatomic hx⟩, h.drop (exec_effect hatomic hx), by simp⟩

theorem atomic_tx {α : Type} (x : Tx Err Db α) : Tx.Atomic (Tx.withTransaction x) :=
  Tx.atomic_withTransaction x fun _ _ => rfl

theorem atomic_processSplitPayment (paymentId : Uuid) (now : Time) (p : SplitPayment) :
    Tx.Atomic (processSplitPayment paymentId now p) :=
  Tx.atomic_orThrow_bind fun _ => Tx.atomic_orThrow_bind fun _ => atomic_tx _

theorem atomic_declareClaim (paymentId : Uuid) (now : Time) (c : ClaimRequest) :
    Tx.Atomic (declareClaim paymentId now c) :=
  Tx.atomic_orThrow_bind fun _ => Tx.atomic_mapError (atomic_tx _)

theorem atomic_submitCharge (paymentId : Uuid) (now : Time) (r : ChargeRequest) :
    Tx.Atomic (submitCharge paymentId now r) :=
  Tx.atomic_orThrow_bind fun _ => Tx.atomic_orThrow_bind fun _ => atomic_tx _

theorem World.Sound.fair_submitCharge (h : w.Sound) (paymentId : Uuid) (now : Time)
    (r : ChargeRequest) : Fair w (LedgerOp.step w (.submitCharge paymentId now r)) := by
  simp only [LedgerOp.step]
  cases hrun : (submitCharge paymentId now r).run w.db with
  | ok p db =>
    obtain ⟨heff, hp, hfresh, hfl, -, hbill⟩ := submitCharge_effect hrun
    refine ⟨⟨none, heff⟩, ⟨h.db.of_refines heff.refines, ?_, fun c hc => ?_, fun c hc => ?_⟩, by simp⟩
    · -- No call that waits already is about a payment of the new id.
      rw [List.map_append, List.map_singleton, List.nodup_append]
      refine ⟨h.distinct, List.nodup_singleton _, fun a ha b hb hab => ?_⟩
      obtain ⟨c, hc, rfl⟩ := List.mem_map.mp ha
      obtain ⟨q, hq, hid, -⟩ := h.charge c hc
      have hb : b = p.id := List.mem_singleton.mp hb
      exact hfresh q hq (by rw [hid, hab, hb])
    · rcases List.mem_append.mp hc with hc | hc
      · obtain ⟨q, hq, hid, hqfl, hqbill, hqamount⟩ := h.charge c hc
        exact ⟨q, heff.inFlight q hq hqfl (by simp), hid, hqfl, hqbill, hqamount⟩
      · obtain rfl := List.mem_singleton.mp hc
        exact ⟨p, hp, rfl, hfl, hbill, rfl⟩
    · obtain ⟨q, hq, hid, hne⟩ := h.resolve c hc
      obtain ⟨q', hq', hid', hne'⟩ := heff.started q hq hne
      exact ⟨q', hq', hid'.trans hid, hne'⟩
  | error err db =>
    obtain rfl := atomic_submitCharge paymentId now r _ _ _ hrun
    exact ⟨⟨none, .refl _ _⟩, h, fun _ => rfl⟩

theorem World.Sound.fair_afterReply (h : w.Sound) {c : ChargeCall} (hc : c ∈ w.charges) (now : Time)
    (reply : Except ChargeError ChargeResult) : Fair w (w.afterReply c now reply) := by
  obtain ⟨p, hp, hfl, hbill, hamount⟩ := h.find_charge hc
  have hmove : ∀ toStatus reason, (toStatus = .inDoubt ∨ toStatus = .ambiguous ∨ toStatus = .failed) →
      ∀ m s', (moveTo c.restaurantId c.paymentId toStatus reason).run w.db = .ok m s' →
        Effect (some c.paymentId) w.db s' := fun _ _ hto _ _ hrun =>
    moveTo_effect hto hp (.inr rfl) hrun
  unfold World.afterReply
  split
  · exact h.fair_quiet (atomic_tx _) (hmove _ _ (.inl rfl))
  · exact h.fair_own (atomic_tx _) (hmove _ _ (.inr (.inr rfl)))
  · exact h.fair_own (atomic_tx _) (hmove _ _ (.inr (.inr rfl)))
  · rename_i providerPaymentId bankReference
    simp only
    cases hrun : (settleApproved c.restaurantId c.billId c.paymentId c.amount
        (referenceFor providerPaymentId bankReference) now).run w.db with
    | ok v db =>
      rw [← hbill, ← hamount] at hrun
      have heff := settleApproved_effect hp hfl.1 hrun
      exact ⟨⟨_, heff⟩, h.drop heff, by simp⟩
    | error err db =>
      obtain rfl := atomic_tx _ _ _ _ hrun
      exact ⟨⟨none, .refl _ _⟩, h.set_parking _ _, by simp⟩

/-! ### The calls of `resolveC2PPayment` -/

theorem World.Sound.find_resolve (h : w.Sound) {c : ResolveCall} (hc : c ∈ w.resolves) :
    ∃ p, w.db.payments.find? c.charge.paymentId = some p ∧ ¬p.InFlight := by
  obtain ⟨p, hp, hid, hne⟩ := h.resolve c hc
  exact ⟨p, Table.find?_eq_some.mpr ⟨hp, hid⟩, fun hfl => hne hfl.1⟩

theorem World.Sound.drop_resolve (h : w.Sound) {db : Db} {callId : Uuid}
    (heff : Effect none w.db db) : ({ w with db }.dropResolve callId).Sound :=
  h.of_effect heff (.refl _) (fun _ _ => by simp) fun c hc => ⟨c, (List.mem_filter.mp hc).1, rfl⟩

theorem World.Sound.set_stage (h : w.Sound) (callId : Uuid) (stage : ResolveStage) :
    (w.setStage callId stage).Sound := by
  refine h.of_effect (.refl none _) (.refl _) (fun _ _ => by simp) fun c hc => ?_
  obtain ⟨c₀, hc₀, rfl⟩ := List.mem_map.mp hc
  refine ⟨c₀, hc₀, ?_⟩
  split <;> rfl

theorem World.Sound.fair_resolveCharge (h : w.Sound) (callId : Uuid) (now : Time)
    (restaurantId paymentId : Uuid) (actorUserId : Option Uuid) :
    Fair w (LedgerOp.step w (.resolveCharge callId now restaurantId paymentId actorUserId)) := by
  simp only [LedgerOp.step]
  cases hrun : (readCharge restaurantId paymentId).run w.db with
  | ok c db =>
    obtain ⟨-, hid, -, p, hp, hstatus, -⟩ := readCharge_ok hrun
    obtain ⟨hfind, -⟩ := payment?_eq_some.mp hp
    simp only
    split
    · exact h.fair_nothing []
    · rename_i hdoubt
      refine ⟨⟨none, .refl _ _⟩, ⟨h.db, h.distinct, h.charge, fun c' hc' => ?_⟩, by simp⟩
      rcases List.mem_append.mp hc' with hc' | hc'
      · exact h.resolve c' hc'
      · obtain rfl := List.mem_singleton.mp hc'
        refine ⟨p, Table.find?_mem hfind, (Table.find?_key hfind).trans hid.symm, ?_⟩
        rw [← hstatus, not_not.mp hdoubt]
        nofun
  | error err db => exact h.fair_nothing [err]

theorem World.Sound.fair_afterDecision (h : w.Sound) (c : ResolveCall) (found : Match) (now : Time) :
    Fair w (w.afterDecision c found now) := by
  unfold World.afterDecision
  cases hrun : (settleResolution c.charge found c.askedAt now c.actorUserId).run w.db with
  | ok r db =>
    have heff := settleResolution_effect hrun
    exact ⟨⟨none, heff⟩, h.drop_resolve heff, by simp⟩
  | error err db =>
    obtain rfl := atomic_tx _ _ _ _ hrun
    simp only
    split
    · exact ⟨⟨none, .refl _ _⟩, h.set_stage _ _, by simp⟩
    · exact ⟨⟨none, .refl _ _⟩, h.drop_resolve (.refl _ _), fun _ => rfl⟩

/-- Every operation is fair: one case for each. -/
theorem World.Sound.fair_step (h : w.Sound) (op : LedgerOp) : Fair w (op.step w) := by
  cases op with
  | processSplitPayment paymentId now p =>
    exact h.fair_transact (atomic_processSplitPayment paymentId now p)
      fun _ _ => processSplitPayment_effect
  | declareClaim paymentId now c =>
    exact h.fair_transact (atomic_declareClaim paymentId now c) fun _ _ => declareClaim_effect
  | confirmClaim restaurantId claimId via bankMovementId =>
    exact h.fair_transact (atomic_tx _) fun _ _ => confirmClaim_effect
  | rejectClaim restaurantId claimId reason =>
    exact h.fair_transact (atomic_tx _) fun _ _ => rejectClaim_effect
  | settleFromWebhook providerCode parsed =>
    exact h.fair_transact (settleFromWebhook_atomic providerCode parsed)
      fun _ _ => settleFromWebhook_effect
  | addItem itemId restaurantId billId productId quantity =>
    exact h.fair_transact (atomic_tx _) fun _ _ h => (addItem_ok h).effect
  | updateQuantity restaurantId billId itemId quantity =>
    exact h.fair_transact (atomic_tx _) fun _ _ h => (updateQuantity_ok h).effect
  | removeItem restaurantId billId itemId =>
    exact h.fair_transact (atomic_tx _) fun _ _ h => (removeItem_ok h).effect
  | settleBill adjustmentId restaurantId billId body =>
    exact h.fair_transact (atomic_tx _) fun _ _ => settleBill_effect
  | voidBill restaurantId billId =>
    exact h.fair_transact voidBill_atomic fun _ _ => voidBill_effect
  | submitCharge paymentId now r => exact h.fair_submitCharge paymentId now r
  | bankReplies paymentId now reply =>
    simp only [LedgerOp.step]
    split
    · rename_i c hc
      exact h.fair_afterReply (List.mem_of_find?_eq_some hc) now reply
    · exact h.fair_nothing []
  | parkCharge paymentId now =>
    simp only [LedgerOp.step]
    split
    · rename_i hc
      obtain ⟨p, hp, -⟩ := h.find_charge (List.mem_of_find?_eq_some hc)
      have hid := List.find?_some hc
      simp only [decide_eq_true_eq] at hid
      subst hid
      exact h.fair_quiet (atomic_tx _) fun _ _ => parkUnappliable_effect hp (.inr rfl)
    · exact h.fair_nothing []
  | resolveCharge callId now restaurantId paymentId actorUserId =>
    exact h.fair_resolveCharge callId now restaurantId paymentId actorUserId
  | expireResolution callId now =>
    simp only [LedgerOp.step]
    split
    · rename_i charge _ actorUserId hc
      obtain ⟨p, hp, hnot⟩ := h.find_resolve (List.mem_of_find?_eq_some hc)
      have hdrop : (w.dropResolve callId).Sound := h.drop_resolve (.refl _ _)
      have hx : ∀ a s', (expireResolution charge now actorUserId).run w.db = .ok a s' →
          Effect none w.db s' := fun _ _ => expireResolution_effect hp hnot
      have hfair := hdrop.fair_transact (atomic_tx _) hx
      exact ⟨hfair.effect, hfair.sound, hfair.refused⟩
    · exact h.fair_nothing []
  | bankShows callId movements =>
    simp only [LedgerOp.step]
    split
    · exact ⟨⟨none, .refl _ _⟩, h.set_stage _ _, by simp⟩
    · exact h.fair_nothing []
  | bankUnreachable callId =>
    simp only [LedgerOp.step]
    split
    · exact ⟨⟨none, .refl _ _⟩, h.drop_resolve (.refl _ _), fun _ => rfl⟩
    · exact h.fair_nothing []
  | settleResolution callId now =>
    simp only [LedgerOp.step]
    split
    · exact h.fair_afterDecision _ _ now
    · exact h.fair_nothing []
  | parkResolution callId now =>
    simp only [LedgerOp.step]
    split
    · rename_i charge _ _ parking hc
      obtain ⟨p, hp, hnot⟩ := h.find_resolve (List.mem_of_find?_eq_some hc)
      have hx : ∀ a s', (parkUnappliable charge.restaurantId charge.paymentId parking now).run w.db =
          .ok a s' → Effect none w.db s' := fun _ _ => parkUnappliable_effect hp (.inl hnot)
      have heff := exec_effect (atomic_tx _) hx
      exact ⟨⟨none, heff⟩, h.drop_resolve heff, by simp⟩
    · exact h.fair_nothing []

/-! ## Whole runs -/

theorem run_sound (h : w.Sound) (ops : List LedgerOp) : (ledger.run w ops).Sound := by
  induction ops generalizing w with
  | nil => exact h
  | cons op ops ih => exact ih (h.fair_step op).sound

/-- Along a run every bill goes through the steps of an account. -/
theorem run_refines (h : w.Sound) (ops : List LedgerOp) : Refines w.db (ledger.run w ops).db := by
  induction ops generalizing w with
  | nil => exact .refl _
  | cons op ops ih =>
    obtain ⟨own, heff⟩ := (h.fair_step op).effect
    exact heff.refines.trans (ih (h.fair_step op).sound)

/-- Nothing is settled on a bill whose settled payments sum to zero. -/
theorem not_counted_of_settled_zero {s : Db} {billId : Uuid} (h : s.settled billId = 0) :
    ∀ p ∈ s.payments, p.billId = billId → p.status.counted = false := by
  intro p hp hbill
  have hnonneg : ∀ q ∈ s.payments.rows.map (·.share billId), 0 ≤ q := by
    simp only [List.mem_map]
    rintro _ ⟨q, -, rfl⟩
    unfold Payment.share
    split
    · exact q.amount_pos.le
    · exact le_rfl
  have hzero := List.all_zero_of_le_zero_le_of_sum_eq_zero hnonneg h (List.mem_map_of_mem hp)
  by_contra hcounted
  rw [share_of_counted (by simpa using hcounted), if_pos hbill.symm] at hzero
  exact absurd hzero p.amount_pos.ne'

/-! ## An evening -/

/-- Three open bills of one restaurant: 100, 50 and 30 céntimos are due on them. -/
def openBill (id : Uuid) (total : Int) : Bill where
  id := id
  restaurantId := 1
  status := .open
  currency := .ves
  subtotalMinor := total
  vatBps := 0
  vatMinor := 0
  serviceChargeBps := 0
  serviceChargeMinor := 0
  totalDue := total
  totalDueVes := total
  amountPaidVes := 0
  fxRateVesPerUnit := none
  fxRateSource := none

def evening : Db where
  bills := ⟨[openBill 10 100, openBill 11 50, openBill 12 30], by decide⟩
  items := ∅
  products := ∅
  payments := ∅
  transitions := []
  splits := ∅
  shares := ∅
  adjustments := ∅
  charges := ∅
  attempts := []
  events := ∅
  movements := ∅
  bankMatches := ∅

theorem evening_opened : evening.Opened := ⟨by decide, by decide, rfl⟩

/-- The first bill is paid by a claim and by a charge, the second in part and then settled, the
third is voided while a charge for it is on its way. -/
def eveningOps : List LedgerOp :=
  [ .declareClaim 20 0 { restaurantId := 1, billId := 10, amountVes := some 60, reference := none },
    .submitCharge 21 0
      { restaurantId := 1, billId := 10, amountVes := some 40,
        payer := ⟨"0105", "V1", "04141234567", "1"⟩ },
    .submitCharge 22 0
      { restaurantId := 1, billId := 12, amountVes := some 30,
        payer := ⟨"0105", "V2", "04149876543", "2"⟩ },
    .confirmClaim 1 20 .staff none,
    .bankReplies 21 5 (.ok (.succeeded none (some "900001"))),
    .voidBill 1 12,
    .bankReplies 22 6 (.ok (.succeeded none (some "900002"))),
    .parkCharge 22 7,
    .processSplitPayment 23 8 { restaurantId := 1, billId := 11, amountPaidMinorUnits := some 20 },
    .settleBill 30 1 11 ⟨.comp, none, 9⟩ ]

/-! ## The ledger -/

/-- The ledger of every bill after every run from bills that were just opened, with no call waiting:
the figure that is cached is the sum of the settled payments, no bill is overpaid, a closed bill is
paid or written off to the last céntimo, no payment of a void bill is settled; and an operation that
throws leaves bills, payments and adjustments as they are. -/
theorem ledger_balanced (db : Db) (h : db.Opened) (ops : List LedgerOp) :
    let w := ledger.run (.idle db) ops
    (∀ b ∈ w.db.bills,
      b.amountPaidVes = w.db.settled b.id ∧
      (0 ≤ b.amountPaidVes ∧ b.amountPaidVes ≤ b.totalDueVes) ∧
      (b.status = .closed → b.amountPaidVes + w.db.adjusted b.id = b.totalDueVes) ∧
      (b.status = .void → ∀ p ∈ w.db.payments, p.billId = b.id → p.status.counted = false)) ∧
    ∀ op, (ledger.step w op).2 ≠ [] →
      (ledger.step w op).1.db.bills = w.db.bills ∧
      (ledger.step w op).1.db.payments = w.db.payments ∧
      (ledger.step w op).1.db.adjustments = w.db.adjustments := by
  intro w
  have hw : w.Sound := run_sound (.idle h.sound) ops
  refine ⟨fun b hb => ?_, fun op hop => ?_⟩
  · have hcache := hw.db.cached b hb
    have hacc := hw.db.account b hb
    refine ⟨hcache, ⟨?_, ?_⟩, fun hclosed => ?_, fun hvoid => ?_⟩
    · rw [hcache]
      exact hacc.paid_nonneg
    · rw [hcache]
      exact hacc.paid_le
    · rw [hcache]
      exact hacc.closed_balance hclosed
    · exact not_counted_of_settled_zero (hacc.void_paid hvoid)
  · have hdb : (ledger.step w op).1.db = w.db := (hw.fair_step op).refused hop
    rw [hdb]
    exact ⟨rfl, rfl, rfl⟩

theorem evening_balanced :
    let w := ledger.run (.idle evening) eveningOps
    (w.db.bills.rows.map fun b => (b.id, b.status, b.amountPaidVes)) =
      [(10, .closed, 100), (11, .closed, 20), (12, .void, 0)] ∧
    ∀ b ∈ w.db.bills, b.amountPaidVes = w.db.settled b.id :=
  ⟨by decide +kernel, fun b hb => ((ledger_balanced evening evening_opened eveningOps).1 b hb).1⟩

end Splite
