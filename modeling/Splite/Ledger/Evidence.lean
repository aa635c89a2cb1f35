import Splite.Ledger.Charges
import Splite.Ledger.Runs

/-!
# What a charge is settled on

The ledger beside the bank that it asks. The bank has one movement for every charge that it accepted,
whatever its reply says or whether it comes; and a charge is settled on one of them: its own, when
its approval settles it, or the one that a resolution matched.

* `BankWorld.Sound.step`: what every step keeps.
* `movement_spent_once`: as long as an approval that does not carry the reference of its movement and
  a resolution that finds this movement do not both settle, no movement settles two charges.
* `movement_spent_twice`: two charges that they both settle.
-/

namespace Splite

open Mercantil (Match Movement canonicalReference matchInDoubtPayment matchInDoubtPayment_matched)

/-- A charge that was settled, and the movement that it was settled on. -/
structure Evidence where
  paymentId : Uuid
  movement : Movement
  /-- The charge's own approval settled it, not a resolution. -/
  approved : Bool
  deriving DecidableEq

/-- The ledger, and what the bank has: the charges that it accepted, each with its movement. -/
structure BankWorld where
  ledger : World
  accepted : List (Uuid × Movement)
  evidence : List Evidence

def BankWorld.start (db : Db) : BankWorld := ⟨.idle db, [], []⟩

/-- The steps of `createC2PPayment` and `resolveC2PPayment`. -/
def LedgerOp.isC2P : LedgerOp → Bool
  | .submitCharge .. | .bankReplies .. | .parkCharge .. | .resolveCharge .. | .expireResolution ..
  | .bankShows .. | .bankUnreachable .. | .settleResolution .. | .parkResolution .. => true
  | _ => false

inductive BankEvent where
  /-- The bank debits a payer. -/
  | accepts (paymentId : Uuid) (movement : Movement)
  | call (op : LedgerOp) (h : op.isC2P)

/-- An approval, as it reaches `createC2PPayment`. -/
structure Approval where
  paymentId : Uuid
  providerPaymentId : Option String
  bankReference : Option String

def LedgerOp.approval : LedgerOp → Option Approval
  | .bankReplies paymentId _ (.ok (.succeeded providerPaymentId bankReference)) =>
    some ⟨paymentId, providerPaymentId, bankReference⟩
  | _ => none

/-- What a `search` returns. -/
def LedgerOp.shown : LedgerOp → List Movement
  | .bankShows _ movements => movements
  | _ => []

/-- The movement that a call has been matched to. -/
def ResolveCall.movement (c : ResolveCall) : Option Movement :=
  match c.stage with
  | .decided (.matched movement) => some movement
  | _ => none

/-- The call that acts on what it decided. -/
def World.resolution (w : World) : LedgerOp → Option ResolveCall
  | .settleResolution callId _ => w.resolves.find? fun c => c.callId = callId
  | _ => none

/-- What a step settles a charge on, if it settles one. -/
def BankWorld.grounds (w : BankWorld) (op : LedgerOp) : Option Evidence :=
  match op.approval with
  | some a => (w.accepted.find? fun x => x.1 = a.paymentId).map fun x => ⟨x.1, x.2, true⟩
  | none => do
    let c ← w.ledger.resolution op
    let m ← c.movement
    return ⟨c.charge.paymentId, m, false⟩

def Db.hasSucceeded (s : Db) (paymentId : Uuid) : Bool :=
  (s.payments.find? paymentId).any fun p => p.status = .succeeded

/-- One step; the evidence is of the charges that have settled in it. -/
def BankEvent.step (w : BankWorld) : BankEvent → BankWorld × List Err
  | .accepts paymentId movement =>
    ({ w with accepted := w.accepted ++ [(paymentId, movement)] }, [])
  | .call op _ =>
    let r := op.step w.ledger
    ({ w with
        ledger := r.1
        evidence := w.evidence ++ ((w.grounds op).filter fun e =>
          !w.ledger.db.hasSucceeded e.paymentId && r.1.db.hasSucceeded e.paymentId).toList }, r.2)

def bank : Machine BankWorld BankEvent Err := ⟨BankEvent.step⟩

/-- What the bank does: a charge has one movement, with a reference that no other has; a charge that
is approved was accepted, and a reference in the reply is the one of its movement; a search returns
movements that there are. -/
def Banked (w : BankWorld) : BankEvent → Prop
  | .accepts paymentId movement =>
    (canonicalReference movement.reference).isSome ∧
      ∀ x ∈ w.accepted, x.1 ≠ paymentId ∧
        canonicalReference x.2.reference ≠ canonicalReference movement.reference
  | .call op _ =>
    (∀ a ∈ op.approval, ∃ x ∈ w.accepted, x.1 = a.paymentId ∧
      ∀ reference ∈ a.bankReference.bind canonicalReference,
        canonicalReference x.2.reference = some reference) ∧
    ∀ m ∈ op.shown, ∃ x ∈ w.accepted, x.2 = m

/-- An approval that settles has the reference of its movement, or no resolution has settled on that
movement; and a resolution that settles has not been matched to the movement of a charge that was
settled by an approval without its reference. -/
def Referenced (w : BankWorld) : BankEvent → Prop
  | .accepts .. => True
  | .call op _ =>
    (∀ a ∈ op.approval, ∀ x ∈ w.accepted, x.1 = a.paymentId →
      ∀ c ∈ w.ledger.charges, c.paymentId = a.paymentId →
        w.ledger.db.Takes c.restaurantId c.billId c.amount →
        referenceFor a.providerPaymentId a.bankReference = canonicalReference x.2.reference ∨
          ∀ e ∈ w.evidence, e.approved = false → e.movement ≠ x.2) ∧
    ∀ c ∈ w.ledger.resolution op, ∀ m ∈ c.movement,
      ∀ p ∈ w.ledger.db.payments.find? c.charge.paymentId, p.status = .inDoubt →
        w.ledger.db.Takes c.charge.restaurantId p.billId p.amountVes →
        ∀ e ∈ w.evidence, e.approved → e.movement = m →
          ∃ q ∈ w.ledger.db.payments.find? e.paymentId,
            q.providerPaymentId = canonicalReference m.reference

instance (w : BankWorld) : ∀ e, Decidable (Banked w e)
  | .accepts _ _ => inferInstanceAs (Decidable (_ ∧ _))
  | .call _ _ => inferInstanceAs (Decidable (_ ∧ _))

instance (w : BankWorld) : ∀ e, Decidable (Referenced w e)
  | .accepts _ _ => inferInstanceAs (Decidable True)
  | .call _ _ => inferInstanceAs (Decidable (_ ∧ _))

/-! ## What one step of the ledger does -/

section Step

variable {w : World} {op : LedgerOp}

/-- A step is quiet, or it settles the charge of an approval, or the charge of a resolution, on a
bill that takes it. -/
def Settlement (w : World) (op : LedgerOp) (s' : Db) : Prop :=
  Quiet w.db s' ∨
  (∃ a ∈ op.approval, Settles a.paymentId (referenceFor a.providerPaymentId a.bankReference) w.db s' ∧
    ∃ c ∈ w.charges, c.paymentId = a.paymentId ∧ w.db.Takes c.restaurantId c.billId c.amount) ∨
  ∃ c ∈ w.resolution op, ∃ m ∈ c.movement,
    Settles c.charge.paymentId (canonicalReference m.reference) w.db s' ∧
    ∃ p ∈ w.db.payments.find? c.charge.paymentId, p.status = .inDoubt ∧
      w.db.Takes c.charge.restaurantId p.billId p.amountVes

theorem exec_quiet {α : Type} {x : Tx Err Db α} {s : Db} (hatomic : Tx.Atomic x)
    (hx : ∀ a s', x.run s = .ok a s' → Quiet s s') : Quiet s (x.exec s) := by
  cases hrun : x.run s with
  | ok a s' =>
    rw [Tx.exec_of_ok hrun]
    exact hx a s' hrun
  | error err s' =>
    rw [hatomic.exec_of_error hrun]
    exact .refl _

theorem transact_quiet {α : Type} {x : Tx Err Db α} (w : World) (hatomic : Tx.Atomic x)
    (hx : ∀ a s', x.run w.db = .ok a s' → Quiet w.db s') : Quiet w.db (w.transact x).1.db := by
  unfold World.transact
  cases hrun : x.run w.db with
  | ok a db => exact hx a db hrun
  | error err db =>
    obtain rfl := hatomic _ _ _ hrun
    exact .refl _

theorem World.Sound.settlement_afterReply (h : w.Sound) {c : ChargeCall} (hc : c ∈ w.charges)
    (now : Time) (reply : Except Mercantil.ChargeError Mercantil.ChargeResult) :
    Settlement w (.bankReplies c.paymentId now reply) (w.afterReply c now reply).1.db := by
  obtain ⟨p, hp, hfl, -, -⟩ := h.find_charge hc
  have hmove : ∀ toStatus reason, (toStatus = .inDoubt ∨ toStatus = .ambiguous ∨ toStatus = .failed) →
      ∀ m s', (moveTo c.restaurantId c.paymentId toStatus reason).run w.db = .ok m s' →
        Quiet w.db s' := fun _ _ hto _ _ => moveTo_quiet hto
  unfold World.afterReply
  split
  · exact .inl (exec_quiet (atomic_tx _) (hmove _ _ (.inl rfl)))
  · exact .inl (transact_quiet (w.dropCharge c.paymentId) (atomic_tx _) (hmove _ _ (.inr (.inr rfl))))
  · exact .inl (transact_quiet (w.dropCharge c.paymentId) (atomic_tx _) (hmove _ _ (.inr (.inr rfl))))
  · rename_i providerPaymentId bankReference
    simp only
    cases hrun : (settleApproved c.restaurantId c.billId c.paymentId c.amount
        (referenceFor providerPaymentId bankReference) now).run w.db with
    | ok v db =>
      obtain ⟨hset, htakes⟩ := settleApproved_settles hp hfl.isCharge hfl.not_succeeded hrun
      exact .inr (.inl ⟨_, rfl, hset, c, hc, rfl, htakes⟩)
    | error err db =>
      obtain rfl := atomic_tx _ _ _ _ hrun
      exact .inl (.refl _)

/-- One case for each step; `hcharge` is about the charges that resolutions have read. -/
theorem World.Sound.settlement (h : w.Sound) (hop : op.isC2P)
    (hcharge : ∀ c ∈ w.resolves, ∃ p, w.db.payments.find? c.charge.paymentId = some p ∧ p.IsCharge) :
    Settlement w op (op.step w).1.db := by
  cases op with
  | submitCharge paymentId now r =>
    simp only [LedgerOp.step]
    cases hrun : (submitCharge paymentId now r).run w.db with
    | ok p db => exact .inl (submitCharge_quiet hrun)
    | error err db =>
      obtain rfl := atomic_submitCharge paymentId now r _ _ _ hrun
      exact .inl (.refl _)
  | bankReplies paymentId now reply =>
    simp only [LedgerOp.step]
    split
    · rename_i c hc
      have hid := List.find?_some hc
      simp only [Bool.decide_and, Bool.and_eq_true, decide_eq_true_eq] at hid
      obtain ⟨rfl, -⟩ := hid
      exact h.settlement_afterReply (List.mem_of_find?_eq_some hc) now reply
    · exact .inl (.refl _)
  | parkCharge paymentId now =>
    simp only [LedgerOp.step]
    split
    · rename_i hc
      obtain ⟨p, hp, -⟩ := h.find_charge (List.mem_of_find?_eq_some hc)
      have hid := List.find?_some hc
      simp only [decide_eq_true_eq] at hid
      subst hid
      exact .inl (exec_quiet (atomic_tx _) fun _ _ => parkUnappliable_quiet hp)
    · exact .inl (.refl _)
  | resolveCharge callId now restaurantId paymentId actorUserId =>
    simp only [LedgerOp.step]
    split
    · split <;> exact .inl (.refl _)
    · exact .inl (.refl _)
  | expireResolution callId now =>
    simp only [LedgerOp.step]
    split
    · exact .inl (transact_quiet (w.dropResolve callId) (atomic_tx _) fun _ _ => expireResolution_quiet)
    · exact .inl (.refl _)
  | bankShows callId movements =>
    simp only [LedgerOp.step]
    split <;> exact .inl (.refl _)
  | bankUnreachable callId =>
    simp only [LedgerOp.step]
    split <;> exact .inl (.refl _)
  | settleResolution callId now =>
    simp only [LedgerOp.step]
    split
    · rename_i id charge askedAt actorUserId found hc
      obtain ⟨p, hp, hpc⟩ := hcharge _ (List.mem_of_find?_eq_some hc)
      unfold World.afterDecision
      cases hrun : (settleResolution charge found askedAt now actorUserId).run w.db with
      | ok r db =>
        rcases settleResolution_settles hp hpc hrun with hquiet | ⟨m, rfl, hdoubt, hset, htakes⟩
        · exact .inl hquiet
        · exact .inr (.inr ⟨_, hc, m, rfl, hset, p, hp, hdoubt, htakes⟩)
      | error err db =>
        obtain rfl := atomic_tx _ _ _ _ hrun
        simp only
        split <;> exact .inl (.refl _)
    · exact .inl (.refl _)
  | parkResolution callId now =>
    simp only [LedgerOp.step]
    split
    · rename_i charge _ _ parking hc
      obtain ⟨p, hp, -⟩ := hcharge _ (List.mem_of_find?_eq_some hc)
      exact .inl (exec_quiet (atomic_tx _) fun _ _ => parkUnappliable_quiet hp)
    · exact .inl (.refl _)
  | _ => simp [LedgerOp.isC2P] at hop

/-- A resolution that was there before, or has just read a charge; and the movement that it is matched
to is not new, or has just been shown. -/
structure Carried (w : World) (op : LedgerOp) (c' : ResolveCall) : Prop where
  charge : (∃ c ∈ w.resolves, c.charge.paymentId = c'.charge.paymentId) ∨
    ∃ charge ∈ w.db.charges, charge.paymentId = c'.charge.paymentId
  movement : ∀ m ∈ c'.movement, (∃ c ∈ w.resolves, m ∈ c.movement) ∨ m ∈ op.shown

theorem Carried.old {c' : ResolveCall} (h : c' ∈ w.resolves) : Carried w op c' :=
  ⟨.inl ⟨c', h, rfl⟩, fun _ hm => .inl ⟨c', h, hm⟩⟩

@[simp] theorem transact_resolves {α : Type} (w : World) (x : Tx Err Db α) :
    (w.transact x).1.resolves = w.resolves := by
  unfold World.transact
  split <;> rfl

theorem afterReply_resolves (w : World) (c : ChargeCall) (now : Time)
    (reply : Except Mercantil.ChargeError Mercantil.ChargeResult) :
    (w.afterReply c now reply).1.resolves = w.resolves := by
  unfold World.afterReply
  split
  · rfl
  · simp [World.dropCharge]
  · simp [World.dropCharge]
  · simp only
    split <;> rfl

theorem Carried.drop {w' : World} {c' : ResolveCall} {callId : Uuid}
    (h : c' ∈ (w'.dropResolve callId).resolves) (hw : w'.resolves = w.resolves) : Carried w op c' :=
  .old (hw ▸ (List.mem_filter.mp h).1)

/-- A call that goes on to a stage which has a movement only if the bank has just shown it. -/
theorem Carried.stage {w' : World} {c' : ResolveCall} {callId : Uuid} {stage : ResolveStage}
    (h : c' ∈ (w'.setStage callId stage).resolves) (hw : w'.resolves = w.resolves)
    (hstage : ∀ m, stage = .decided (.matched m) → m ∈ op.shown) : Carried w op c' := by
  obtain ⟨c, hc, rfl⟩ := List.mem_map.mp h
  rw [hw] at hc
  split
  · refine ⟨.inl ⟨c, hc, rfl⟩, fun m hm => .inr (hstage m ?_)⟩
    unfold ResolveCall.movement at hm
    simp only at hm
    split at hm
    · simpa using hm
    · cases hm
  · exact .old hc

theorem resolves_step (hop : op.isC2P) {c' : ResolveCall} (hc' : c' ∈ (op.step w).1.resolves) :
    Carried w op c' := by
  cases op with
  | submitCharge paymentId now r =>
    simp only [LedgerOp.step] at hc'
    split at hc' <;> exact .old hc'
  | bankReplies paymentId now reply =>
    simp only [LedgerOp.step] at hc'
    split at hc'
    · rw [afterReply_resolves] at hc'
      exact .old hc'
    · exact .old hc'
  | parkCharge paymentId now =>
    simp only [LedgerOp.step] at hc'
    split at hc' <;> exact .old hc'
  | resolveCharge callId now restaurantId paymentId actorUserId =>
    simp only [LedgerOp.step] at hc'
    cases hread : (readCharge restaurantId paymentId).run w.db with
    | error err db =>
      rw [hread] at hc'
      exact .old hc'
    | ok c db =>
      rw [hread] at hc'
      dsimp only at hc'
      split at hc'
      · exact .old hc'
      · rcases List.mem_append.mp hc' with hc' | hc'
        · exact .old hc'
        · obtain rfl := List.mem_singleton.mp hc'
          refine ⟨.inr (readCharge_charge hread), fun m hm => ?_⟩
          rcases ite_eq_or_eq (c.Expired now) ResolveStage.expired .searching with he | he
          · rw [he] at hm
            cases hm
          · rw [he] at hm
            cases hm
  | expireResolution callId now =>
    simp only [LedgerOp.step] at hc'
    split at hc'
    · rw [transact_resolves] at hc'
      exact .drop hc' rfl
    · exact .old hc'
  | bankShows callId movements =>
    simp only [LedgerOp.step] at hc'
    split at hc'
    · refine .stage hc' rfl fun m hm => ?_
      rw [ResolveStage.decided.injEq] at hm
      exact (matchInDoubtPayment_matched hm).1
    · exact .old hc'
  | bankUnreachable callId =>
    simp only [LedgerOp.step] at hc'
    split at hc'
    · exact .drop hc' rfl
    · exact .old hc'
  | settleResolution callId now =>
    simp only [LedgerOp.step] at hc'
    split at hc'
    · unfold World.afterDecision at hc'
      split at hc'
      · exact .drop hc' rfl
      · split at hc'
        · exact .stage hc' rfl (by simp)
        · exact .drop hc' rfl
    · exact .old hc'
  | parkResolution callId now =>
    simp only [LedgerOp.step] at hc'
    split at hc'
    · exact .drop hc' rfl
    · exact .old hc'
  | _ => simp [LedgerOp.isC2P] at hop

end Step

/-! ## Runs -/

/-- The calls are about charges, and a resolution is matched to a movement of the bank. -/
structure World.Charged (w : World) (accepted : List (Uuid × Movement)) : Prop where
  charge : ∀ c ∈ w.db.charges, ∃ p ∈ w.db.payments, p.id = c.paymentId ∧ p.IsCharge
  resolve : ∀ c ∈ w.resolves, ∃ p ∈ w.db.payments, p.id = c.charge.paymentId ∧ p.IsCharge
  shown : ∀ c ∈ w.resolves, ∀ m ∈ c.movement, ∃ x ∈ accepted, x.2 = m

theorem World.Charged.step {w : World} {op : LedgerOp} {accepted : List (Uuid × Movement)}
    (h : w.Charged accepted) (hop : op.isC2P) (hkeeps : Keeps w.db (op.step w).1.db)
    (hshown : ∀ m ∈ op.shown, ∃ x ∈ accepted, x.2 = m) : (op.step w).1.Charged accepted := by
  have hkept : ∀ id : Uuid, (∃ p ∈ w.db.payments, p.id = id ∧ p.IsCharge) →
      ∃ p ∈ (op.step w).1.db.payments, p.id = id ∧ p.IsCharge := by
    rintro id ⟨p, hp, rfl, hc⟩
    obtain ⟨p', hp', hid, hc', -⟩ := hkeeps.payments p hp hc
    exact ⟨p', hp', hid, hc'⟩
  refine ⟨fun c' hc' => ?_, fun c' hc' => ?_, fun c' hc' m hm => ?_⟩
  · rcases hkeeps.charges c' hc' with ⟨c, hc, hid⟩ | hp
    · exact hkept _ (hid ▸ h.charge c hc)
    · exact hp
  · rcases (resolves_step hop hc').charge with ⟨c, hc, hid⟩ | ⟨c, hc, hid⟩
    · exact hkept _ (hid ▸ h.resolve c hc)
    · exact hkept _ (hid ▸ h.charge c hc)
  · rcases (resolves_step hop hc').movement m hm with ⟨c, hc, hm⟩ | hm
    · exact h.shown c hc m hm
    · exact hshown m hm

/-- The charge was settled on a movement of the bank: its own if it was approved, else the one whose
reference it carries. -/
structure BankWorld.Grounded (w : BankWorld) (e : Evidence) : Prop where
  settled : ∃ p ∈ w.ledger.db.payments, p.id = e.paymentId ∧ p.IsCharge ∧ p.status = .succeeded ∧
    (e.approved = false → p.providerPaymentId = canonicalReference e.movement.reference)
  own : e.approved → (e.paymentId, e.movement) ∈ w.accepted
  moved : ∃ x ∈ w.accepted, x.2 = e.movement

structure BankWorld.Sound (w : BankWorld) : Prop where
  ledger : w.ledger.Sound
  charged : w.ledger.Charged w.accepted
  spelled : ∀ x ∈ w.accepted, (canonicalReference x.2.reference).isSome
  distinct : w.accepted.Pairwise fun x y =>
    x.1 ≠ y.1 ∧ canonicalReference x.2.reference ≠ canonicalReference y.2.reference
  grounded : ∀ e ∈ w.evidence, w.Grounded e
  once : w.evidence.Pairwise fun e e' => e.paymentId ≠ e'.paymentId ∧ e.movement ≠ e'.movement
  succeeded : ∀ p ∈ w.ledger.db.payments, p.status = .succeeded →
    ∃ e ∈ w.evidence, e.paymentId = p.id

theorem BankWorld.Sound.start {db : Db} (h : db.Opened) (hcharges : db.charges = ∅) :
    (BankWorld.start db).Sound := by
  refine ⟨.idle h.sound, ⟨fun c hc => ?_, by simp [BankWorld.start, World.idle],
    by simp [BankWorld.start, World.idle]⟩, by simp [BankWorld.start], by simp [BankWorld.start],
    by simp [BankWorld.start], by simp [BankWorld.start], fun p hp hs => ?_⟩
  · have hc : c ∈ db.charges := hc
    rw [hcharges] at hc
    cases hc
  · have hno := h.payments p hp
    rw [hs] at hno
    cases hno

section Run

variable {w : BankWorld} {e : Evidence} {ledger : World}

theorem hasSucceeded_iff {s : Db} {paymentId : Uuid} :
    s.hasSucceeded paymentId ↔ ∃ p ∈ s.payments, p.id = paymentId ∧ p.status = .succeeded := by
  unfold Db.hasSucceeded
  rw [Option.any_eq_true]
  constructor
  · rintro ⟨p, hp, hs⟩
    exact ⟨p, Table.find?_mem hp, Table.find?_key hp, by simpa using hs⟩
  · rintro ⟨p, hp, hid, hs⟩
    exact ⟨p, Table.find?_eq_some.mpr ⟨hp, hid⟩, by simpa using hs⟩

/-- Movements with one reference are one movement, and it belongs to one charge. -/
theorem BankWorld.Sound.accepted_unique (h : w.Sound) {x y : Uuid × Movement} (hx : x ∈ w.accepted)
    (hy : y ∈ w.accepted)
    (heq : canonicalReference x.2.reference = canonicalReference y.2.reference) : x = y := by
  by_contra hne
  have hsymm : Std.Symm fun x y : Uuid × Movement =>
      x.1 ≠ y.1 ∧ canonicalReference x.2.reference ≠ canonicalReference y.2.reference :=
    ⟨fun _ _ h => ⟨h.1.symm, h.2.symm⟩⟩
  exact (h.distinct.forall hx hy hne).2 heq

/-- What a charge was settled on does not change. -/
theorem BankWorld.Grounded.keeps (h : w.Grounded e) (hkeeps : Keeps w.ledger.db ledger.db)
    (evidence : List Evidence) : BankWorld.Grounded ⟨ledger, w.accepted, evidence⟩ e := by
  obtain ⟨p, hp, hid, hc, hs, href⟩ := h.settled
  obtain ⟨p', hp', -, -, hsame⟩ := hkeeps.payments p hp hc
  obtain rfl := hsame hs
  exact ⟨⟨p', hp', hid, hc, hs, href⟩, h.own, h.moved⟩

theorem BankWorld.Sound.of_quiet (h : w.Sound) (hledger : ledger.Sound)
    (hcharged : ledger.Charged w.accepted) (hquiet : Quiet w.ledger.db ledger.db) :
    BankWorld.Sound ⟨ledger, w.accepted, w.evidence⟩ :=
  ⟨hledger, hcharged, h.spelled, h.distinct,
    fun e he => (h.grounded e he).keeps hquiet.toKeeps w.evidence, h.once,
    fun p hp hs => h.succeeded p (hquiet.settled p hp hs) hs⟩

/-- A charge settles on a movement of its own, which no charge was settled on yet. -/
theorem BankWorld.Sound.of_settles {reference : Option String} (h : w.Sound)
    (hledger : ledger.Sound) (hcharged : ledger.Charged w.accepted)
    (hset : Settles e.paymentId reference w.ledger.db ledger.db)
    (hmoved : ∃ x ∈ w.accepted, x.2 = e.movement)
    (hown : e.approved → (e.paymentId, e.movement) ∈ w.accepted)
    (href : e.approved = false → reference = canonicalReference e.movement.reference)
    (hfree : ∀ e₀ ∈ w.evidence, e₀.movement ≠ e.movement) :
    BankWorld.Sound ⟨ledger, w.accepted, w.evidence ++ [e]⟩ := by
  refine ⟨hledger, hcharged, h.spelled, h.distinct, fun e₀ he₀ => ?_, ?_, fun p hp hs => ?_⟩
  · rcases List.mem_append.mp he₀ with he₀ | he₀
    · exact (h.grounded e₀ he₀).keeps hset.toKeeps _
    · obtain rfl := List.mem_singleton.mp he₀
      obtain ⟨p, hp, hid, hc, hs, hwritten⟩ := hset.after
      refine ⟨⟨p, hp, hid, hc, hs, fun hres => ?_⟩, hown, hmoved⟩
      obtain ⟨x, hx, hxm⟩ := hmoved
      have hsome := h.spelled x hx
      rw [hxm, ← href hres] at hsome
      rw [hwritten hsome, href hres]
  · refine List.pairwise_append.mpr ⟨h.once, List.pairwise_singleton _ _, fun e₀ he₀ e₁ he₁ => ?_⟩
    obtain rfl := List.mem_singleton.mp he₁
    refine ⟨fun hid => ?_, hfree e₀ he₀⟩
    obtain ⟨p, hp, hid₀, -, hs, -⟩ := (h.grounded e₀ he₀).settled
    exact hset.before p hp (hid₀.trans hid) hs
  · rcases hset.settled p hp hs with hp | hid
    · obtain ⟨e₀, he₀, hid⟩ := h.succeeded p hp hs
      exact ⟨e₀, List.mem_append_left _ he₀, hid⟩
    · exact ⟨e, by simp, hid.symm⟩

/-- A settled charge whose reference is the one that is being written stands in the way. -/
theorem BankWorld.Sound.not_free {s' : Db} {reference : Option String} {e₀ : Evidence}
    (h : w.Sound) (hset : Settles e.paymentId reference w.ledger.db s') (he₀ : e₀ ∈ w.evidence)
    (hsome : reference.isSome)
    (hwritten : ∀ p ∈ w.ledger.db.payments, p.id = e₀.paymentId → p.providerPaymentId = reference) :
    False := by
  obtain ⟨p, hp, hid, hc, hs, -⟩ := (h.grounded e₀ he₀).settled
  have hne : p.id ≠ e.paymentId := fun heq => hset.before p hp heq hs
  exact hset.free p hp hne hc hsome (hwritten p hp hid)

theorem evidence_of_quiet {s s' : Db} (hquiet : Quiet s s') (grounds : Option Evidence) :
    (grounds.filter fun e => !s.hasSucceeded e.paymentId && s'.hasSucceeded e.paymentId) = none := by
  refine Option.filter_eq_none_iff.mpr fun e _ hnew => ?_
  simp only [Bool.and_eq_true, Bool.not_eq_true'] at hnew
  obtain ⟨p, hp, hid, hs⟩ := hasSucceeded_iff.mp hnew.2
  have hbefore : s.hasSucceeded e.paymentId :=
    hasSucceeded_iff.mpr ⟨p, hquiet.settled p hp hs, hid, hs⟩
  rw [hbefore] at hnew
  exact absurd hnew.1 (by simp)

theorem evidence_of_settles {s s' : Db} {reference : Option String}
    (hset : Settles e.paymentId reference s s') :
    ((some e).filter fun e => !s.hasSucceeded e.paymentId && s'.hasSucceeded e.paymentId) =
      some e := by
  refine Option.filter_some_pos ?_
  have hbefore : s.hasSucceeded e.paymentId = false := by
    rw [Bool.eq_false_iff]
    intro h
    obtain ⟨p, hp, hid, hs⟩ := hasSucceeded_iff.mp h
    exact hset.before p hp hid hs
  have hafter : s'.hasSucceeded e.paymentId := by
    obtain ⟨p, hp, hid, -, hs, -⟩ := hset.after
    exact hasSucceeded_iff.mpr ⟨p, hp, hid, hs⟩
  rw [hbefore, hafter]
  rfl

theorem approval_of_resolution {w : World} {op : LedgerOp} {c : ResolveCall}
    (h : c ∈ w.resolution op) : op.approval = none := by
  unfold World.resolution at h
  split at h
  · rfl
  · cases h

/-- The approval of a charge settles on its own movement. No resolution has settled on it: such a
charge would carry the reference that is written, or the condition excludes it. -/
theorem BankWorld.Sound.approved_free {a : Approval} {x : Uuid × Movement} {s' : Db}
    (h : w.Sound) (hx : x ∈ w.accepted) (hid : x.1 = a.paymentId)
    (hset : Settles a.paymentId (referenceFor a.providerPaymentId a.bankReference) w.ledger.db s')
    (hreference : referenceFor a.providerPaymentId a.bankReference =
        canonicalReference x.2.reference ∨
      ∀ e ∈ w.evidence, e.approved = false → e.movement ≠ x.2) :
    ∀ e₀ ∈ w.evidence, e₀.movement ≠ x.2 := by
  intro e₀ he₀ hm
  obtain ⟨p₀, hp₀, hid₀, -, hs₀, hcarries⟩ := (h.grounded e₀ he₀).settled
  cases hown : e₀.approved with
  | true =>
    -- Two approvals on one movement are two replies to one charge.
    have hx₀ := (h.grounded e₀ he₀).own hown
    have heq := h.accepted_unique hx₀ hx (by rw [hm])
    refine hset.before p₀ hp₀ ?_ hs₀
    rw [hid₀, ← hid, ← heq]
  | false =>
    rcases hreference with hreference | hno
    · refine h.not_free (e := ⟨a.paymentId, x.2, true⟩) hset he₀ ?_ fun p hp hpid => ?_
      · rw [hreference]
        exact h.spelled x hx
      · obtain rfl := Table.eq_of_key hp hp₀ (hpid.trans hid₀.symm)
        rw [hcarries hown, hm, hreference]
    · exact hno e₀ he₀ hown hm

/-- A resolution writes the reference of its movement. A charge that was settled on this movement
carries it: by a resolution, or by the condition. -/
theorem BankWorld.Sound.resolved_free {paymentId : Uuid} {m : Movement} {s' : Db} (h : w.Sound)
    (hm : ∃ x ∈ w.accepted, x.2 = m)
    (hset : Settles paymentId (canonicalReference m.reference) w.ledger.db s')
    (hcarries : ∀ e ∈ w.evidence, e.approved → e.movement = m →
      ∃ q ∈ w.ledger.db.payments.find? e.paymentId,
        q.providerPaymentId = canonicalReference m.reference) :
    ∀ e₀ ∈ w.evidence, e₀.movement ≠ m := by
  intro e₀ he₀ heq
  obtain ⟨x, hx, rfl⟩ := hm
  refine h.not_free (e := ⟨paymentId, x.2, false⟩) hset he₀ (h.spelled x hx) fun p hp hid => ?_
  cases hown : e₀.approved with
  | true =>
    obtain ⟨q, hq, hqref⟩ := hcarries e₀ he₀ hown heq
    obtain ⟨hmem, hqid⟩ := Table.find?_eq_some.mp hq
    obtain rfl := Table.eq_of_key hp hmem (hid.trans hqid.symm)
    exact hqref
  | false =>
    obtain ⟨p₀, hp₀, hid₀, -, -, hwritten⟩ := (h.grounded e₀ he₀).settled
    obtain rfl := Table.eq_of_key hp hp₀ (hid.trans hid₀.symm)
    rw [hwritten hown, heq]

theorem BankWorld.Sound.accepts (h : w.Sound) {paymentId : Uuid} {movement : Movement}
    (hbank : Banked w (.accepts paymentId movement)) :
    BankWorld.Sound { w with accepted := w.accepted ++ [(paymentId, movement)] } := by
  obtain ⟨hsome, hnew⟩ := hbank
  refine ⟨h.ledger, ⟨h.charged.charge, h.charged.resolve, fun c hc m hm => ?_⟩, fun x hx => ?_, ?_,
    fun e he => ⟨(h.grounded e he).settled, fun hown => ?_, ?_⟩, h.once, h.succeeded⟩
  · obtain ⟨x, hx, hxm⟩ := h.charged.shown c hc m hm
    exact ⟨x, List.mem_append_left _ hx, hxm⟩
  · rcases List.mem_append.mp hx with hx | hx
    · exact h.spelled x hx
    · rw [List.mem_singleton.mp hx]
      exact hsome
  · refine List.pairwise_append.mpr ⟨h.distinct, List.pairwise_singleton _ _, fun x hx y hy => ?_⟩
    rw [List.mem_singleton.mp hy]
    exact hnew x hx
  · exact List.mem_append_left _ ((h.grounded e he).own hown)
  · obtain ⟨x, hx, hxm⟩ := (h.grounded e he).moved
    exact ⟨x, List.mem_append_left _ hx, hxm⟩

theorem BankWorld.Sound.step (h : w.Sound) (event : BankEvent) (hbank : Banked w event)
    (href : Referenced w event) : (event.step w).1.Sound := by
  cases event with
  | accepts paymentId movement => exact h.accepts hbank
  | call op hop =>
    have hledger := (h.ledger.fair_step op).sound
    have hfind : ∀ c ∈ w.ledger.resolves, ∃ p,
        w.ledger.db.payments.find? c.charge.paymentId = some p ∧ p.IsCharge := fun c hc => by
      obtain ⟨p, hp, hid, hpc⟩ := h.charged.resolve c hc
      exact ⟨p, Table.find?_eq_some.mpr ⟨hp, hid⟩, hpc⟩
    have hcharged : ∀ hkeeps : Keeps w.ledger.db (op.step w.ledger).1.db,
        (op.step w.ledger).1.Charged w.accepted := fun hkeeps => h.charged.step hop hkeeps hbank.2
    show BankWorld.Sound ⟨_, _, _⟩
    rcases h.ledger.settlement hop hfind with hquiet | ⟨a, ha, hset, c, hc, hid, htakes⟩ |
      ⟨c, hc, m, hm, hset, p, hp, hdoubt, htakes⟩
    · rw [evidence_of_quiet hquiet, Option.toList_none, List.append_nil]
      exact h.of_quiet hledger (hcharged hquiet.toKeeps) hquiet
    · obtain ⟨x₀, hx₀, hid₀, -⟩ := hbank.1 a ha
      have hsome : (w.accepted.find? fun x => x.1 = a.paymentId).isSome :=
        List.find?_isSome.mpr ⟨x₀, hx₀, decide_eq_true hid₀⟩
      obtain ⟨x, hfound⟩ := Option.isSome_iff_exists.mp hsome
      have hx := List.mem_of_find?_eq_some hfound
      have hxid : x.1 = a.paymentId := by simpa using List.find?_some hfound
      have hgrounds : w.grounds op = some ⟨x.1, x.2, true⟩ := by
        unfold BankWorld.grounds
        rw [Option.mem_def.mp ha]
        simp only [hfound, Option.map_some]
      have hfree := h.approved_free hx hxid hset (href.1 a ha x hx hxid c hc hid htakes)
      rw [← hxid] at hset
      rw [hgrounds, evidence_of_settles hset, Option.toList_some]
      exact h.of_settles hledger (hcharged hset.toKeeps) hset ⟨x, hx, rfl⟩ (fun _ => hx) nofun hfree
    · have hgrounds : w.grounds op = some ⟨c.charge.paymentId, m, false⟩ := by
        unfold BankWorld.grounds
        rw [approval_of_resolution hc, Option.mem_def.mp hc]
        simp [Option.mem_def.mp hm]
      have hc' : c ∈ w.ledger.resolves := by
        unfold World.resolution at hc
        split at hc
        · exact List.mem_of_find?_eq_some hc
        · cases hc
      have hmoved := h.charged.shown c hc' m hm
      have hfree := h.resolved_free hmoved hset (href.2 c hc m hm p hp hdoubt htakes)
      rw [hgrounds, evidence_of_settles (e := ⟨c.charge.paymentId, m, false⟩) hset,
        Option.toList_some]
      exact h.of_settles hledger (hcharged hset.toKeeps) hset hmoved nofun (fun _ => rfl) hfree

/-- No more charges have settled than the bank has accepted. -/
theorem BankWorld.Sound.length_le (h : w.Sound) :
    (w.ledger.db.payments.rows.filter fun p => p.status = .succeeded).length ≤
      w.accepted.length := by
  have hpayments : ((w.ledger.db.payments.rows.filter fun p => p.status = .succeeded).map
      Payment.id).Subperm (w.evidence.map Evidence.paymentId) := by
    refine List.Nodup.subperm ?_ fun id hid => ?_
    · exact w.ledger.db.payments.nodup.sublist (List.filter_sublist.map _)
    · obtain ⟨p, hp, rfl⟩ := List.mem_map.mp hid
      obtain ⟨hp, hs⟩ := List.mem_filter.mp hp
      obtain ⟨e, he, hid⟩ := h.succeeded p hp (by simpa using hs)
      exact hid ▸ List.mem_map_of_mem he
  have hmovements : (w.evidence.map Evidence.movement).Subperm (w.accepted.map Prod.snd) := by
    refine List.Nodup.subperm ?_ fun m hm => ?_
    · exact List.pairwise_map.mpr (h.once.imp And.right)
    · obtain ⟨e, he, rfl⟩ := List.mem_map.mp hm
      obtain ⟨x, hx, hxm⟩ := (h.grounded e he).moved
      exact hxm ▸ List.mem_map_of_mem hx
  have h1 := hpayments.length_le
  have h2 := hmovements.length_le
  simp only [List.length_map] at h1 h2
  omega

end Run

/-- What is promised of a state: every charge that has settled rests on a movement of the bank, no
movement on which two charges rest, no more charges settled than accepted, each credited once. -/
structure BankWorld.SpentOnce (w : BankWorld) : Prop where
  rests : ∀ p ∈ w.ledger.db.payments, p.status = .succeeded →
    ∃ e ∈ w.evidence, e.paymentId = p.id ∧ ∃ x ∈ w.accepted, x.2 = e.movement
  once : w.evidence.Pairwise fun e e' => e.paymentId ≠ e'.paymentId ∧ e.movement ≠ e'.movement
  count : (w.ledger.db.payments.rows.filter fun p => p.status = .succeeded).length ≤
    w.accepted.length
  credited : ∀ b ∈ w.ledger.db.bills, b.amountPaidVes = w.ledger.db.settled b.id

/-- In a run from bills that have just been opened, with any number of charges and resolutions in
any order: as long as every approval and every resolution meets `Referenced`, what is promised
holds. -/
theorem movement_spent_once (db : Db) (h : db.Opened) (hcharges : db.charges = ∅)
    (events : List BankEvent) (hbank : bank.Every Banked (.start db) events)
    (href : bank.Every Referenced (.start db) events) :
    (bank.run (.start db) events).SpentOnce := by
  have hboth : bank.Every (fun w e => Banked w e ∧ Referenced w e) (.start db) events := by
    generalize BankWorld.start db = w at hbank href
    induction events generalizing w with
    | nil => trivial
    | cons e es ih => exact ⟨⟨hbank.1, href.1⟩, ih _ hbank.2 href.2⟩
  have hsound : (bank.run (.start db) events).Sound :=
    Machine.invariant (fun _ e hs he => hs.step e he.1 he.2) (.start h hcharges) hboth
  refine ⟨fun p hp hs => ?_, hsound.once, hsound.length_le, hsound.ledger.db.cached⟩
  obtain ⟨e, he, hid⟩ := hsound.succeeded p hp hs
  exact ⟨e, he, hid, (hsound.grounded e he).moved⟩

/-! ## A diner who tries again -/

/-- The movement of the second attempt. -/
def retryMovement : Movement := ⟨"900001", some 40, "584141234567"⟩

def retryCharge : ChargeRequest where
  restaurantId := 1
  billId := 10
  amountVes := some 40
  payer := ⟨"0105", "V1", "04141234567", "1"⟩

/-- The first attempt does not reach the bank; the second is approved, and its reply carries what
`approval` says; then staff resolve the first. -/
def retryEvents (providerPaymentId bankReference : Option String) : List BankEvent :=
  [ .call (.submitCharge 21 0 retryCharge) rfl,
    .call (.bankReplies 21 1 (.error (.c2p .bankIndeterminate "timeout"))) rfl,
    .call (.submitCharge 22 2 retryCharge) rfl,
    .accepts 22 retryMovement,
    .call (.bankReplies 22 3 (.ok (.succeeded providerPaymentId bankReference))) rfl,
    .call (.resolveCharge 50 4 1 21 none) rfl,
    .call (.bankShows 50 [retryMovement]) rfl,
    .call (.settleResolution 50 5) rfl ]

/-- With the reference in the reply the first attempt finds its movement spent. -/
theorem retry_with_reference :
    (bank.run (.start evening) (retryEvents none (some "900001"))).SpentOnce :=
  movement_spent_once evening evening_opened rfl (retryEvents none (some "900001"))
    (by decide +kernel) (by decide +kernel)

/-- With a payment id and no reference both attempts settle, and the bank has accepted one. -/
theorem movement_spent_twice :
    bank.Every Banked (.start evening) (retryEvents (some "77") none) ∧
    ¬(bank.run (.start evening) (retryEvents (some "77") none)).SpentOnce :=
  ⟨by decide +kernel, fun h => absurd h.count (by decide +kernel)⟩

end Splite
