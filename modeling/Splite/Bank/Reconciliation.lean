import Splite.Bank.Match
import Splite.Ledger.Claims
import Splite.Lib.Interleave

/-!
# Reconciliation (`services/bankReconciliation.js`, `ingest` of `services/bankConnections.js`)

Runs of `reconcile` beside each other, beside movements that come in and staff that confirms and
rejects claims, statement by statement. A run reads the claims and the movements with no lock, notes what
it decides, and confirms one claim after the other, each in a transaction of its own that locks the
claim, the bill and the movement.

* `confirmWith_ok`: what the transaction of a confirmation leaves.
* `confirmClaim_run`: it is the transaction of `confirmClaim`.
-/

namespace Splite.Bank

/-! ## What is stored -/

/-- A row of `bank_connections`. -/
structure BankConnection where
  id : Uuid
  restaurantId : Uuid
  active : Bool
  autoConfirm : Bool
  deriving DecidableEq, Repr

/-- What a bank reports of a movement. -/
structure MovementRow where
  reference : String
  amountMinor : Int
  bankCode : Option String
  phoneOrigin : Option String
  idOrigin : Option String
  deriving DecidableEq, Repr

/-- The columns of `bank_movements` that only the matcher reads. -/
structure MovementReport where
  id : Uuid
  connectionId : Uuid
  row : MovementRow
  receivedAt : Time
  deriving DecidableEq, Repr

/-- What `payments.metadata` says of the payer. -/
structure ClaimMetadata where
  paymentId : Uuid
  bankOrigin : Option String
  phoneOrigin : Option String
  idOrigin : Option String
  deriving DecidableEq, Repr

instance : Keyed BankConnection Uuid := ⟨BankConnection.id⟩
instance : Keyed MovementReport Uuid := ⟨MovementReport.id⟩
instance : Keyed ClaimMetadata Uuid := ⟨ClaimMetadata.paymentId⟩

/-- What is committed. -/
structure BankDb where
  db : Db
  connections : Table BankConnection
  reports : Table MovementReport
  metadata : Table ClaimMetadata

def WINDOW_DAYS : Nat := 7

def WINDOW : Time := WINDOW_DAYS * 24 * 60 * 60 * 1000

namespace BankDb

/-- The claims that `reconcile` reads. -/
def pendingClaims (b : BankDb) (restaurantId : Uuid) : List PendingClaim :=
  (b.db.payments.rows.filter fun p =>
    p.restaurantId = restaurantId ∧ p.paymentMethod = .pagoMovil ∧ p.status = .pending).map fun p =>
      let metadata := b.metadata.find? p.id
      ⟨p.id, p.amountVes, p.tipVes, p.declaredReference, metadata.bind (·.bankOrigin),
        metadata.bind (·.phoneOrigin), metadata.bind (·.idOrigin)⟩

/-- The movements that `reconcile` reads. -/
def openMovements (b : BankDb) (restaurantId : Uuid) (now : Time) : List MovementShape :=
  b.reports.rows.filterMap fun r =>
    match b.db.movements.find? r.id, b.connections.find? r.connectionId with
    | some m, some c =>
      if m.restaurantId = restaurantId ∧ c.restaurantId = m.restaurantId ∧ m.matchedPaymentId = none ∧
          c.active ∧ now < r.receivedAt + WINDOW then
        some ⟨m.id, r.row.reference, r.row.amountMinor, r.row.bankCode, r.row.phoneOrigin,
          r.row.idOrigin, c.autoConfirm⟩
      else none
    | _, _ => none

/-- `INSERT INTO bank_movements … ON CONFLICT (restaurant_id, reference, amount_minor) DO NOTHING`. -/
def insertMovement (b : BankDb) (connection : BankConnection) (id : Uuid) (row : MovementRow)
    (now : Time) : Except Err BankDb :=
  if ¬0 < row.amountMinor then .error (.checkViolation "bank_movements_amount_check")
  else if ¬(4 ≤ row.reference.toList.length ∧ row.reference.toList.length ≤ 40 ∧
      row.reference.toList.all Char.isDigit) then
    .error (.checkViolation "bank_movements_reference_check")
  else if ∃ r ∈ b.reports.rows, r.row.reference = row.reference ∧
      r.row.amountMinor = row.amountMinor ∧
      ∃ m ∈ b.db.movements.find? r.id, m.restaurantId = connection.restaurantId then .ok b
  else
    match b.db.movements.insert? ⟨id, connection.restaurantId, none⟩,
        b.reports.insert? ⟨id, connection.id, row, now⟩ with
    | some movements, some reports => .ok { b with db := { b.db with movements }, reports }
    | _, _ => .error (.uniqueViolation "bank_movements_pkey")

/-- `INSERT INTO payment_bank_matches … ON CONFLICT (payment_id) DO UPDATE`. -/
def note (b : BankDb) (restaurantId : Uuid) (d : Decision) : BankDb :=
  let bankMatches :=
    match b.db.bankMatches.insert? ⟨d.claimId, restaurantId, d.result.outcome, d.result.movementId⟩ with
    | some bankMatches => bankMatches
    | none => b.db.bankMatches.update d.claimId
        (fun r => { r with outcome := d.result.outcome, movementId := d.result.movementId }) fun _ => rfl
  { b with db := { b.db with bankMatches } }

end BankDb

/-- The movement is there, and backs nothing yet. -/
def freeMovement (s : Db) (restaurantId movementId : Uuid) : Bool :=
  (s.movements.find? movementId).any fun m =>
    m.restaurantId = restaurantId ∧ m.matchedPaymentId = none

/-- The movement, if there is one. -/
def markBacking (restaurantId claimId : Uuid) (via : ConfirmedVia) : Option Uuid → Tx Err Db Unit
  | some movementId => markMovement restaurantId claimId movementId via
  | none => pure ()

/-- The transaction of `confirmClaim`, with the movement that it has found to back the claim. -/
def confirmWith (restaurantId claimId : Uuid) (via : ConfirmedVia) (movementId : Option Uuid) :
    Tx Err Db PaymentReceipt := Tx.withTransaction do
  let claim ← lockPendingClaim restaurantId claimId
  let applied ← applyToBill restaurantId claim.billId claim.amountVes
  let settled ← transitionPayment restaurantId claim.id .succeeded
    (some (match via with
      | .bank => "Matched to a movement reported by the restaurant bank connection"
      | .staff => "Verified against the restaurant bank account by staff")) .detach
  markBacking restaurantId claim.id via movementId
  return {
    settlement := settlementView applied, paymentId := claim.id,
    shareDetached := settled.shareDetached, tipVes := claim.tipVes,
    totalChargedVes := claim.amountVes + claim.tipVes }

/-! ## Statements -/

/-- The statements of a confirmation. -/
inductive ConfirmStatement where
  | lockClaim
  | applyBill
  | suggest
  | mark
  | commit
  /-- `UPDATE payment_bank_matches SET auto_confirmed = true`, after the transaction. -/
  | flag
  deriving DecidableEq, Repr

/-- A call of `confirmClaim`, and the error that the database answers a statement of it with. -/
structure Confirmation where
  restaurantId : Uuid
  claimId : Uuid
  via : ConfirmedVia
  bankMovementId : Option Uuid
  fault : ConfirmStatement → Option Err

/-- The next statement of a confirmation, with the rows that it has locked. -/
inductive ConfirmStage where
  | lockClaim
  | applyBill (claim : Payment)
  | suggest (claim : Payment) (bill : Bill)
  | mark (claim : Payment) (bill : Bill) (movementId : Option Uuid)
  | commit (claim : Payment) (bill : Bill) (marked : Option Uuid)

def ConfirmStage.statement : ConfirmStage → ConfirmStatement
  | .lockClaim => .lockClaim
  | .applyBill _ => .applyBill
  | .suggest _ _ => .suggest
  | .mark _ _ _ => .mark
  | .commit _ _ _ => .commit

/-- The counts that `reconcile` answers with. -/
structure Counts where
  matched : Nat := 0
  mismatch : Nat := 0
  ambiguous : Nat := 0
  notFound : Nat := 0
  autoConfirmed : Nat := 0
  deriving DecidableEq, Repr

/-- `counts[key[d.outcome]] += 1`. -/
def Counts.add (c : Counts) : MatchResult → Counts
  | .matched _ => { c with matched := c.matched + 1 }
  | .mismatch _ _ => { c with mismatch := c.mismatch + 1 }
  | .ambiguous => { c with ambiguous := c.ambiguous + 1 }
  | .notFound => { c with notFound := c.notFound + 1 }

/-- What a run depends on besides the restaurant: which of its two queries is answered first, the time,
and the errors of the database. -/
structure RunInput where
  claimsFirst : Bool
  now : Time
  fault : Uuid → ConfirmStatement → Option Err

/-- A run that has decided; `left` are the claims that are still to be confirmed, with their movements. -/
structure ReconcileRun where
  restaurantId : Uuid
  fault : Uuid → ConfirmStatement → Option Err
  counts : Counts
  left : List (Uuid × Uuid)

/-- The decisions that confirm a claim. -/
def autoConfirmed (decisions : List Decision) : List (Uuid × Uuid) :=
  decisions.filterMap fun d =>
    match d.result with
    | .matched m => if m.autoConfirm then some (d.claimId, m.id) else none
    | _ => none

/-- Who calls `confirmClaim`. -/
inductive Confirmer where
  | staff
  | run (r : ReconcileRun)

inductive BankCall where
  | reconcile (restaurantId : Uuid) (input : RunInput)
  | ingest (connection : BankConnection) (rows : List (Uuid × MovementRow)) (input : RunInput)
  | confirmClaim (restaurantId claimId : Uuid)
  | rejectClaim (restaurantId claimId : Uuid) (reason : Option String)

/-- The next statement of a call. -/
inductive BankPhase where
  | begun (call : BankCall)
  | inserting (connection : BankConnection) (rows : List (Uuid × MovementRow)) (input : RunInput)
  | reading (restaurantId : Uuid) (input : RunInput) (claims : Option (List PendingClaim))
      (movements : Option (List MovementShape))
  | noting (run : ReconcileRun) (decisions : List Decision)
  | loop (run : ReconcileRun)
  | confirming (c : Confirmation) (caller : Confirmer) (stage : ConfirmStage)
  | flagging (claimId : Uuid) (run : ReconcileRun)

inductive BankEvent where
  | confirmed (via : ConfirmedVia) (claimId : Uuid) (movementId : Option Uuid)
  | rejected (claimId : Uuid)
  /-- `BANK_AUTO_CONFIRM_SKIPPED`, for a claim that could not be confirmed. -/
  | skipped (claimId : Uuid) (err : Err)
  /-- The same warning, for a claim that is confirmed. -/
  | unflagged (claimId : Uuid) (err : Err)
  | reconciled (restaurantId : Uuid) (counts : Counts)
  | failed (err : Err)
  deriving DecidableEq

/-- It has locked the row of the claim. -/
def BankPhase.holdsClaim (claimId : Uuid) : BankPhase → Bool
  | .confirming c _ stage => match stage with
    | .lockClaim => false
    | _ => c.claimId = claimId
  | _ => false

/-- It has locked the row of the bill. -/
def BankPhase.holdsBill (billId : Uuid) : BankPhase → Bool
  | .confirming _ _ (.suggest claim _) | .confirming _ _ (.mark claim _ _)
  | .confirming _ _ (.commit claim _ _) => claim.billId = billId
  | _ => false

/-- It has marked the movement. -/
def BankPhase.holdsMovement (movementId : Uuid) : BankPhase → Bool
  | .confirming _ _ (.commit _ _ marked) => marked = some movementId
  | _ => false

/-- `confirmClaim` throws: staff gets the error, and a run goes on. -/
def Confirmer.fails (caller : Confirmer) (b : BankDb) (claimId : Uuid) (err : Err) :
    Advance BankDb BankPhase BankEvent :=
  match caller with
  | .staff => .ends b [.failed err]
  | .run r => .goes b (.loop r) [.skipped claimId err]

/-- `confirmClaim` has committed. -/
def Confirmer.succeeds (caller : Confirmer) (b : BankDb) (c : Confirmation) (marked : Option Uuid) :
    Advance BankDb BankPhase BankEvent :=
  match caller with
  | .staff => .ends b [.confirmed c.via c.claimId marked]
  | .run r => .goes b (.flagging c.claimId r) [.confirmed c.via c.claimId marked]

/-- The next statement of a confirmation, beside the other calls. -/
def ConfirmStage.next (b : BankDb) (others : List BankPhase) (c : Confirmation) (caller : Confirmer)
    (stage : ConfirmStage) : Advance BankDb BankPhase BankEvent :=
  match c.fault stage.statement with
  | some err => caller.fails b c.claimId err
  | none =>
    match stage with
    | .lockClaim =>
      if others.any (BankPhase.holdsClaim c.claimId) then .waits
      else
        match (lockPendingClaim c.restaurantId c.claimId).run b.db with
        | .ok claim _ => .goes b (.confirming c caller (.applyBill claim)) []
        | .error err _ => caller.fails b c.claimId err
    | .applyBill claim =>
      if others.any (BankPhase.holdsBill claim.billId) then .waits
      else
        match (do
          let applied ← applyToBill c.restaurantId claim.billId claim.amountVes
          let _ ← transitionPayment c.restaurantId claim.id .succeeded none .detach
          return applied.bill : Tx Err Db Bill).run b.db with
        | .ok bill _ => .goes b (.confirming c caller (.suggest claim bill)) []
        | .error err _ => caller.fails b c.claimId err
    | .suggest claim bill =>
      .goes b (.confirming c caller
        (.mark claim bill (b.db.backingMovement? c.restaurantId c.claimId c.bankMovementId))) []
    | .mark claim bill none => .goes b (.confirming c caller (.commit claim bill none)) []
    | .mark claim bill (some movementId) =>
      if others.any (BankPhase.holdsMovement movementId) then .waits
      else
        match (markMovement c.restaurantId c.claimId movementId c.via).run b.db with
        | .ok _ _ => .goes b (.confirming c caller (.commit claim bill
            (if freeMovement b.db c.restaurantId movementId then some movementId else none))) []
        | .error err _ => caller.fails b c.claimId err
    | .commit _ _ marked =>
      match (confirmWith c.restaurantId c.claimId c.via marked).run b.db with
      | .ok _ db => caller.succeeds { b with db } c marked
      | .error err _ => caller.fails b c.claimId err

/-- Both queries of a run are answered. -/
def decided (b : BankDb) (restaurantId : Uuid) (input : RunInput) (claims : List PendingClaim)
    (movements : List MovementShape) : Advance BankDb BankPhase BankEvent :=
  if claims = [] then .ends b [.reconciled restaurantId {}]
  else
    let decisions := decide claims movements
    .goes b (.noting ⟨restaurantId, input.fault, {}, autoConfirmed decisions⟩ decisions) []

/-- The next statement of a call, beside the other calls. -/
def BankPhase.next (b : BankDb) (others : List BankPhase) :
    BankPhase → Advance BankDb BankPhase BankEvent
  | .begun (.reconcile restaurantId input) => .goes b (.reading restaurantId input none none) []
  | .begun (.ingest connection rows input) => .goes b (.inserting connection rows input) []
  | .begun (.confirmClaim restaurantId claimId) =>
    .goes b (.confirming ⟨restaurantId, claimId, .staff, none, fun _ => none⟩ .staff .lockClaim) []
  | .begun (.rejectClaim restaurantId claimId reason) =>
    if others.any (BankPhase.holdsClaim claimId) then .waits
    else
      match (rejectClaim restaurantId claimId reason).run b.db with
      | .ok _ db => .ends { b with db } [.rejected claimId]
      | .error err _ => .ends b [.failed err]
  | .inserting connection [] input => .goes b (.reading connection.restaurantId input none none) []
  | .inserting connection ((id, row) :: rows) input =>
    match b.insertMovement connection id row input.now with
    | .ok b' => .goes b' (.inserting connection rows input) []
    | .error err => .ends b [.failed err]
  | .reading restaurantId input none none =>
    if input.claimsFirst then
      .goes b (.reading restaurantId input (some (b.pendingClaims restaurantId)) none) []
    else .goes b (.reading restaurantId input none (some (b.openMovements restaurantId input.now))) []
  | .reading restaurantId input (some claims) none =>
    decided b restaurantId input claims (b.openMovements restaurantId input.now)
  | .reading restaurantId input none (some movements) =>
    decided b restaurantId input (b.pendingClaims restaurantId) movements
  | .reading restaurantId input (some claims) (some movements) =>
    decided b restaurantId input claims movements
  | .noting run [] => .goes b (.loop run) []
  | .noting run (d :: decisions) =>
    .goes (b.note run.restaurantId d)
      (.noting { run with counts := run.counts.add d.result } decisions) []
  | .loop run =>
    match run.left with
    | [] => .ends b [.reconciled run.restaurantId run.counts]
    | (claimId, movementId) :: left =>
      .goes b (.confirming ⟨run.restaurantId, claimId, .bank, some movementId, run.fault claimId⟩
        (.run { run with left }) .lockClaim) []
  | .confirming c caller stage => stage.next b others c caller
  | .flagging claimId run =>
    match run.fault claimId .flag with
    | some err => .goes b (.loop run) [.unflagged claimId err]
    | none =>
      let counts := { run.counts with autoConfirmed := run.counts.autoConfirmed + 1 }
      .goes b (.loop { run with counts }) []

/-- The runs and the calls of staff. -/
def bank : Protocol BankDb BankPhase BankCall BankEvent where
  start := .begun
  next := BankPhase.next

/-! ## What a confirmation does -/

/-- A claim that was pending has succeeded, its bill is credited, and the movement is linked to it if it
was free. -/
structure Confirms (s s' : Db) (restaurantId claimId : Uuid) (via : ConfirmedVia)
    (marked : Option Uuid) (claim : Payment) (bill : Bill) : Prop where
  claimed : s.payments.find? claimId = some claim
  pending : claim.status = .pending
  billed : s.bills.find? claim.billId = some bill
  moved : ∃ detached, ∀ id, s'.payments.find? id =
    if id = claimId then (s.payments.find? id).map (Payment.moved .succeeded detached)
    else s.payments.find? id
  credited : ∃ status, ∀ id, s'.bills.find? id =
    if id = claim.billId then
      (s.bills.find? id).map (Bill.applied (bill.amountPaidVes + claim.amountVes) status)
    else s.bills.find? id
  linked : ∀ id, s'.movements.find? id = (s.movements.find? id).map fun m =>
    if some id = marked ∧ m.restaurantId = restaurantId ∧ m.matchedPaymentId = none then
      { m with matchedPaymentId := some claimId }
    else m
  unique : (∃ id ∈ marked, freeMovement s restaurantId id = true) →
    ∀ m ∈ s.movements, m.matchedPaymentId ≠ some claimId
  free : via = .bank → ∀ id ∈ marked, freeMovement s restaurantId id = true

section Confirming

variable {s s' : Db} {restaurantId claimId : Uuid} {via : ConfirmedVia} {marked : Option Uuid}
  {r : PaymentReceipt} {u : Unit}

theorem freeMovement_iff {id : Uuid} : freeMovement s restaurantId id = true ↔
    ∃ m, s.movements.find? id = some m ∧ m.restaurantId = restaurantId ∧ m.matchedPaymentId = none := by
  simp [freeMovement, Option.any_eq_true]

theorem freeMovement_eq {id : Uuid} : freeMovement s restaurantId id =
    ((s.movements.find? id).filter fun m =>
      m.restaurantId = restaurantId ∧ m.matchedPaymentId = none).isSome := by
  rw [freeMovement, Option.isSome_filter]

theorem markMovement_ok {movementId : Uuid}
    (h : (markMovement restaurantId claimId movementId via).run s = .ok u s') :
    (∃ movements, s' = { s with movements }) ∧
    (∀ id, s'.movements.find? id = (s.movements.find? id).map fun m =>
      if id = movementId ∧ m.restaurantId = restaurantId ∧ m.matchedPaymentId = none then
        { m with matchedPaymentId := some claimId }
      else m) ∧
    (freeMovement s restaurantId movementId = true →
      ∀ m ∈ s.movements, m.matchedPaymentId ≠ some claimId) ∧
    (via = .bank → freeMovement s restaurantId movementId = true) := by
  unfold markMovement at h
  simp only [Tx.bind_ok, Tx.run_get, Tx.require_ok, Tx.run_set, ← freeMovement_eq] at h
  obtain ⟨_, _, ⟨rfl, rfl⟩, _, _, ⟨hbank, rfl⟩, _, _, ⟨hunique, rfl⟩, h⟩ := h
  cases h
  refine ⟨⟨_, rfl⟩, fun id => ?_, hunique, hbank⟩
  rw [Table.find?_updateWhere]
  refine Option.map_congr fun m hm => ?_
  have hid : m.id = id := Table.find?_key hm
  simp [hid]

theorem markBacking_ok (h : (markBacking restaurantId claimId via marked).run s = .ok u s') :
    (∃ movements, s' = { s with movements }) ∧
    (∀ id, s'.movements.find? id = (s.movements.find? id).map fun m =>
      if some id = marked ∧ m.restaurantId = restaurantId ∧ m.matchedPaymentId = none then
        { m with matchedPaymentId := some claimId }
      else m) ∧
    ((∃ id ∈ marked, freeMovement s restaurantId id = true) →
      ∀ m ∈ s.movements, m.matchedPaymentId ≠ some claimId) ∧
    (via = .bank → ∀ id ∈ marked, freeMovement s restaurantId id = true) := by
  cases marked with
  | none =>
    obtain ⟨-, rfl⟩ := Tx.pure_ok.mp h
    refine ⟨⟨_, rfl⟩, fun id => ?_, nofun, fun _ => nofun⟩
    simp
  | some movementId =>
    obtain ⟨hmovements, hlinked, hunique, hbank⟩ := markMovement_ok h
    refine ⟨hmovements, fun id => ?_, ?_, ?_⟩
    · simp only [Option.some.injEq]
      exact hlinked id
    · rintro ⟨id, hid, hfree⟩
      obtain rfl : movementId = id := Option.some.inj hid
      exact hunique hfree
    · rintro hvia id hid
      obtain rfl : movementId = id := Option.some.inj hid
      exact hbank hvia

theorem confirmWith_ok (h : (confirmWith restaurantId claimId via marked).run s = .ok r s') :
    ∃ claim bill, Confirms s s' restaurantId claimId via marked claim bill := by
  unfold confirmWith at h
  simp only [Tx.withTransaction_ok, Tx.bind_ok, Tx.pure_ok] at h
  obtain ⟨claim, _, hlock, applied, s₁, happly, moved, s₂, hmove, _, s₃, hmark, -, rfl⟩ := h
  obtain ⟨hclaim, rfl, hpending, -, rfl⟩ := lockPendingClaim_ok hlock
  obtain ⟨hbill, hid, -, -, rfl⟩ := applyToBill_ok happly
  obtain ⟨current, hcurrent, ⟨hsame, -⟩ | ⟨-, detached, transitions, shares, rfl⟩⟩ :=
    transitionPayment_ok hmove
  · obtain rfl : current = claim := Option.some.inj ((payment?_eq_some.mp hcurrent).1.symm.trans hclaim)
    rw [hpending] at hsame
    cases hsame
  obtain ⟨⟨movements, rfl⟩, hlinked, hunique, hbank⟩ := markBacking_ok hmark
  exact ⟨claim, applied.bill, hclaim, hpending, (bill?_eq_some.mp hbill).1,
    ⟨detached, Table.find?_update_with (Payment.moved .succeeded detached) fun _ => rfl⟩,
    ⟨_, Table.find?_update_with (Bill.applied _ _) fun _ => rfl⟩, hlinked, hunique, hbank⟩

/-- With nobody beside it, the transaction is the one of `confirmClaim`. -/
theorem confirmClaim_run {bankMovementId : Option Uuid} :
    (confirmClaim restaurantId claimId via bankMovementId).run s =
      (confirmWith restaurantId claimId via
        (s.backingMovement? restaurantId claimId bankMovementId)).run s := by
  unfold confirmClaim confirmWith
  refine Tx.withTransaction_congr (Tx.bind_congr fun claim s₁ hlock => ?_)
  obtain ⟨-, rfl, -, -, rfl⟩ := lockPendingClaim_ok hlock
  refine Tx.bind_congr fun applied s₂ happly => Tx.bind_congr fun moved s₃ hmove => ?_
  have hmatches : s₃.bankMatches = s₁.bankMatches := by
    obtain ⟨-, -, -, -, rfl⟩ := applyToBill_ok happly
    obtain ⟨-, -, ⟨-, rfl⟩ | ⟨-, -, -, -, rfl⟩⟩ := transitionPayment_ok hmove
    · rfl
    · rfl
  have hbacking : s₃.backingMovement? restaurantId claim.id bankMovementId =
      s₁.backingMovement? restaurantId claim.id bankMovementId := by
    unfold Db.backingMovement?
    rw [hmatches]
  have huse : (useBackingMovement restaurantId claim.id bankMovementId via).run s₃ =
      (markBacking restaurantId claim.id via
        (s₁.backingMovement? restaurantId claim.id bankMovementId)).run s₃ := by
    unfold useBackingMovement
    rw [Tx.bind_of_ok Tx.run_get, hbacking]
    cases s₁.backingMovement? restaurantId claim.id bankMovementId <;> rfl
  cases hmark : (markBacking restaurantId claim.id via
      (s₁.backingMovement? restaurantId claim.id bankMovementId)).run s₃ with
  | ok u s₄ => rw [Tx.bind_of_ok hmark, Tx.bind_of_ok (huse.trans hmark)]
  | error err s₄ => rw [Tx.bind_of_error hmark, Tx.bind_of_error (huse.trans hmark)]

end Confirming

end Splite.Bank
