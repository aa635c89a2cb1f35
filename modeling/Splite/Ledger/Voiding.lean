import Splite.Ledger.Payments
import Splite.Lib.Interleave

/-!
# Voiding a split beside its payments (`services/splits.js`, `services/payments.js`)

`discardUnpaidSplit`, for `voidSplit` and for the `createSplit` that replaces a split, beside payments that
cite a share, statement by statement. `FOR UPDATE` locks a row against every other lock of it, and a
payment that is inserted locks its share with `FOR KEY SHARE`. A statement that waits for a row reads that
row as it is then, and the others as they were when it began.

* `SplitPhase.Sound`, `SplitPhase.Apart`: what a session knows, and which locks exclude each other.
* `split_goes`, `split_ends`: what a statement comes to, and what it commits.
* `apart_of_discardable`: no session that is about to credit a share runs beside one that is about to void
  its split.
* `splittingRule`: statements keep what the sessions know.
* `voiding_strands_nothing`: a split that is voided has taken no money, and takes none.
-/

namespace Splite.Voiding

/-- What the statements here read and write of a row of `payments`, whose amount is positive. -/
@[ext]
structure PaymentRow where
  id : Uuid
  billId : Uuid
  amountVes : Int
  status : PaymentStatus
  splitParticipantId : Option Uuid
  amount_pos : 0 < amountVes
  deriving Repr

instance : DecidableEq PaymentRow := fun _ _ => decidable_of_iff _ PaymentRow.ext_iff.symm

instance : Keyed PaymentRow Uuid := ⟨PaymentRow.id⟩

/-- The statuses of a payment that is under way, as `discardUnpaidSplit` counts them. -/
def IN_FLIGHT : List PaymentStatus := [.pending, .inDoubt, .ambiguous]

/-- What is committed of a restaurant. -/
structure SplitDb where
  splits : Table BillSplit
  shares : Table SplitParticipant
  payments : Table PaymentRow

/-- A share that `createSplit` inserts. -/
structure NewShare where
  id : Uuid
  extRef : String
  name : Option String
  amountVes : Int
  deriving DecidableEq, Repr

/-- A split that `createSplit` inserts with its shares. -/
structure NewSplit where
  id : Uuid
  restaurantId : Uuid
  billId : Uuid
  mode : SplitMode
  basisVes : Int
  shares : List NewShare
  deriving DecidableEq, Repr

def NewSplit.row (n : NewSplit) : BillSplit := ⟨n.id, n.restaurantId, n.billId, n.mode, n.basisVes, .active⟩

def NewSplit.participants (n : NewSplit) : List SplitParticipant :=
  n.shares.map fun r => ⟨r.id, n.restaurantId, n.id, r.extRef, r.name, r.amountVes, 0⟩

namespace SplitDb

/-- `SELECT … FROM bill_split_participants WHERE split_id = $1`. -/
def sharesOf (b : SplitDb) (splitId : Uuid) : List Uuid :=
  (b.shares.rows.filter fun r => r.splitId = splitId).map (·.id)

def paid (b : SplitDb) (shareId : Uuid) : Int := (b.shares.find? shareId).elim 0 (·.amountPaidVes)

/-- The payments that `discardUnpaidSplit` counts. -/
def inFlight (b : SplitDb) (shares : List Uuid) : List PaymentRow :=
  b.payments.rows.filter fun p => (∃ x ∈ p.splitParticipantId, x ∈ shares) ∧ p.status ∈ IN_FLIGHT

/-- The live split of a bill. -/
def live? (b : SplitDb) (billId : Uuid) : Option BillSplit :=
  b.splits.rows.find? fun r => r.billId = billId ∧ r.status = .active

/-- The split that a share belongs to. -/
def splitOf? (b : SplitDb) (shareId : Uuid) : Option BillSplit :=
  (b.shares.find? shareId).bind fun r => b.splits.find? r.splitId

def withStatus (status : SplitStatus) (r : BillSplit) : BillSplit := { r with status }

theorem withStatus_key (status : SplitStatus) (r : BillSplit) :
    Keyed.key (withStatus status r) = Keyed.key r := rfl

def setStatus (b : SplitDb) (splitId : Uuid) (status : SplitStatus) : SplitDb :=
  { b with splits := b.splits.update splitId (withStatus status) (withStatus_key status) }

def credited (amountVes : Int) (r : SplitParticipant) : SplitParticipant :=
  { r with amountPaidVes := r.amountPaidVes + amountVes }

theorem credited_key (amountVes : Int) (r : SplitParticipant) :
    Keyed.key (credited amountVes r) = Keyed.key r := rfl

def credit (b : SplitDb) (shareId : Uuid) (amountVes : Int) : SplitDb :=
  { b with shares := b.shares.update shareId (credited amountVes) (credited_key amountVes) }

def create? (b : SplitDb) (n : NewSplit) : Option SplitDb := do
  let splits ← b.splits.insert? n.row
  let shares ← b.shares.insertAll? n.participants
  return { b with splits, shares }

end SplitDb

/-! ## Sessions -/

inductive SplitCall where
  | voidSplit (billId splitId : Uuid)
  | createSplit (n : NewSplit)
  | recordPayment (p : PaymentRow)
  | transitionPayment (paymentId : Uuid) (toStatus : PaymentStatus) (onShareRefusal : OnShareRefusal)
  | markSplitsStale (billId : Uuid)
  deriving DecidableEq, Repr

/-- A split that is to be discarded, and the split that replaces it, if any. -/
structure Discard where
  splitId : Uuid
  replacement : Option NewSplit
  deriving DecidableEq, Repr

/-- A transaction that has written a payment: inserted it, or moved the one that it has locked. -/
inductive Writing where
  | recorded (p : PaymentRow)
  | moved (p : PaymentRow) (toStatus : PaymentStatus) (onShareRefusal : OnShareRefusal)
  deriving DecidableEq, Repr

def Writing.payment : Writing → PaymentRow
  | .recorded p => p
  | .moved p _ _ => p

/-- The next statement of a session. -/
inductive SplitPhase where
  /-- The first statement, as it begins. -/
  | begun (call : SplitCall)
  /-- `SELECT … FROM bill_splits … FOR UPDATE` waits for the row. -/
  | lockSplit (d : Discard)
  /-- `SELECT … FROM bill_split_participants … FOR UPDATE`, as it begins. -/
  | readShares (d : Discard)
  /-- It has locked these shares, on which this much is paid, and goes on with those that are left. -/
  | lockShares (d : Discard) (left locked : List Uuid) (paid : Int)
  /-- `SELECT count(*) … FROM payments …`. -/
  | countPayments (d : Discard) (locked : List Uuid)
  /-- `UPDATE bill_splits SET status = 'VOID' …`. -/
  | voidRow (d : Discard) (locked : List Uuid)
  /-- `INSERT INTO bill_splits …`, and what follows it. -/
  | insertSplit (n : NewSplit) (discarded : Option (Discard × List Uuid))
  /-- What is discarded is void, and what is new is written; `COMMIT`. -/
  | written (new : Option NewSplit) (discarded : Option (Discard × List Uuid))
  /-- The payment is locked; `UPDATE payments SET status …`. -/
  | movePayment (p : PaymentRow) (toStatus : PaymentStatus) (onShareRefusal : OnShareRefusal)
  /-- `SELECT … FOR UPDATE OF p` of `advanceShare`, as it begins. -/
  | readShare (t : Writing) (shareId : Uuid)
  /-- It has read the split of the share, and waits for the row of the share. -/
  | lockShare (t : Writing) (shareId : Uuid) (split : BillSplit)
  /-- `UPDATE bill_split_participants …`. -/
  | creditShare (t : Writing) (shareId : Uuid)
  /-- The payment is written, and its share is credited, if any, or given up; `COMMIT`. -/
  | settled (t : Writing) (shareId : Option Uuid) (detached : Bool)
  /-- `UPDATE bill_splits SET status = 'STALE' …` waits for the row. -/
  | lockStale (splitId : Uuid)
  /-- The split is stale; `COMMIT`. -/
  | staled (splitId : Uuid)
  deriving DecidableEq, Repr

namespace SplitPhase

/-- The split that it is discarding, with the shares that it has locked. -/
def discards : SplitPhase → Option (Discard × List Uuid)
  | .readShares d => some (d, [])
  | .lockShares d _ locked _ | .countPayments d locked | .voidRow d locked => some (d, locked)
  | .insertSplit _ discarded | .written _ discarded => discarded
  | _ => none

/-- The payment that it has written and not committed. -/
def writes : SplitPhase → Option Writing
  | .movePayment p toStatus onShareRefusal => some (.moved p toStatus onShareRefusal)
  | .readShare t _ | .lockShare t _ _ | .creditShare t _ | .settled t _ _ => some t
  | _ => none

/-- It has locked the row of the split. -/
def holdsSplit (splitId : Uuid) (t : SplitPhase) : Bool :=
  match t with
  | .staled id => id = splitId
  | _ => t.discards.any fun d => d.1.splitId = splitId

/-- It has locked the row of the share with `FOR UPDATE`. -/
def holdsShare (shareId : Uuid) (t : SplitPhase) : Bool :=
  match t with
  | .creditShare _ id => id = shareId
  | .settled _ id _ => id = some shareId
  | _ => t.discards.any fun d => d.2.contains shareId

/-- It has locked the row of the share with `FOR KEY SHARE`. -/
def citesShare (shareId : Uuid) (t : SplitPhase) : Bool :=
  t.writes.any fun
    | .recorded p => p.splitParticipantId = some shareId
    | .moved _ _ _ => false

/-- It has locked the row of the payment. -/
def holdsPayment (paymentId : Uuid) (t : SplitPhase) : Bool :=
  t.writes.any fun
    | .recorded _ => false
    | .moved p _ _ => p.id = paymentId

/-- It has changed the status of the split, and not committed. -/
def retires (splitId : Uuid) (t : SplitPhase) : Bool :=
  match t with
  | .staled id => id = splitId
  | .insertSplit _ discarded | .written _ discarded => discarded.any fun d => d.1.splitId = splitId
  | _ => false

/-- It has inserted a split of the bill, and not committed. -/
def inserts (billId : Uuid) : SplitPhase → Bool
  | .written new _ => new.any fun n => n.billId = billId
  | _ => false

end SplitPhase

inductive SplitEvent where
  | done
  | failed (err : Err)
  deriving DecidableEq, Repr

/-- `advanceShare` refuses, inside of the `SAVEPOINT` of a transition that may give the share up, or not. -/
def Writing.refused (t : Writing) (b : SplitDb) (err : Err) : Advance SplitDb SplitPhase SplitEvent :=
  match t with
  | .moved _ _ .detach =>
    if ∃ code ∈ err.apiCode, code ∈ SHARE_REFUSALS then .goes b (.settled t none true) []
    else .ends b [.failed err]
  | _ => .ends b [.failed err]

/-- The payment is written; its share follows once it is settled. -/
def Writing.goesOn (t : Writing) (status : PaymentStatus) (b : SplitDb) :
    Advance SplitDb SplitPhase SplitEvent :=
  match t.payment.splitParticipantId.filter fun _ => status ∈ SETTLED_STATUSES with
  | some shareId => .goes b (.readShare t shareId) []
  | none => .goes b (.settled t none false) []

/-- The row after its move, with or without its share. -/
def PaymentRow.moved (toStatus : PaymentStatus) (detached : Bool) (p : PaymentRow) : PaymentRow :=
  { p with status := toStatus, splitParticipantId := if detached then none else p.splitParticipantId }

theorem PaymentRow.moved_key (toStatus : PaymentStatus) (detached : Bool) (p : PaymentRow) :
    Keyed.key (p.moved toStatus detached) = Keyed.key p := rfl

/-- `COMMIT` of a payment. -/
def Writing.commit? (t : Writing) (detached : Bool) (b : SplitDb) : Option SplitDb :=
  match t with
  | .recorded p => (b.payments.insert? p).map fun payments => { b with payments }
  | .moved p toStatus _ =>
    some { b with
      payments := b.payments.update p.id (PaymentRow.moved toStatus detached)
        (PaymentRow.moved_key toStatus detached) }

def splitNotFound : Err := .api .splitNotFound "Split not found" []

def shareNotFound : Err := .api .splitShareNotFound "That split participant does not belong to this bill" []

/-- The next statement, beside the other sessions. -/
def SplitPhase.next (b : SplitDb) (others : List SplitPhase) :
    SplitPhase → Advance SplitDb SplitPhase SplitEvent
  | .begun (.voidSplit billId splitId) =>
    match (b.splits.find? splitId).filter fun r => r.billId = billId with
    | none => .ends b [.failed splitNotFound]
    | some _ => .goes b (.lockSplit ⟨splitId, none⟩) []
  | .begun (.createSplit n) =>
    match b.live? n.billId with
    | none => .goes b (.insertSplit n none) []
    | some live => .goes b (.lockSplit ⟨live.id, some n⟩) []
  | .begun (.recordPayment p) =>
    match p.splitParticipantId with
    | none => (Writing.recorded p).goesOn p.status b
    | some shareId =>
      if (b.shares.find? shareId).isNone then
        .ends b [.failed (.foreignKeyViolation "payments_split_participant_same_restaurant_fk")]
      else if others.any (SplitPhase.holdsShare shareId) then .waits
      else (Writing.recorded p).goesOn p.status b
  | .begun (.transitionPayment paymentId toStatus onShareRefusal) =>
    if others.any (SplitPhase.holdsPayment paymentId) then .waits
    else
      match b.payments.find? paymentId with
      | none => .ends b [.failed (.api .notFound "Payment not found" [])]
      | some p =>
        if p.status = toStatus then .ends b [.done]
        else if toStatus ∈ p.status.ALLOWED_TRANSITIONS then
          .goes b (.movePayment p toStatus onShareRefusal) []
        else
          .ends b [.failed (.api .paymentStateInvalid
            ("Cannot move a " ++ p.status.text ++ " payment to " ++ toStatus.text)
            [("from", p.status.text), ("to", toStatus.text)])]
  | .begun (.markSplitsStale billId) =>
    match b.live? billId with
    | none => .ends b [.done]
    | some live => .goes b (.lockStale live.id) []
  | .lockSplit d =>
    if others.any (SplitPhase.holdsSplit d.splitId) then .waits
    else
      match b.splits.find? d.splitId, d.replacement with
      | none, _ => .ends b [.failed splitNotFound]
      | some r, none =>
        if r.status = .active then .goes b (.readShares d) []
        else
          .ends b [.failed (.api .splitNotActive "That split has already been voided"
            [("status", r.status.text)])]
      | some r, some n =>
        -- `WHERE … status = 'ACTIVE'` is checked again on the row as it is now.
        if r.status = .active then .goes b (.readShares d) [] else .goes b (.insertSplit n none) []
  | .readShares d => .goes b (.lockShares d (b.sharesOf d.splitId) [] 0) []
  | .lockShares d [] locked paid =>
    if paid > 0 then
      .ends b [.failed (.api .splitHasPayments "A split with payments against it cannot be voided" [])]
    else .goes b (.countPayments d locked) []
  | .lockShares d (shareId :: left) locked paid =>
    if others.any fun u => u.holdsShare shareId || u.citesShare shareId then .waits
    else .goes b (.lockShares d left (shareId :: locked) (paid + b.paid shareId)) []
  | .countPayments d locked =>
    let inFlight := (b.inFlight locked).length
    if inFlight > 0 then
      .ends b [.failed (.api .splitHasPayments
        "A payment against one of these shares is still being resolved; settle or reject it before voiding"
        [("inFlightPayments", toString inFlight)])]
    else .goes b (.voidRow d locked) []
  | .voidRow d locked =>
    match d.replacement with
    | none => .goes b (.written none (some (d, locked))) []
    | some n => .goes b (.insertSplit n (some (d, locked))) []
  | .insertSplit n discarded =>
    match b.splits.rows.find? fun r => r.billId = n.billId ∧ r.status = .active ∧
        ∀ d ∈ discarded, d.1.splitId ≠ r.id with
    | some r =>
      -- The unique index waits for a transaction that takes the other split away.
      if others.any (SplitPhase.retires r.id) then .waits
      else
        .ends b [.failed (.api .splitAlreadyExists
          "This bill already has an active split; void it before creating another" [])]
    | none =>
      if others.any (SplitPhase.inserts n.billId) then .waits
      else .goes b (.written (some n) discarded) []
  | .written new discarded =>
    let b' := discarded.elim b fun d => b.setStatus d.1.splitId .void
    match new with
    | none => .ends b' [.done]
    | some n =>
      if (n.shares.map (·.amountVes)).sum ≠ n.basisVes then
        .ends b [.failed (.checkViolation "bill_split_participants_sum_check")]
      else
        match b'.create? n with
        | none => .ends b [.failed (.uniqueViolation "bill_splits_pkey")]
        | some b'' => .ends b'' [.done]
  | .movePayment p toStatus onShareRefusal =>
    (Writing.moved p toStatus onShareRefusal).goesOn toStatus b
  | .readShare t shareId =>
    match b.splitOf? shareId with
    | none => t.refused b shareNotFound
    | some split => .goes b (.lockShare t shareId split) []
  | .lockShare t shareId split =>
    if others.any fun u => u.holdsShare shareId || u.citesShare shareId then .waits
    else if split.billId ≠ t.payment.billId then t.refused b shareNotFound
    else if split.status = .stale then
      t.refused b
        (.api .splitStale "The bill changed after this split was agreed; agree a new one before paying" [])
    else if split.status ≠ .active then
      t.refused b (.api .splitNotActive "That split has been voided" [("status", split.status.text)])
    else .goes b (.creditShare t shareId) []
  | .creditShare t shareId =>
    match b.shares.find? shareId with
    | none => t.refused b shareNotFound
    | some r =>
      match (SplitDb.credited t.payment.amountVes r).violated with
      | none => .goes b (.settled t (some shareId) false) []
      | some "bill_split_participants_not_overpaid" =>
        t.refused b (.api .splitShareOverpaid "This payment exceeds what is left on that share"
          [("shareRemainingVes", toString (r.amountVes - r.amountPaidVes))])
      | some check => t.refused b (.checkViolation check)
  | .settled t shareId detached =>
    match t.commit? detached (shareId.elim b fun x => b.credit x t.payment.amountVes) with
    | none => .ends b [.failed (.uniqueViolation "payments_pkey")]
    | some b' => .ends b' [.done]
  | .lockStale splitId =>
    if others.any (SplitPhase.holdsSplit splitId) then .waits
    else
      match b.splits.find? splitId with
      | none => .ends b [.done]
      | some r => if r.status = .active then .goes b (.staled splitId) [] else .ends b [.done]
  | .staled splitId => .ends (b.setStatus splitId .stale) [.done]

/-- The calls about the splits of a restaurant. -/
def splitting : Protocol SplitDb SplitPhase SplitCall SplitEvent where
  start := .begun
  next := SplitPhase.next

/-! ## What a session knows under its locks -/

namespace SplitDb

/-- The checks and the foreign key of the shares. -/
structure Sound (b : SplitDb) : Prop where
  paid : ∀ r ∈ b.shares, 0 ≤ r.amountPaidVes
  owned : ∀ r ∈ b.shares, (b.splits.find? r.splitId).isSome = true

def Known (b : SplitDb) (splitId : Uuid) : Prop := (b.splits.find? splitId).isSome = true

/-- The shares of the split are among these, and nothing is paid on them. -/
def Unpaid (b : SplitDb) (splitId : Uuid) (locked : List Uuid) : Prop :=
  ∀ r ∈ b.shares, r.splitId = splitId → r.id ∈ locked ∧ r.amountPaidVes = 0

/-- No payment that is under way cites a share of the split. -/
def Unclaimed (b : SplitDb) (splitId : Uuid) : Prop :=
  ∀ p ∈ b.payments, p.status ∈ IN_FLIGHT → ∀ x ∈ p.splitParticipantId,
    ∀ r ∈ b.shares.find? x, r.splitId ≠ splitId

/-- The split of the share is not void. -/
def Live (b : SplitDb) (shareId : Uuid) : Prop := ∀ r ∈ b.splitOf? shareId, r.status ≠ .void

/-- What holds of a split that may be voided. -/
structure Discardable (b : SplitDb) (d : Discard × List Uuid) : Prop where
  known : b.Known d.1.splitId
  unpaid : b.Unpaid d.1.splitId d.2
  unclaimed : b.Unclaimed d.1.splitId

end SplitDb

/-- The payment that is moved is as it was read. -/
def Writing.Held (b : SplitDb) : Writing → Prop
  | .recorded _ => True
  | .moved p toStatus _ => b.payments.find? p.id = some p ∧ toStatus ∈ p.status.ALLOWED_TRANSITIONS

/-- The payment names the share, and was under way if it was committed. -/
structure Writing.Cites (b : SplitDb) (shareId : Uuid) (t : Writing) : Prop where
  held : t.Held b
  share : t.payment.splitParticipantId = some shareId
  inFlight : ∀ p toStatus onShareRefusal, t = .moved p toStatus onShareRefusal → p.status ∈ IN_FLIGHT

def SplitPhase.Sound (b : SplitDb) : SplitPhase → Prop
  | .readShares d => b.Known d.splitId
  | .lockShares d left locked paid => b.Known d.splitId ∧
    (∀ r ∈ b.shares, r.splitId = d.splitId → r.id ∈ locked ∨ r.id ∈ left) ∧ paid = (locked.map b.paid).sum
  | .countPayments d locked => b.Known d.splitId ∧ b.Unpaid d.splitId locked
  | .voidRow d locked => b.Discardable (d, locked)
  | .insertSplit _ discarded | .written _ discarded => ∀ d ∈ discarded, b.Discardable d
  | .movePayment p toStatus onShareRefusal => (Writing.moved p toStatus onShareRefusal).Held b
  | .readShare t shareId => t.Cites b shareId
  | .lockShare t shareId split => t.Cites b shareId ∧ (split.status = .active → b.Live shareId)
  | .creditShare t shareId => t.Cites b shareId ∧ b.Live shareId
  | .settled t shareId _ => t.Held b ∧ ∀ x ∈ shareId, t.Cites b x ∧ b.Live x
  | .staled splitId => ∀ r ∈ b.splits.find? splitId, r.status = .active
  | _ => True

/-- No row is locked twice in ways that exclude each other. -/
structure SplitPhase.Apart (t u : SplitPhase) : Prop where
  split : ∀ id, t.holdsSplit id = true → u.holdsSplit id = false
  share : ∀ id, t.holdsShare id = true → u.holdsShare id = false
  cites : ∀ id, t.holdsShare id = true → u.citesShare id = false
  cited : ∀ id, t.citesShare id = true → u.holdsShare id = false
  payment : ∀ id, t.holdsPayment id = true → u.holdsPayment id = false

section Locks

variable {t u : SplitPhase}

theorem SplitPhase.Apart.symm (h : t.Apart u) : u.Apart t where
  split id := Protocol.excludes_symm (h.split id)
  share id := Protocol.excludes_symm (h.share id)
  cites id := Protocol.excludes_symm (h.cited id)
  cited id := Protocol.excludes_symm (h.cites id)
  payment id := Protocol.excludes_symm (h.payment id)

/-- Whoever discards a split holds its row and the shares that it has locked. -/
theorem holds_of_discards {d : Discard × List Uuid} (h : t.discards = some d) :
    t.holdsSplit d.1.splitId = true ∧ ∀ x ∈ d.2, t.holdsShare x = true := by
  unfold SplitPhase.holdsSplit SplitPhase.holdsShare
  constructor
  · split
    · cases h
    · simp [h]
  · intro x hx
    split
    · cases h
    · cases h
    · simp [h, hx]

end Locks

/-! ## What commits change -/

section Commits

variable {b b' : SplitDb} {splitId shareId : Uuid} {status : SplitStatus} {amountVes : Int}
  {n : NewSplit} {t : Writing} {detached : Bool}

theorem find?_setStatus {id : Uuid} : (b.setStatus splitId status).splits.find? id =
    if id = splitId then (b.splits.find? id).map (SplitDb.withStatus status) else b.splits.find? id :=
  Table.find?_update_with _ (SplitDb.withStatus_key status) _

theorem known_setStatus {id : Uuid} : (b.setStatus splitId status).Known id ↔ b.Known id := by
  unfold SplitDb.Known
  rw [find?_setStatus]
  split <;> simp

theorem SplitDb.Sound.setStatus (h : b.Sound) : (b.setStatus splitId status).Sound where
  paid := h.paid
  owned r hr := known_setStatus.mpr (h.owned r hr)

theorem find?_credit {x : Uuid} : (b.credit shareId amountVes).shares.find? x =
    if x = shareId then (b.shares.find? x).map (SplitDb.credited amountVes) else b.shares.find? x :=
  Table.find?_update_with _ (SplitDb.credited_key amountVes) _

/-- A row of a share after a credit: it belongs where it did, and is another only if it is the one. -/
theorem mem_credit {r : SplitParticipant} (h : r ∈ (b.credit shareId amountVes).shares) :
    ∃ r₀ ∈ b.shares, r.id = r₀.id ∧ r.splitId = r₀.splitId ∧ (r.id ≠ shareId → r = r₀) ∧
      (r.id = shareId → r.amountPaidVes = r₀.amountPaidVes + amountVes) := by
  have h : r ∈ b.shares.update shareId (SplitDb.credited amountVes) (SplitDb.credited_key amountVes) := h
  obtain ⟨r₀, hr₀, rfl⟩ := Table.mem_update.mp h
  refine ⟨r₀, hr₀, ?_⟩
  by_cases hid : Keyed.key r₀ = shareId
  · have hid' : r₀.id = shareId := hid
    simp [hid, SplitDb.credited, hid']
  · have hid' : r₀.id ≠ shareId := hid
    simp [hid, hid']

theorem paid_credit {x : Uuid} (h : x ≠ shareId) : (b.credit shareId amountVes).paid x = b.paid x := by
  unfold SplitDb.paid
  rw [find?_credit, if_neg h]

theorem splitOf?_credit {x : Uuid} : (b.credit shareId amountVes).splitOf? x = b.splitOf? x := by
  unfold SplitDb.splitOf?
  rw [find?_credit]
  split
  · cases b.shares.find? x <;> rfl
  · rfl

theorem create?_eq_some (h : b.create? n = some b') : ∃ splits shares,
    b.splits.insert? n.row = some splits ∧ b.shares.insertAll? n.participants = some shares ∧
      b' = { b with splits, shares } := by
  obtain ⟨splits, hsplits, h⟩ := Option.bind_eq_some_iff.mp h
  obtain ⟨shares, hshares, h⟩ := Option.bind_eq_some_iff.mp h
  exact ⟨splits, shares, hsplits, hshares, (Option.some.inj h).symm⟩

/-- The splits of before are there, and another one is the new one. -/
theorem find?_create (h : b.create? n = some b') (id : Uuid) :
    b.splits.find? n.id = none ∧
      b'.splits.find? id = if id = n.id then some n.row else b.splits.find? id := by
  obtain ⟨splits, shares, hsplits, -, rfl⟩ := create?_eq_some h
  exact ⟨Table.find?_eq_none.mpr (Table.insert?_eq_some.mp hsplits).1, Table.find?_insert? hsplits⟩

/-- The shares of before are there, and another one is of the new split with nothing paid on it. -/
theorem mem_create (h : b.create? n = some b') {r : SplitParticipant} (hr : r ∈ b'.shares) :
    r ∈ b.shares ∨ (r.splitId = n.id ∧ r.amountPaidVes = 0) := by
  obtain ⟨splits, shares, -, hshares, rfl⟩ := create?_eq_some h
  rcases (Table.mem_insertAll? hshares).mp hr with hr | hr
  · exact .inl hr
  · obtain ⟨new, -, rfl⟩ := List.mem_map.mp hr
    exact .inr ⟨rfl, rfl⟩

theorem mem_create_of_mem (h : b.create? n = some b') {r : SplitParticipant} (hr : r ∈ b.shares) :
    r ∈ b'.shares := by
  obtain ⟨splits, shares, -, hshares, rfl⟩ := create?_eq_some h
  exact (Table.mem_insertAll? hshares).mpr (.inl hr)

theorem payments_create (h : b.create? n = some b') : b'.payments = b.payments := by
  obtain ⟨splits, shares, -, -, rfl⟩ := create?_eq_some h
  rfl

/-- A commit of a payment writes that payment alone. -/
theorem commit?_frame (h : t.commit? detached b = some b') : b'.splits = b.splits ∧ b'.shares = b.shares := by
  cases t with
  | recorded p =>
    obtain ⟨payments, -, rfl⟩ := Option.map_eq_some_iff.mp h
    exact ⟨rfl, rfl⟩
  | moved p toStatus onShareRefusal =>
    obtain rfl := Option.some.inj h
    exact ⟨rfl, rfl⟩

/-- A payment under way after the commit cites what the transaction does, or what one under way did. -/
theorem inFlight_commit (h : t.commit? detached b = some b') (ht : t.Held b) {q : PaymentRow}
    (hq : q ∈ b'.payments) (hstatus : q.status ∈ IN_FLIGHT) {x : Uuid}
    (hx : q.splitParticipantId = some x) :
    (∃ p, t = .recorded p ∧ p.splitParticipantId = some x) ∨
      ∃ p ∈ b.payments, p.status ∈ IN_FLIGHT ∧ p.splitParticipantId = some x := by
  cases t with
  | recorded p =>
    obtain ⟨payments, hins, rfl⟩ := Option.map_eq_some_iff.mp h
    rcases (Table.mem_insert? hins).mp hq with hq | rfl
    · exact .inr ⟨q, hq, hstatus, hx⟩
    · exact .inl ⟨q, rfl, hx⟩
  | moved p toStatus onShareRefusal =>
    obtain rfl := Option.some.inj h
    have hq : q ∈ b.payments.update p.id (PaymentRow.moved toStatus detached)
      (PaymentRow.moved_key toStatus detached) := hq
    obtain ⟨q₀, hq₀, rfl⟩ := Table.mem_update.mp hq
    refine .inr ⟨q₀, hq₀, ?_⟩
    by_cases hid : Keyed.key q₀ = p.id
    · -- the row that was moved was under way already, and cites what it did
      obtain rfl : q₀ = p := Table.eq_of_key hq₀ (Table.find?_mem ht.1) hid
      rw [if_pos hid] at hstatus hx
      have hallowed := ht.2
      dsimp only [PaymentRow.moved] at hstatus hx
      constructor
      · revert hallowed hstatus
        cases q₀.status <;> cases toStatus <;> decide
      · by_cases hd : detached = true
        · simp [hd] at hx
        · simpa [hd] using hx
    · rw [if_neg hid] at hstatus hx
      exact ⟨hstatus, hx⟩

/-- Another payment is found as it was. -/
theorem find?_commit (h : t.commit? detached b = some b') {q : PaymentRow}
    (hq : b.payments.find? q.id = some q)
    (hother : ∀ p toStatus onShareRefusal, t = .moved p toStatus onShareRefusal → p.id ≠ q.id) :
    b'.payments.find? q.id = some q := by
  cases t with
  | recorded p =>
    obtain ⟨payments, hins, rfl⟩ := Option.map_eq_some_iff.mp h
    change payments.find? q.id = some q
    rw [Table.find?_insert? hins, if_neg, hq]
    intro heq
    exact (Table.insert?_eq_some.mp hins).1 q (Table.find?_mem hq) heq
  | moved p toStatus onShareRefusal =>
    obtain rfl := Option.some.inj h
    dsimp only
    rw [Table.find?_update, if_neg (hother p toStatus onShareRefusal rfl).symm, hq]

end Commits

/-! ## What commits leave to the others -/

section Frame

variable {b b' : SplitDb} {u : SplitPhase} {splitId shareId x : Uuid} {status : SplitStatus}
  {amountVes : Int} {n : NewSplit} {t : Writing} {detached : Bool} {locked : List Uuid}
  {d : Discard × List Uuid}

theorem Writing.Held.of_payments (h : t.Held b) (hpayments : b'.payments = b.payments) : t.Held b' := by
  cases t with
  | recorded p => trivial
  | moved p toStatus onShareRefusal =>
    change b'.payments.find? p.id = some p ∧ _
    rw [hpayments]
    exact h

theorem Writing.Cites.of_payments (h : t.Cites b x) (hpayments : b'.payments = b.payments) : t.Cites b' x :=
  ⟨h.held.of_payments hpayments, h.share, h.inFlight⟩

/-- A share stays live unless its own split is voided. -/
theorem live_setStatus (h : b.Live x)
    (hvoid : status = .void → ∀ r ∈ b.shares.find? x, r.splitId ≠ splitId) :
    (b.setStatus splitId status).Live x := by
  intro r hr
  obtain ⟨share, hshare, hr⟩ := Option.bind_eq_some_iff.mp hr
  rw [find?_setStatus] at hr
  split at hr
  · rename_i hid
    obtain ⟨r₀, hr₀, rfl⟩ := Option.map_eq_some_iff.mp hr
    exact fun heq => hvoid heq share hshare hid
  · exact h r (Option.bind_eq_some_iff.mpr ⟨share, hshare, hr⟩)

theorem discardable_setStatus (h : b.Discardable d) : (b.setStatus splitId status).Discardable d :=
  ⟨known_setStatus.mpr h.known, h.unpaid, h.unclaimed⟩

theorem sound_setStatus (h : u.Sound b) (hlock : u.holdsSplit splitId = false)
    (hvoid : status = .void → ∀ w x, u.writes = some w → w.Cites b x →
      ∀ r ∈ b.shares.find? x, r.splitId ≠ splitId) :
    u.Sound (b.setStatus splitId status) := by
  have hcites : ∀ {w : Writing} {x : Uuid}, w.Cites b x → w.Cites (b.setStatus splitId status) x :=
    fun hw => hw.of_payments rfl
  cases u with
  | readShares d => exact known_setStatus.mpr h
  | lockShares d left locked paid => exact ⟨known_setStatus.mpr h.1, h.2⟩
  | countPayments d locked => exact ⟨known_setStatus.mpr h.1, h.2⟩
  | voidRow d locked => exact discardable_setStatus h
  | insertSplit n discarded => exact fun d hd => discardable_setStatus (h d hd)
  | written new discarded => exact fun d hd => discardable_setStatus (h d hd)
  | movePayment p toStatus onShareRefusal => exact h
  | readShare w x => exact hcites h
  | lockShare w x split =>
    exact ⟨hcites h.1, fun hactive => live_setStatus (h.2 hactive) fun heq => hvoid heq w x rfl h.1⟩
  | creditShare w x => exact ⟨hcites h.1, live_setStatus h.2 fun heq => hvoid heq w x rfl h.1⟩
  | settled w share detached =>
    exact ⟨h.1.of_payments rfl, fun x hx => ⟨hcites (h.2 x hx).1,
      live_setStatus (h.2 x hx).2 fun heq => hvoid heq w x rfl (h.2 x hx).1⟩⟩
  | staled id =>
    intro r hr
    rw [find?_setStatus, if_neg (by simpa [SplitPhase.holdsSplit] using hlock)] at hr
    exact h r hr
  | _ => trivial

theorem known_create (h : b.create? n = some b') (hknown : b.Known splitId) :
    b'.Known splitId ∧ splitId ≠ n.id := by
  obtain ⟨hnew, hfind⟩ := find?_create h splitId
  have hne : splitId ≠ n.id := by
    rintro rfl
    rw [SplitDb.Known, hnew] at hknown
    cases hknown
  rw [if_neg hne] at hfind
  exact ⟨by rwa [SplitDb.Known, hfind], hne⟩

/-- A share that is there is found as it was. -/
theorem find?_share_create (h : b.create? n = some b') {r : SplitParticipant}
    (hr : b'.shares.find? x = some r) :
    b.shares.find? x = some r ∨ (r.splitId = n.id ∧ r.amountPaidVes = 0 ∧ b.shares.find? x = none) := by
  obtain ⟨splits, shares, -, hshares, rfl⟩ := create?_eq_some h
  cases hold : b.shares.find? x with
  | some r₀ =>
    rw [Table.find?_insertAll? hshares hold] at hr
    exact .inl hr
  | none =>
    rcases mem_create h (Table.find?_mem hr) with hmem | hnew
    · exact absurd (Table.find?_key hr) (Table.find?_eq_none.mp hold r hmem)
    · exact .inr ⟨hnew.1, hnew.2, rfl⟩

theorem paid_create (h : b.create? n = some b') : b'.paid x = b.paid x := by
  unfold SplitDb.paid
  cases hnew : b'.shares.find? x with
  | none =>
    cases hold : b.shares.find? x with
    | none => rfl
    | some r =>
      exact absurd (Table.find?_key hold)
        (Table.find?_eq_none.mp hnew r (mem_create_of_mem h (Table.find?_mem hold)))
  | some r =>
    rcases find?_share_create h hnew with hold | ⟨-, hpaid, hold⟩
    · rw [hold]
    · rw [hold]
      exact hpaid

theorem unpaid_create (h : b.create? n = some b') (hne : splitId ≠ n.id) (hunpaid : b.Unpaid splitId locked) :
    b'.Unpaid splitId locked := by
  intro r hr hid
  rcases mem_create h hr with hr | ⟨hnew, -⟩
  · exact hunpaid r hr hid
  · exact absurd (hid.symm.trans hnew) hne

theorem unclaimed_create (h : b.create? n = some b') (hne : splitId ≠ n.id) (hfree : b.Unclaimed splitId) :
    b'.Unclaimed splitId := by
  intro p hp hstatus y hy r hr
  rw [payments_create h] at hp
  rcases find?_share_create h hr with hold | ⟨hnew, -⟩
  · exact hfree p hp hstatus y hy r hold
  · rw [hnew]
    exact hne.symm

theorem live_create (h : b.create? n = some b') (hb : b.Sound) (hlive : b.Live x) : b'.Live x := by
  intro r hr
  obtain ⟨share, hshare, hr⟩ := Option.bind_eq_some_iff.mp hr
  rcases find?_share_create h hshare with hold | ⟨hnew, -⟩
  · have hne := (known_create h (hb.owned share (Table.find?_mem hold))).2
    rw [(find?_create h _).2, if_neg hne] at hr
    exact hlive r (Option.bind_eq_some_iff.mpr ⟨share, hold, hr⟩)
  · rw [(find?_create h _).2, if_pos hnew] at hr
    obtain rfl := Option.some.inj hr
    exact nofun

theorem SplitDb.Sound.create (hb : b.Sound) (h : b.create? n = some b') : b'.Sound where
  paid r hr := by
    rcases mem_create h hr with hr | ⟨-, hpaid⟩
    · exact hb.paid r hr
    · exact hpaid.ge
  owned r hr := by
    rcases mem_create h hr with hr | ⟨hnew, -⟩
    · exact (known_create h (hb.owned r hr)).1
    · rw [(find?_create h _).2, if_pos hnew]
      rfl

theorem sound_create (h : b.create? n = some b') (hb : b.Sound) (hu : u.Sound b) : u.Sound b' := by
  have hcites : ∀ {w : Writing} {x : Uuid}, w.Cites b x → w.Cites b' x :=
    fun hw => hw.of_payments (payments_create h)
  have hdiscard : ∀ {d : Discard × List Uuid}, b.Discardable d → b'.Discardable d := fun hd =>
    have hknown := known_create h hd.known
    ⟨hknown.1, unpaid_create h hknown.2 hd.unpaid, unclaimed_create h hknown.2 hd.unclaimed⟩
  cases u with
  | readShares d => exact (known_create h hu).1
  | lockShares d left locked paid =>
    obtain ⟨hknown, hall, hpaid⟩ := hu
    obtain ⟨hknown', hne⟩ := known_create h hknown
    refine ⟨hknown', fun r hr hid => ?_, ?_⟩
    · rcases mem_create h hr with hr | ⟨hnew, -⟩
      · exact hall r hr hid
      · exact absurd (hid.symm.trans hnew) hne
    · rw [hpaid]
      exact congrArg List.sum (List.map_congr_left fun y _ => (paid_create h).symm)
  | countPayments d locked =>
    obtain ⟨hknown, hunpaid⟩ := hu
    obtain ⟨hknown', hne⟩ := known_create h hknown
    exact ⟨hknown', unpaid_create h hne hunpaid⟩
  | voidRow d locked => exact hdiscard hu
  | insertSplit n' discarded => exact fun d hd => hdiscard (hu d hd)
  | written new discarded => exact fun d hd => hdiscard (hu d hd)
  | movePayment p toStatus onShareRefusal =>
    exact Writing.Held.of_payments (t := .moved p toStatus onShareRefusal) hu (payments_create h)
  | readShare w x => exact hcites hu
  | lockShare w x split => exact ⟨hcites hu.1, fun hactive => live_create h hb (hu.2 hactive)⟩
  | creditShare w x => exact ⟨hcites hu.1, live_create h hb hu.2⟩
  | settled w share detached =>
    exact ⟨hu.1.of_payments (payments_create h),
      fun x hx => ⟨hcites (hu.2 x hx).1, live_create h hb (hu.2 x hx).2⟩⟩
  | staled id =>
    intro r hr
    rw [(find?_create h _).2] at hr
    split at hr
    · obtain rfl := Option.some.inj hr
      rfl
    · exact hu r hr
  | _ => trivial

theorem live_credit (h : b.Live x) : (b.credit shareId amountVes).Live x := by
  intro r hr
  rw [splitOf?_credit] at hr
  exact h r hr

/-- The shares that are locked by others are left alone. -/
theorem unpaid_credit (h : b.Unpaid splitId locked) (hx : shareId ∉ locked) :
    (b.credit shareId amountVes).Unpaid splitId locked := by
  intro r hr hid
  obtain ⟨r₀, hr₀, hkey, hsplit, hsame, -⟩ := mem_credit hr
  obtain ⟨hmem, hpaid⟩ := h r₀ hr₀ (hsplit.symm.trans hid)
  rw [← hkey] at hmem
  refine ⟨hmem, ?_⟩
  rw [hsame fun heq => hx (heq ▸ hmem), hpaid]

theorem unclaimed_credit (h : b.Unclaimed splitId) : (b.credit shareId amountVes).Unclaimed splitId := by
  intro p hp hstatus y hy r hr
  rw [find?_credit] at hr
  split at hr
  · obtain ⟨r₀, hr₀, rfl⟩ := Option.map_eq_some_iff.mp hr
    exact h p hp hstatus y hy r₀ hr₀
  · exact h p hp hstatus y hy r hr

theorem discardable_credit (h : b.Discardable d) (hx : shareId ∉ d.2) :
    (b.credit shareId amountVes).Discardable d :=
  ⟨h.known, unpaid_credit h.unpaid hx, unclaimed_credit h.unclaimed⟩

theorem SplitDb.Sound.credit (h : b.Sound) (hamount : 0 ≤ amountVes) : (b.credit shareId amountVes).Sound where
  paid r hr := by
    obtain ⟨r₀, hr₀, -, -, hsame, hcredited⟩ := mem_credit hr
    by_cases hid : r.id = shareId
    · rw [hcredited hid]
      exact add_nonneg (h.paid r₀ hr₀) hamount
    · rw [hsame hid]
      exact h.paid r₀ hr₀
  owned r hr := by
    obtain ⟨r₀, hr₀, -, hsplit, -⟩ := mem_credit hr
    rw [hsplit]
    exact h.owned r₀ hr₀

theorem sound_credit (hu : u.Sound b) (hlock : u.holdsShare shareId = false) :
    u.Sound (b.credit shareId amountVes) := by
  have hcites : ∀ {w : Writing} {x : Uuid}, w.Cites b x → w.Cites (b.credit shareId amountVes) x :=
    fun hw => hw.of_payments rfl
  have hfree : ∀ {d : Discard × List Uuid}, u.discards = some d → shareId ∉ d.2 := fun hd hx =>
    Bool.false_ne_true (hlock.symm.trans ((holds_of_discards hd).2 shareId hx))
  cases u with
  | readShares d => exact hu
  | lockShares d left locked paid =>
    obtain ⟨hknown, hall, hpaid⟩ := hu
    refine ⟨hknown, fun r hr hid => ?_, ?_⟩
    · obtain ⟨r₀, hr₀, hkey, hsplit, -⟩ := mem_credit hr
      rw [hkey]
      exact hall r₀ hr₀ (hsplit.symm.trans hid)
    · rw [hpaid]
      refine congrArg List.sum (List.map_congr_left fun y hy => (paid_credit ?_).symm)
      rintro rfl
      exact hfree rfl hy
  | countPayments d locked => exact ⟨hu.1, unpaid_credit hu.2 (hfree rfl)⟩
  | voidRow d locked => exact discardable_credit hu (hfree rfl)
  | insertSplit n discarded => exact fun d hd => discardable_credit (hu d hd) (hfree hd)
  | written new discarded => exact fun d hd => discardable_credit (hu d hd) (hfree hd)
  | movePayment p toStatus onShareRefusal => exact hu
  | readShare w x => exact hcites hu
  | lockShare w x split => exact ⟨hcites hu.1, fun hactive => live_credit (hu.2 hactive)⟩
  | creditShare w x => exact ⟨hcites hu.1, live_credit hu.2⟩
  | settled w share detached =>
    exact ⟨hu.1.of_payments rfl, fun x hx => ⟨hcites (hu.2 x hx).1, live_credit (hu.2 x hx).2⟩⟩
  | staled id => exact hu
  | _ => trivial

/-- The payment of another transaction is as it was. -/
theorem held_commit {w : Writing} (h : t.commit? detached b = some b') (hw : w.Held b)
    (hother : ∀ p q toStatus toStatus' onShareRefusal onShareRefusal',
      t = .moved p toStatus onShareRefusal → w = .moved q toStatus' onShareRefusal' → p.id ≠ q.id) :
    w.Held b' := by
  cases w with
  | recorded q => trivial
  | moved q toStatus' onShareRefusal' =>
    exact ⟨find?_commit h hw.1 fun p toStatus onShareRefusal ht => hother _ _ _ _ _ _ ht rfl, hw.2⟩

/-- A payment that is committed cites no share that another session has locked. -/
theorem discardable_commit (h : t.commit? detached b = some b') (ht : t.Held b) (hd : b.Discardable d)
    (hcite : ∀ p x, t = .recorded p → p.splitParticipantId = some x → x ∉ d.2) : b'.Discardable d := by
  obtain ⟨hsplits, hshares⟩ := commit?_frame h
  refine ⟨?_, ?_, fun q hq hstatus x hx r hr hid => ?_⟩
  · rw [SplitDb.Known, hsplits]
    exact hd.known
  · intro r hr hid
    rw [hshares] at hr
    exact hd.unpaid r hr hid
  · rw [hshares] at hr
    rcases inFlight_commit h ht hq hstatus hx with ⟨p, hp, hpx⟩ | ⟨p, hp, hpstatus, hpx⟩
    · have hmem := (hd.unpaid r (Table.find?_mem hr) hid).1
      rw [show r.id = x from Table.find?_key hr] at hmem
      exact hcite p x hp hpx hmem
    · exact hd.unclaimed p hp hpstatus x hpx r hr hid

theorem SplitDb.Sound.commit (h : t.commit? detached b = some b') (hb : b.Sound) : b'.Sound := by
  obtain ⟨hsplits, hshares⟩ := commit?_frame h
  constructor
  · rw [hshares]
    exact hb.paid
  · rw [hshares, hsplits]
    exact hb.owned

theorem live_commit (h : t.commit? detached b = some b') : b'.Live x ↔ b.Live x := by
  obtain ⟨hsplits, hshares⟩ := commit?_frame h
  unfold SplitDb.Live SplitDb.splitOf?
  rw [hsplits, hshares]

theorem sound_commit (h : t.commit? detached b = some b') (ht : t.Held b) (hu : u.Sound b)
    (hmoved : ∀ p toStatus onShareRefusal, t = .moved p toStatus onShareRefusal →
      u.holdsPayment p.id = false)
    (hcite : ∀ p x, t = .recorded p → p.splitParticipantId = some x → u.holdsShare x = false) :
    u.Sound b' := by
  obtain ⟨hsplits, hshares⟩ := commit?_frame h
  have hheld : ∀ {w : Writing}, u.writes = some w → w.Held b → w.Held b' := by
    intro w hwrites hw
    refine held_commit h hw fun p q toStatus toStatus' refusal refusal' hp hq heq => ?_
    have hfree := hmoved p toStatus refusal hp
    simp [SplitPhase.holdsPayment, hwrites, hq, heq] at hfree
  have hcites : ∀ {w : Writing} {x : Uuid}, u.writes = some w → w.Cites b x → w.Cites b' x :=
    fun hwrites hw => ⟨hheld hwrites hw.held, hw.share, hw.inFlight⟩
  have hdiscard : ∀ {d : Discard × List Uuid}, u.discards = some d → b.Discardable d → b'.Discardable d :=
    fun hd hdiscard => discardable_commit h ht hdiscard fun p x hp hx hmem =>
      Bool.false_ne_true ((hcite p x hp hx).symm.trans ((holds_of_discards hd).2 x hmem))
  have hpaid : b'.paid = b.paid := by
    funext x
    unfold SplitDb.paid
    rw [hshares]
  cases u with
  | readShares d =>
    change b'.Known d.splitId
    rw [SplitDb.Known, hsplits]
    exact hu
  | lockShares d left locked paid =>
    change b'.Known d.splitId ∧ (∀ r ∈ b'.shares, _) ∧ _
    rw [SplitDb.Known, hsplits, hshares, hpaid]
    exact hu
  | countPayments d locked =>
    change b'.Known d.splitId ∧ b'.Unpaid d.splitId locked
    rw [SplitDb.Known, SplitDb.Unpaid, hsplits, hshares]
    exact hu
  | voidRow d locked => exact hdiscard rfl hu
  | insertSplit n discarded => exact fun d hd => hdiscard hd (hu d hd)
  | written new discarded => exact fun d hd => hdiscard hd (hu d hd)
  | movePayment p toStatus onShareRefusal => exact hheld rfl hu
  | readShare w x => exact hcites rfl hu
  | lockShare w x split => exact ⟨hcites rfl hu.1, fun hactive => (live_commit h).mpr (hu.2 hactive)⟩
  | creditShare w x => exact ⟨hcites rfl hu.1, (live_commit h).mpr hu.2⟩
  | settled w share detached =>
    exact ⟨hheld rfl hu.1, fun x hx => ⟨hcites rfl (hu.2 x hx).1, (live_commit h).mpr (hu.2 x hx).2⟩⟩
  | staled id =>
    change ∀ r ∈ b'.splits.find? id, _
    rw [hsplits]
    exact hu
  | _ => trivial

end Frame

/-! ## Statements -/

/-- What the session has locked it had locked before, or no other session has. -/
structure SplitPhase.Acquires (t t' u : SplitPhase) : Prop where
  split : ∀ id, t'.holdsSplit id = true → t.holdsSplit id = true ∨ u.holdsSplit id = false
  share : ∀ id, t'.holdsShare id = true →
    t.holdsShare id = true ∨ (u.holdsShare id = false ∧ u.citesShare id = false)
  cited : ∀ id, t'.citesShare id = true → t.citesShare id = true ∨ u.holdsShare id = false
  payment : ∀ id, t'.holdsPayment id = true → t.holdsPayment id = true ∨ u.holdsPayment id = false

theorem SplitPhase.Apart.acquires {t t' u : SplitPhase} (h : t.Apart u) (hnew : t.Acquires t' u) :
    t'.Apart u where
  split id hid := (hnew.split id hid).elim (h.split id) (fun h => h)
  share id hid := (hnew.share id hid).elim (h.share id) And.left
  cites id hid := (hnew.share id hid).elim (h.cites id) And.right
  cited id hid := (hnew.cited id hid).elim (h.cited id) (fun h => h)
  payment id hid := (hnew.payment id hid).elim (h.payment id) (fun h => h)

/-- A statement that commits nothing: what the session knows after it, and what it has locked. -/
structure SplitPhase.GoesOn (b : SplitDb) (us : List SplitPhase) (t t' : SplitPhase) : Prop where
  sound : t'.Sound b
  acquires : ∀ u ∈ us, t.Acquires t' u

section Statements

variable {b b' : SplitDb} {us : List SplitPhase} {t t' : SplitPhase} {w : Writing}
  {answer : List SplitEvent} {status : PaymentStatus} {shareId splitId : Uuid} {err : Err}
  {d : Discard} {locked left : List Uuid}

theorem refused_goes (h : w.refused b err = .goes b' t' answer) : b' = b ∧ t' = .settled w none true := by
  unfold Writing.refused at h
  split at h
  · split at h
    · cases h
      exact ⟨rfl, rfl⟩
    · cases h
  · cases h

theorem refused_ends (h : w.refused b err = .ends b' answer) : b' = b := by
  unfold Writing.refused at h
  split at h
  · split at h
    · cases h
    · cases h
      rfl
  · cases h
    rfl

/-- A payment that is settled goes on to its share. -/
theorem goesOn_goes (hheld : w.Held b)
    (hinFlight : ∀ p toStatus onShareRefusal, w = .moved p toStatus onShareRefusal →
      status ∈ SETTLED_STATUSES → p.status ∈ IN_FLIGHT)
    (h : w.goesOn status b = .goes b' t' answer) :
    b' = b ∧ t'.Sound b ∧ t'.writes = some w ∧ t'.discards = none ∧
      (∀ id, t'.holdsSplit id = false) ∧ ∀ id, t'.holdsShare id = false := by
  unfold Writing.goesOn at h
  split at h
  · rename_i x hx
    cases h
    obtain ⟨hshare, hsettled⟩ := Option.filter_eq_some_iff.mp hx
    have hsettled : status ∈ SETTLED_STATUSES := by simpa using hsettled
    exact ⟨rfl, ⟨hheld, hshare, fun p toStatus refusal hp => hinFlight p toStatus refusal hp hsettled⟩,
      rfl, rfl, fun _ => rfl, fun _ => rfl⟩
  · cases h
    exact ⟨rfl, ⟨hheld, by simp⟩, rfl, rfl, fun _ => rfl, fun _ => rfl⟩

theorem goesOn_ends (h : w.goesOn status b = .ends b' answer) : False := by
  unfold Writing.goesOn at h
  split at h <;> cases h

/-- A payment that is settled was under way. -/
theorem inFlight_of_settled {old new : PaymentStatus} (h : new ∈ old.ALLOWED_TRANSITIONS)
    (hsettled : new ∈ SETTLED_STATUSES) : old ∈ IN_FLIGHT := by
  revert h hsettled
  cases old <;> cases new <;> decide

/-- Once all shares of a split are locked, and nothing is paid on any, the split is unpaid. -/
theorem unpaid_of_locked (hb : b.Sound)
    (hall : ∀ r ∈ b.shares, r.splitId = splitId → r.id ∈ locked ∨ r.id ∈ ([] : List Uuid))
    (hpaid : (locked.map b.paid).sum ≤ 0) : b.Unpaid splitId locked := by
  have hnonneg : ∀ x, 0 ≤ b.paid x := by
    intro x
    unfold SplitDb.paid
    cases hx : b.shares.find? x with
    | none => exact le_rfl
    | some r => exact hb.paid r (Table.find?_mem hx)
  intro r hr hid
  have hmem := (hall r hr hid).resolve_right List.not_mem_nil
  refine ⟨hmem, le_antisymm ?_ (hb.paid r hr)⟩
  have hle : b.paid r.id ≤ (locked.map b.paid).sum :=
    List.single_le_sum (by simpa using fun x _ => hnonneg x) _ (List.mem_map_of_mem hmem)
  have hself : b.paid r.id = r.amountPaidVes := by
    have hfind : b.shares.find? r.id = some r := Table.find?_eq_some.mpr ⟨hr, rfl⟩
    unfold SplitDb.paid
    rw [hfind]
    rfl
  omega

/-- Once no payment under way cites a share that is locked, none cites a share of the split. -/
theorem unclaimed_of_count (hunpaid : b.Unpaid splitId locked) (hcount : ¬(b.inFlight locked).length > 0) :
    b.Unclaimed splitId := by
  intro p hp hstatus x hx r hr hid
  have hmem := (hunpaid r (Table.find?_mem hr) hid).1
  rw [show r.id = x from Table.find?_key hr] at hmem
  have hcounted : p ∈ b.inFlight locked := by
    unfold SplitDb.inFlight
    rw [List.mem_filter]
    exact ⟨hp, by simpa using ⟨⟨x, hx, hmem⟩, hstatus⟩⟩
  exact hcount (List.length_pos_of_mem hcounted)

theorem acquires_of_free {u : SplitPhase} (hsplit : ∀ id, t'.holdsSplit id = false)
    (hshare : ∀ id, t'.holdsShare id = false)
    (hcited : ∀ id, t'.citesShare id = true → t.citesShare id = true ∨ u.holdsShare id = false)
    (hpayment : ∀ id, t'.holdsPayment id = true → t.holdsPayment id = true ∨ u.holdsPayment id = false) :
    t.Acquires t' u where
  split id hid := absurd hid (by simp [hsplit])
  share id hid := absurd hid (by simp [hshare])
  cited := hcited
  payment := hpayment

/-- The locks of a payment are those of its transaction. -/
theorem acquires_of_writes {u : SplitPhase} (hwrites : t'.writes = t.writes)
    (hsplit : ∀ id, t'.holdsSplit id = false)
    (hshare : ∀ id, t'.holdsShare id = true →
      t.holdsShare id = true ∨ (u.holdsShare id = false ∧ u.citesShare id = false)) :
    t.Acquires t' u where
  split id hid := absurd hid (by simp [hsplit])
  share := hshare
  cited id hid := .inl (by simpa [SplitPhase.citesShare, hwrites] using hid)
  payment id hid := .inl (by simpa [SplitPhase.holdsPayment, hwrites] using hid)

theorem discards_split {u : SplitPhase} (h : u.writes = none) (id : Uuid) :
    u.citesShare id = false ∧ u.holdsPayment id = false := by
  simp [SplitPhase.citesShare, SplitPhase.holdsPayment, h]

/-- The locks of a discard: those of before, and those that no other session has. -/
theorem acquires_of_discards {u : SplitPhase} (hwrites : t'.writes = none)
    (hsplit : ∀ id, t'.holdsSplit id = true → t.holdsSplit id = true ∨ u.holdsSplit id = false)
    (hshare : ∀ id, t'.holdsShare id = true →
      t.holdsShare id = true ∨ (u.holdsShare id = false ∧ u.citesShare id = false)) :
    t.Acquires t' u where
  split := hsplit
  share := hshare
  cited id hid := absurd hid (by simp [discards_split hwrites])
  payment id hid := absurd hid (by simp [discards_split hwrites])

theorem free_of_not_any {f : SplitPhase → Bool} (h : ¬us.any f = true) : ∀ u ∈ us, f u = false := by
  simpa using h

/-- A statement that does not end its transaction commits nothing. -/
theorem split_goes (hb : b.Sound) (ht : t.Sound b) (h : t.next b us = .goes b' t' answer) :
    b' = b ∧ t.GoesOn b us t' := by
  cases t with
  | begun call =>
    cases call with
    | voidSplit billId splitId =>
      unfold SplitPhase.next at h
      dsimp only at h
      split at h
      · cases h
      · cases h
        exact ⟨rfl, trivial, fun u _ => acquires_of_discards rfl nofun nofun⟩
    | createSplit n =>
      unfold SplitPhase.next at h
      dsimp only at h
      split at h <;> cases h
      · exact ⟨rfl, nofun, fun u _ => acquires_of_discards rfl nofun nofun⟩
      · exact ⟨rfl, trivial, fun u _ => acquires_of_discards rfl nofun nofun⟩
    | recordPayment p =>
      have hgoes : (Writing.recorded p).goesOn p.status b = .goes b' t' answer →
          (∀ u ∈ us, ∀ x, p.splitParticipantId = some x → u.holdsShare x = false) →
          b' = b ∧ (SplitPhase.begun (.recordPayment p)).GoesOn b us t' := by
        intro h hfree
        obtain ⟨rfl, hsound, hwrites, -, hsplit, hshare⟩ := goesOn_goes (w := .recorded p) trivial (by simp) h
        refine ⟨rfl, hsound, fun u hu => acquires_of_free hsplit hshare (fun id hid => .inr ?_) ?_⟩
        · exact hfree u hu id (by simpa [SplitPhase.citesShare, hwrites] using hid)
        · intro id hid
          simp [SplitPhase.holdsPayment, hwrites] at hid
      unfold SplitPhase.next at h
      dsimp only at h
      split at h
      · rename_i hnone
        exact hgoes h fun u _ x hx => by simp [hnone] at hx
      · rename_i shareId hsome
        split at h
        · cases h
        · split at h
          · cases h
          · rename_i hfree
            refine hgoes h fun u hu x hx => ?_
            obtain rfl : shareId = x := Option.some.inj (hsome.symm.trans hx)
            exact free_of_not_any hfree u hu
    | transitionPayment paymentId toStatus onShareRefusal =>
      unfold SplitPhase.next at h
      dsimp only at h
      split at h
      · cases h
      · rename_i hfree
        split at h
        · cases h
        · rename_i p hp
          obtain rfl : p.id = paymentId := Table.find?_key hp
          split at h
          · cases h
          · split at h
            · rename_i hallowed
              cases h
              refine ⟨rfl, ⟨hp, hallowed⟩, fun u hu => acquires_of_free (fun _ => rfl) (fun _ => rfl) nofun ?_⟩
              intro id hid
              obtain rfl : p.id = id := by simpa [SplitPhase.holdsPayment, SplitPhase.writes] using hid
              exact .inr (free_of_not_any hfree u hu)
            · cases h
    | markSplitsStale billId =>
      unfold SplitPhase.next at h
      dsimp only at h
      split at h
      · cases h
      · cases h
        exact ⟨rfl, trivial, fun u _ => acquires_of_discards rfl nofun nofun⟩
  | lockSplit d =>
    have hread : ∀ {r : BillSplit}, b.splits.find? d.splitId = some r →
        ¬us.any (SplitPhase.holdsSplit d.splitId) = true →
        (SplitPhase.lockSplit d).GoesOn b us (.readShares d) := by
      intro r hr hfree
      refine ⟨?_, fun u hu => acquires_of_discards rfl (fun id hid => .inr ?_) nofun⟩
      · change (b.splits.find? d.splitId).isSome = true
        rw [hr]
        rfl
      · obtain rfl : d.splitId = id := by
          simpa [SplitPhase.holdsSplit, SplitPhase.discards] using hid
        exact free_of_not_any hfree u hu
    unfold SplitPhase.next at h
    dsimp only at h
    split at h
    · cases h
    · rename_i hfree
      split at h
      · cases h
      · rename_i r hr hnone
        split at h
        · cases h
          exact ⟨rfl, hread hr hfree⟩
        · cases h
      · rename_i r n hr hsome
        split at h
        · cases h
          exact ⟨rfl, hread hr hfree⟩
        · cases h
          exact ⟨rfl, nofun, fun u _ => acquires_of_discards rfl nofun nofun⟩
  | readShares d =>
    cases h
    refine ⟨rfl, ⟨ht, fun r hr hid => .inr ?_, rfl⟩,
      fun u _ => acquires_of_discards rfl (fun id hid => .inl hid) fun id hid => .inl hid⟩
    exact List.mem_map.mpr ⟨r, List.mem_filter.mpr ⟨hr, by simpa using hid⟩, rfl⟩
  | lockShares d left locked paid =>
    obtain ⟨hknown, hall, hpaid⟩ := ht
    cases left with
    | nil =>
      unfold SplitPhase.next at h
      dsimp only at h
      split at h
      · cases h
      · rename_i hzero
        cases h
        exact ⟨rfl, ⟨hknown, unpaid_of_locked hb hall (hpaid ▸ not_lt.mp hzero)⟩,
          fun u _ => acquires_of_discards rfl (fun id hid => .inl hid) fun id hid => .inl hid⟩
    | cons shareId left =>
      unfold SplitPhase.next at h
      dsimp only at h
      split at h
      · cases h
      · rename_i hfree
        cases h
        refine ⟨rfl, ⟨hknown, fun r hr hid => ?_, ?_⟩,
          fun u hu => acquires_of_discards rfl (fun id hid => .inl hid) fun id hid => ?_⟩
        · rcases hall r hr hid with hmem | hmem
          · exact .inl (List.mem_cons_of_mem _ hmem)
          · rcases List.mem_cons.mp hmem with heq | hmem
            · exact .inl (heq ▸ List.mem_cons_self)
            · exact .inr hmem
        · rw [hpaid, List.map_cons, List.sum_cons, add_comm]
        · have hid : id = shareId ∨ id ∈ locked := by
            simpa [SplitPhase.holdsShare, SplitPhase.discards] using hid
          rcases hid with rfl | hid
          · right
            simpa using free_of_not_any hfree u hu
          · left
            simpa [SplitPhase.holdsShare, SplitPhase.discards] using hid
  | countPayments d locked =>
    obtain ⟨hknown, hunpaid⟩ := ht
    unfold SplitPhase.next at h
    dsimp only at h
    split at h
    · cases h
    · rename_i hcount
      cases h
      exact ⟨rfl, ⟨hknown, hunpaid, unclaimed_of_count hunpaid hcount⟩,
        fun u _ => acquires_of_discards rfl (fun id hid => .inl hid) fun id hid => .inl hid⟩
  | voidRow d locked =>
    unfold SplitPhase.next at h
    dsimp only at h
    split at h <;> cases h
    · exact ⟨rfl, fun d' hd' => Option.mem_some_iff.mp hd' ▸ ht,
        fun u _ => acquires_of_discards rfl (fun id hid => .inl hid) fun id hid => .inl hid⟩
    · exact ⟨rfl, fun d' hd' => Option.mem_some_iff.mp hd' ▸ ht,
        fun u _ => acquires_of_discards rfl (fun id hid => .inl hid) fun id hid => .inl hid⟩
  | insertSplit n discarded =>
    unfold SplitPhase.next at h
    dsimp only at h
    split at h
    · split at h <;> cases h
    · split at h
      · cases h
      · cases h
        exact ⟨rfl, ht,
          fun u _ => acquires_of_discards rfl (fun id hid => .inl hid) fun id hid => .inl hid⟩
  | written new discarded =>
    unfold SplitPhase.next at h
    dsimp only at h
    split at h
    · cases h
    · split at h
      · cases h
      · split at h <;> cases h
  | movePayment p toStatus onShareRefusal =>
    obtain ⟨rfl, hsound, hwrites, -, hsplit, hshare⟩ := goesOn_goes (w := .moved p toStatus onShareRefusal) ht
      (by
        rintro p' toStatus' refusal' heq hsettled
        cases heq
        exact inFlight_of_settled ht.2 hsettled) h
    exact ⟨rfl, hsound, fun u _ => acquires_of_writes hwrites hsplit fun id hid => by simp [hshare] at hid⟩
  | readShare w shareId =>
    unfold SplitPhase.next at h
    dsimp only at h
    split at h
    · obtain ⟨rfl, rfl⟩ := refused_goes h
      exact ⟨rfl, ⟨ht.held, by simp⟩, fun u _ => acquires_of_writes rfl (fun _ => rfl) nofun⟩
    · rename_i split hsplit
      cases h
      refine ⟨rfl, ⟨ht, fun hactive r hr => ?_⟩, fun u _ => acquires_of_writes rfl (fun _ => rfl) nofun⟩
      obtain rfl : split = r := Option.some.inj (hsplit.symm.trans hr)
      simp [hactive]
  | lockShare w shareId split =>
    have hrefused : ∀ {err : Err}, w.refused b err = .goes b' t' answer →
        b' = b ∧ (SplitPhase.lockShare w shareId split).GoesOn b us t' := by
      intro err h
      obtain ⟨rfl, rfl⟩ := refused_goes h
      exact ⟨rfl, ⟨ht.1.held, by simp⟩, fun u _ => acquires_of_writes rfl (fun _ => rfl) nofun⟩
    unfold SplitPhase.next at h
    dsimp only at h
    split_ifs at h with hwait hbill hstale hactive
    · exact hrefused h
    · exact hrefused h
    · exact hrefused h
    · cases h
      refine ⟨rfl, ⟨ht.1, ht.2 (not_not.mp hactive)⟩,
        fun u hu => acquires_of_writes rfl (fun _ => rfl) fun id hid => .inr ?_⟩
      obtain rfl : shareId = id := by simpa [SplitPhase.holdsShare] using hid
      simpa using free_of_not_any hwait u hu
  | creditShare w shareId =>
    have hrefused : ∀ {err : Err}, w.refused b err = .goes b' t' answer →
        b' = b ∧ (SplitPhase.creditShare w shareId).GoesOn b us t' := by
      intro err h
      obtain ⟨rfl, rfl⟩ := refused_goes h
      exact ⟨rfl, ⟨ht.1.held, by simp⟩, fun u _ => acquires_of_writes rfl (fun _ => rfl) nofun⟩
    unfold SplitPhase.next at h
    dsimp only at h
    split at h
    · exact hrefused h
    · split at h
      · cases h
        refine ⟨rfl, ⟨ht.1.held, fun x hx => ?_⟩,
          fun u _ => acquires_of_writes rfl (fun _ => rfl) fun id hid => .inl ?_⟩
        · obtain rfl := Option.mem_some_iff.mp hx
          exact ht
        · simpa [SplitPhase.holdsShare] using hid
      · exact hrefused h
      · exact hrefused h
  | settled w shareId detached =>
    unfold SplitPhase.next at h
    dsimp only at h
    split at h <;> cases h
  | lockStale splitId =>
    unfold SplitPhase.next at h
    dsimp only at h
    split at h
    · cases h
    · rename_i hfree
      split at h
      · cases h
      · rename_i r hr
        split at h
        · rename_i hactive
          cases h
          refine ⟨rfl, fun r' hr' => ?_, fun u hu => acquires_of_discards rfl (fun id hid => .inr ?_) nofun⟩
          · obtain rfl : r = r' := Option.some.inj (hr.symm.trans hr')
            exact hactive
          · obtain rfl : splitId = id := by simpa [SplitPhase.holdsSplit] using hid
            exact free_of_not_any hfree u hu
        · cases h
  | staled splitId => cases h

end Statements

/-! ## Commits -/

section Endings

variable {b b' : SplitDb} {us : List SplitPhase} {t u : SplitPhase} {answer : List SplitEvent}
  {splitId : Uuid}

/-- What the statements that end a transaction write of splits. -/
def SplitDb.discarded (b : SplitDb) (discarded : Option (Discard × List Uuid)) : SplitDb :=
  discarded.elim b fun d => b.setStatus d.1.splitId .void

/-- What they write of the share that is settled. -/
def SplitDb.settledOn (b : SplitDb) (shareId : Option Uuid) (amountVes : Int) : SplitDb :=
  shareId.elim b fun x => b.credit x amountVes

/-- What the last statement of a transaction commits. -/
inductive SplitPhase.Commits (b : SplitDb) : SplitPhase → SplitDb → Prop
  | nothing (t : SplitPhase) : Commits b t b
  | discards (new : Option NewSplit) (discarded : Option (Discard × List Uuid)) :
    Commits b (.written new discarded) (b.discarded discarded)
  | replaces {n : NewSplit} {b' : SplitDb} (discarded : Option (Discard × List Uuid))
    (h : (b.discarded discarded).create? n = some b') : Commits b (.written (some n) discarded) b'
  | settles {w : Writing} {shareId : Option Uuid} {detached : Bool} {b' : SplitDb}
    (h : w.commit? detached (b.settledOn shareId w.payment.amountVes) = some b') :
    Commits b (.settled w shareId detached) b'
  | stales (splitId : Uuid) : Commits b (.staled splitId) (b.setStatus splitId .stale)

theorem refused_commits {w : Writing} {err : Err} (h : w.refused b err = .ends b' answer) :
    t.Commits b b' := by
  obtain rfl := refused_ends h
  exact .nothing _

theorem split_ends (h : t.next b us = .ends b' answer) : t.Commits b b' := by
  cases t with
  | begun call =>
    cases call with
    | voidSplit billId splitId =>
      unfold SplitPhase.next at h
      dsimp only at h
      split at h <;> cases h
      exact .nothing _
    | createSplit n =>
      unfold SplitPhase.next at h
      dsimp only at h
      split at h <;> cases h
    | recordPayment p =>
      unfold SplitPhase.next at h
      dsimp only at h
      split at h
      · exact (goesOn_ends h).elim
      · split at h
        · cases h
          exact .nothing _
        · split at h
          · cases h
          · exact (goesOn_ends h).elim
    | transitionPayment paymentId toStatus onShareRefusal =>
      unfold SplitPhase.next at h
      dsimp only at h
      split_ifs at h
      split at h
      · cases h
        exact .nothing _
      · split_ifs at h <;> cases h <;> exact .nothing _
    | markSplitsStale billId =>
      unfold SplitPhase.next at h
      dsimp only at h
      split at h <;> cases h
      exact .nothing _
  | lockSplit d =>
    unfold SplitPhase.next at h
    dsimp only at h
    split_ifs at h
    split at h
    · cases h
      exact .nothing _
    · split_ifs at h
      cases h
      exact .nothing _
    · split_ifs at h
  | readShares d => cases h
  | lockShares d left locked paid =>
    unfold SplitPhase.next at h
    cases left with
    | nil =>
      dsimp only at h
      split_ifs at h
      cases h
      exact .nothing _
    | cons shareId left =>
      dsimp only at h
      split_ifs at h
  | countPayments d locked =>
    unfold SplitPhase.next at h
    dsimp only at h
    split_ifs at h
    cases h
    exact .nothing _
  | voidRow d locked =>
    unfold SplitPhase.next at h
    dsimp only at h
    split at h <;> cases h
  | insertSplit n discarded =>
    unfold SplitPhase.next at h
    dsimp only at h
    split at h
    · split_ifs at h
      cases h
      exact .nothing _
    · split_ifs at h
  | written new discarded =>
    unfold SplitPhase.next at h
    dsimp only at h
    split at h
    · cases h
      exact .discards _ _
    · split_ifs at h
      · cases h
        exact .nothing _
      · split at h
        · cases h
          exact .nothing _
        · rename_i hcreate
          cases h
          exact .replaces _ hcreate
  | movePayment p toStatus onShareRefusal => exact (goesOn_ends h).elim
  | readShare w shareId =>
    unfold SplitPhase.next at h
    dsimp only at h
    split at h
    · exact refused_commits h
    · cases h
  | lockShare w shareId split =>
    unfold SplitPhase.next at h
    dsimp only at h
    split_ifs at h <;> exact refused_commits h
  | creditShare w shareId =>
    unfold SplitPhase.next at h
    dsimp only at h
    split at h
    · exact refused_commits h
    · split at h
      · cases h
      · exact refused_commits h
      · exact refused_commits h
  | settled w shareId detached =>
    unfold SplitPhase.next at h
    dsimp only at h
    split at h
    · cases h
      exact .nothing _
    · rename_i hcommit
      cases h
      exact .settles hcommit
  | lockStale splitId =>
    unfold SplitPhase.next at h
    dsimp only at h
    split_ifs at h
    split at h
    · cases h
      exact .nothing _
    · split_ifs at h
      cases h
      exact .nothing _
  | staled splitId =>
    cases h
    exact .stales _

/-- Whoever writes a payment that cites a share cannot run beside a session that may void the split of
that share. -/
theorem apart_of_discardable {d : Discard × List Uuid} {w : Writing} {x : Uuid} (hapart : t.Apart u)
    (hdiscards : t.discards = some d) (hd : b.Discardable d) (hwrites : u.writes = some w)
    (hw : w.Cites b x) : ∀ r ∈ b.shares.find? x, r.splitId ≠ d.1.splitId := by
  intro r hr hid
  cases w with
  | recorded p =>
    -- the share that is inserted against is locked, in two ways that exclude each other
    have hmem := (hd.unpaid r (Table.find?_mem hr) hid).1
    rw [show r.id = x from Table.find?_key hr] at hmem
    have hfree := hapart.cites x ((holds_of_discards hdiscards).2 x hmem)
    have hshare : p.splitParticipantId = some x := hw.share
    simp [SplitPhase.citesShare, hwrites, hshare] at hfree
  | moved p toStatus onShareRefusal =>
    -- the payment that is moved was counted
    have hp : b.payments.find? p.id = some p := hw.held.1
    exact hd.unclaimed p (Table.find?_mem hp) (hw.inFlight p toStatus onShareRefusal rfl) x hw.share r hr hid

theorem sound_discarded {discarded : Option (Discard × List Uuid)} (hb : b.Sound) :
    (b.discarded discarded).Sound := by
  cases discarded with
  | none => exact hb
  | some d => exact hb.setStatus

theorem sound_settledOn {shareId : Option Uuid} {amountVes : Int} (hb : b.Sound) (hamount : 0 ≤ amountVes) :
    (b.settledOn shareId amountVes).Sound := by
  cases shareId with
  | none => exact hb
  | some x => exact hb.credit hamount

/-- A commit keeps the checks. -/
theorem SplitPhase.Commits.sound (h : t.Commits b b') (hb : b.Sound) : b'.Sound := by
  cases h with
  | nothing => exact hb
  | discards new discarded => exact sound_discarded hb
  | replaces discarded h => exact (sound_discarded hb).create h
  | @settles w shareId detached b' h =>
    have hpos : 0 ≤ w.payment.amountVes := w.payment.amount_pos.le
    exact (sound_settledOn hb hpos).commit h
  | stales splitId => exact hb.setStatus

/-- A session that discards a split leaves the others what they know. -/
theorem keeps_discarded {new : Option NewSplit} {discarded : Option (Discard × List Uuid)}
    (ht : (SplitPhase.written new discarded).Sound b) (hu : u.Sound b)
    (hapart : (SplitPhase.written new discarded).Apart u) : u.Sound (b.discarded discarded) := by
  cases discarded with
  | none => exact hu
  | some d =>
    have hd : b.Discardable d := ht d rfl
    exact sound_setStatus hu (hapart.split _ (holds_of_discards rfl).1)
      fun _ w x hwrites hw => apart_of_discardable hapart rfl hd hwrites hw

/-- A commit leaves the others what they know. -/
theorem SplitPhase.Commits.keeps (h : t.Commits b b') (hb : b.Sound) (ht : t.Sound b) (hu : u.Sound b)
    (hapart : t.Apart u) : u.Sound b' := by
  cases h with
  | nothing => exact hu
  | discards new discarded => exact keeps_discarded ht hu hapart
  | replaces discarded h => exact sound_create h (sound_discarded hb) (keeps_discarded ht hu hapart)
  | @settles w shareId detached b' h =>
    have hcredited : u.Sound (b.settledOn shareId w.payment.amountVes) := by
      cases shareId with
      | none => exact hu
      | some x => exact sound_credit hu (hapart.share x (by simp [SplitPhase.holdsShare]))
    have hheld : w.Held (b.settledOn shareId w.payment.amountVes) := by
      cases shareId with
      | none => exact ht.1
      | some x => exact ht.1.of_payments rfl
    refine sound_commit h hheld hcredited (fun p toStatus onShareRefusal hp => ?_) fun p x hp hx => ?_
    · exact hapart.payment p.id (by simp [SplitPhase.holdsPayment, SplitPhase.writes, hp])
    · exact hapart.cited x (by simp [SplitPhase.citesShare, SplitPhase.writes, hp, hx])
  | stales splitId =>
    exact sound_setStatus hu (hapart.split splitId (by simp [SplitPhase.holdsSplit])) nofun

/-! ## What becomes of a split that is void -/

namespace SplitDb

def Voided (b : SplitDb) (splitId : Uuid) : Prop := ∃ r ∈ b.splits.find? splitId, r.status = .void

/-- What a statement may do to the splits that are void, and to the one that it voids. -/
structure Spares (b b' : SplitDb) : Prop where
  /-- A split becomes void with nothing paid on its shares and no payment under way that cites one. -/
  emptied : ∀ k, ¬b.Voided k → b'.Voided k →
    (∀ r ∈ b'.shares, r.splitId = k → r.amountPaidVes = 0) ∧ b'.Unclaimed k
  /-- It stays void. -/
  final : ∀ k, b.Voided k → b'.Voided k
  /-- Its shares stay as they are. -/
  uncredited : ∀ k, b.Voided k → ∀ r ∈ b'.shares, r.splitId = k → r ∈ b.shares

theorem Spares.refl (b : SplitDb) : b.Spares b :=
  ⟨fun _ h h' => absurd h' h, fun _ h => h, fun _ _ _ hr _ => hr⟩

/-- One that changes no split, and only shares of splits that are not void. -/
theorem Spares.of_splits (hsplits : b'.splits = b.splits)
    (hshares : ∀ r ∈ b'.shares, r ∈ b.shares ∨ ¬b.Voided r.splitId) : b.Spares b' := by
  have hvoided : ∀ k, b'.Voided k ↔ b.Voided k := fun k => by rw [Voided, Voided, hsplits]
  refine ⟨fun k h h' => absurd ((hvoided k).mp h') h, fun k h => (hvoided k).mpr h, fun k h r hr hid => ?_⟩
  exact (hshares r hr).resolve_right (not_not.mpr (hid ▸ h))

theorem voided_setStatus {status : SplitStatus} {k : Uuid} : (b.setStatus splitId status).Voided k ↔
    if k = splitId then b.Known k ∧ status = .void else b.Voided k := by
  unfold Voided Known
  rw [find?_setStatus]
  split
  · cases b.splits.find? k <;> simp [withStatus]
  · rfl

/-- One that discards a split which may be voided. -/
theorem Spares.discarded {discarded : Option (Discard × List Uuid)}
    (h : ∀ d ∈ discarded, b.Discardable d) : b.Spares (b.discarded discarded) := by
  cases discarded with
  | none => exact .refl b
  | some d =>
    have hd := h d rfl
    refine ⟨fun k hbefore hafter => ?_, fun k hk => ?_, fun k _ r hr _ => hr⟩
    · have hafter := voided_setStatus.mp hafter
      split at hafter
      · rename_i hid
        subst hid
        exact ⟨fun r hr hid => (hd.unpaid r hr hid).2, hd.unclaimed⟩
      · exact absurd hafter hbefore
    · refine voided_setStatus.mpr ?_
      split
      · rename_i hid
        subst hid
        exact ⟨hd.known, rfl⟩
      · exact hk

theorem voided_create {n : NewSplit} {k : Uuid} (h : b.create? n = some b') : b'.Voided k ↔ b.Voided k := by
  obtain ⟨hnew, hfind⟩ := find?_create h k
  unfold Voided
  rw [hfind]
  split
  · rename_i hid
    subst hid
    simp [hnew, NewSplit.row]
  · rfl

/-- One that also inserts a split. -/
theorem Spares.create {b₁ : SplitDb} {n : NewSplit} (hspares : b.Spares b₁) (h : b₁.create? n = some b') :
    b.Spares b' := by
  have hother : ∀ {k}, b₁.Voided k → k ≠ n.id := by
    rintro k ⟨r, hr, -⟩
    have hknown : b₁.Known k := by
      rw [Known, Option.mem_def.mp hr]
      rfl
    exact (known_create h hknown).2
  refine ⟨fun k hbefore hafter => ?_, fun k hk => (voided_create h).mpr (hspares.final k hk),
    fun k hk r hr hid => ?_⟩
  · have hafter := (voided_create h).mp hafter
    obtain ⟨hpaid, hfree⟩ := hspares.emptied k hbefore hafter
    refine ⟨fun r hr hid => ?_, unclaimed_create h (hother hafter) hfree⟩
    rcases mem_create h hr with hr | ⟨-, hzero⟩
    · exact hpaid r hr hid
    · exact hzero
  · rcases mem_create h hr with hr | ⟨hnew, -⟩
    · exact hspares.uncredited k hk r hr hid
    · exact absurd (hid.symm.trans hnew) (hother (hspares.final k hk))

/-- One that credits a share which is live. -/
theorem Spares.credit {x : Uuid} {amountVes : Int} (hlive : b.Live x) : b.Spares (b.credit x amountVes) := by
  refine .of_splits rfl fun r hr => ?_
  obtain ⟨r₀, hr₀, hkey, hsplit, hsame, -⟩ := mem_credit hr
  by_cases hid : r.id = x
  · right
    rintro ⟨split, hfind, hvoid⟩
    have hshare : b.shares.find? x = some r₀ := Table.find?_eq_some.mpr ⟨hr₀, hkey.symm.trans hid⟩
    refine hlive split (Option.bind_eq_some_iff.mpr ⟨r₀, hshare, ?_⟩) hvoid
    rw [← hsplit]
    exact hfind
  · left
    rw [hsame hid]
    exact hr₀

end SplitDb

/-- A commit spares the splits that are void. -/
theorem SplitPhase.Commits.spares (h : t.Commits b b') (ht : t.Sound b) : b.Spares b' := by
  cases h with
  | nothing => exact .refl b
  | discards new discarded => exact .discarded ht
  | replaces discarded h => exact (SplitDb.Spares.discarded ht).create h
  | @settles w shareId detached b' h =>
    obtain ⟨hsplits, hshares⟩ := commit?_frame h
    cases shareId with
    | none => exact .of_splits hsplits fun r hr => .inl (hshares ▸ hr)
    | some x =>
      have hcredit : b.Spares (b.credit x w.payment.amountVes) := .credit (ht.2 x rfl).2
      have hvoided : ∀ k, b'.Voided k ↔ (b.credit x w.payment.amountVes).Voided k := fun k => by
        rw [SplitDb.Voided, hsplits]
        rfl
      refine ⟨fun k hk hk' => absurd hk' ?_, fun k hk => (hvoided k).mpr (hcredit.final k hk),
        fun k hk r hr => hcredit.uncredited k hk r (hshares ▸ hr)⟩
      rw [SplitDb.Voided, hsplits]
      exact hk
  | stales splitId =>
    refine ⟨fun k hk hk' => ?_, fun k hk => ?_, fun k _ r hr _ => hr⟩
    · have hk' := SplitDb.voided_setStatus.mp hk'
      split at hk'
      · exact absurd hk'.2 nofun
      · exact absurd hk' hk
    · refine SplitDb.voided_setStatus.mpr ?_
      split
      · rename_i hid
        subst hid
        obtain ⟨r, hr, hvoid⟩ := hk
        have hactive := ht r hr
        rw [hvoid] at hactive
        cases hactive
      · exact hk

end Endings

/-! ## Runs -/

theorem splittingRule : splitting.Rule (fun _ => True) (fun _ _ _ => True) SplitDb.Sound
    (fun b t => t.Sound b) SplitPhase.Apart where
  symm t u h := h.symm
  start b call _ _ := by
    have hfree : ∀ {u}, (SplitPhase.begun call).Apart u := ⟨nofun, nofun, nofun, nofun, nofun⟩
    exact ⟨trivial, fun _ _ => hfree⟩
  goes b us t hb ht hus _ b' t' answer h := by
    obtain ⟨rfl, hgoes⟩ := split_goes hb ht h
    exact ⟨hb, hgoes.sound, fun u hu => ⟨(hus u hu).1, (hus u hu).2.acquires (hgoes.acquires u hu)⟩⟩
  ends b us t hb ht hus _ b' answer h := by
    have hcommits : t.Commits b b' := split_ends h
    exact ⟨hcommits.sound hb, fun u hu => hcommits.keeps hb ht (hus u hu).1 (hus u hu).2⟩

/-- No statement spares less than its commit. -/
theorem splitting_spares {w : Sessions SplitDb SplitPhase} (h : Protocol.Holds SplitDb.Sound
    (fun b t => SplitPhase.Sound b t) SplitPhase.Apart w) (m : Move SplitCall) :
    w.committed.Spares (splitting.machine.step w m).1.committed := by
  rcases Protocol.move_cases (p := splitting) w m with ⟨r, hfind, rfl, hcommitted, -⟩ | ⟨hsame, -⟩
  · rw [hcommitted]
    have ht := h.session r (Table.find?_mem hfind)
    cases hnext : splitting.next w.committed (w.others r.id) r.state with
    | waits => exact .refl _
    | goes b' t' answer =>
      obtain ⟨rfl, -⟩ := split_goes h.committed ht hnext
      exact .refl _
    | ends b' answer => exact (split_ends hnext).spares ht
  · rw [hsame]
    exact .refl _

/-- Whatever calls of `voidSplit`, `createSplit`, `recordPayment`, `transitionPayment` and
`markSplitsStale` run beside each other, statement by statement: a split becomes void with nothing paid on
its shares and no payment under way that cites one, and from then on it stays void and nothing is credited
to its shares. -/
theorem voiding_strands_nothing (b : SplitDb) (hb : b.Sound) (moves : List (Move SplitCall)) :
    splitting.machine.Every (fun w m => w.committed.Spares (splitting.machine.step w m).1.committed)
      (Sessions.start b) moves :=
  splittingRule.every (fun _ m h _ => splitting_spares h m) (.start hb)
    (Protocol.every_allowed fun _ _ _ => trivial)

/-- A split of two shares. -/
def agreed : SplitDb where
  splits := ⟨[⟨7, 1, 10, .equal, 60, .active⟩], by decide⟩
  shares := ⟨[⟨70, 1, 7, "a", none, 30, 0⟩, ⟨71, 1, 7, "b", none, 30, 0⟩], by decide⟩
  payments := ∅

/-- A payment of the first share is declared, and the split cannot be voided while it is under way; once it
has failed, it can. -/
def agreedMoves : List (Move SplitCall) :=
  [ .start 0 (.recordPayment ⟨5, 10, 30, .pending, some 70, by decide⟩), .go 0,
    .start 1 (.voidSplit 10 7), .go 1, .go 1, .go 1, .go 1, .go 0, .go 1, .go 1, .go 1, .go 1,
    .start 2 (.transitionPayment 5 .failed .throw), .go 2, .go 2, .go 2,
    .start 3 (.voidSplit 10 7), .go 3, .go 3, .go 3, .go 3, .go 3, .go 3, .go 3, .go 3, .go 3 ]

theorem agreed_voided :
    (splitting.machine.run (Sessions.start agreed) agreedMoves).committed.splits.rows.map (·.status) =
      [.void] ∧
    splitting.machine.outputs (Sessions.start agreed) agreedMoves =
      [.done, .failed (.api .splitHasPayments
        "A payment against one of these shares is still being resolved; settle or reject it before voiding"
        [("inFlightPayments", "1")]), .done, .done] ∧
    splitting.machine.Every (fun w m => w.committed.Spares (splitting.machine.step w m).1.committed)
      (Sessions.start agreed) agreedMoves :=
  ⟨by decide +kernel, by decide +kernel, voiding_strands_nothing agreed ⟨by decide, by decide⟩ agreedMoves⟩

end Splite.Voiding
