import Splite.Ledger.Payments
import Splite.SplitEngine

/-!
# Agreeing and voiding a split (`services/splits.js`)

A split is stored from what `preview` computes. A split that nobody has paid into is replaced by the
next one, or voided by staff.

* `discardUnpaidSplit_ok`: a split that is voided has no share with money or with a payment under way.
* `createSplit_ok`: what `createSplit` stores is one split with the shares that `preview` computed.
* `voidSplit_ok`: what staff voids is an active split of the bill that it names.
* `atomic_createSplit`: a split that is refused leaves the one that it would have replaced.
-/

namespace Splite

/-- The sum of what the shares of a split owe. -/
def Db.shareTotal (s : Db) (splitId : Uuid) : Int :=
  s.shares.total fun r => if r.splitId = splitId then r.amountVes else 0

/-- `INSERT INTO bill_splits …`. -/
def insertSplit (row : BillSplit) : Tx Err Db Unit := do
  let s ← get
  Tx.require (0 < row.basisVes) (.checkViolation "bill_splits_basis_ves_check")
  let splits ← Tx.orThrow (s.splits.insert? row) (.uniqueViolation "bill_splits_pkey")
  Tx.require (row.status = .active →
      ∀ r ∈ s.splits.rows, ¬(r.billId = row.billId ∧ r.status = .active))
    (.uniqueViolation "bill_splits_one_active_per_bill")
  Tx.require (s.bill? row.restaurantId row.billId).isSome
    (.foreignKeyViolation "bill_splits_bill_same_restaurant_fk")
  set { s with splits }

/-- `INSERT INTO bill_split_participants …`. -/
def insertShare (row : SplitParticipant) : Tx Err Db Unit := do
  let s ← get
  Tx.require (0 ≤ row.amountVes) (.checkViolation "bill_split_participants_amount_ves_check")
  Tx.forbid row.violated .checkViolation
  let shares ← Tx.orThrow (s.shares.insert? row) (.uniqueViolation "bill_split_participants_pkey")
  Tx.require (∀ r ∈ s.shares.rows, ¬(r.splitId = row.splitId ∧ r.extRef = row.extRef))
    (.uniqueViolation "bill_split_participants_ext_ref_unique")
  Tx.require (∃ split ∈ s.splits.find? row.splitId, split.restaurantId = row.restaurantId)
    (.foreignKeyViolation "bill_split_participants_split_same_restaurant_fk")
  set { s with shares }

/-- `for (const share of allocation.allocations)`, from the share with this index. -/
def insertShares (restaurantId splitId : Uuid) (newId : Nat → Uuid) :
    Nat → List SplitAllocation → Tx Err Db Unit
  | _, [] => pure ()
  | i, share :: allocations => do
    insertShare
      { id := newId i, restaurantId, splitId, extRef := share.participantId, name := share.name,
        amountVes := share.amountVes, amountPaidVes := 0 }
    insertShares restaurantId splitId newId (i + 1) allocations

/-- `INSERT INTO bill_split_items …` for every line that is claimed. Only the foreign key can refuse
one: a row that is there is left alone. -/
def insertClaims (restaurantId : Uuid) (request : SplitRequest) : Tx Err Db Unit := do
  let s ← get
  Tx.require (request.mode = .items → ∀ claim ∈ request.claims.getD [],
      claim.participantIds ≠ [] → ∃ item ∈ s.items.find? claim.itemId,
        item.restaurantId = restaurantId)
    (.foreignKeyViolation "bill_split_items_item_same_restaurant_fk")

/-- The deferred trigger `bill_split_participants_sum_check`, as it runs at the commit: once for
every row that was inserted. -/
def assertSharesSum (splitId : Uuid) (inserted : List SplitAllocation) : Tx Err Db Unit := do
  let s ← get
  Tx.require (inserted ≠ [] → ∀ split ∈ s.splits.find? splitId, split.status = .active →
      s.shareTotal splitId = split.basisVes)
    (.checkViolation "bill_split_participants_sum_check")

/-- `SELECT … FROM bill_split_participants WHERE split_id = $1 AND restaurant_id = $2`. -/
def Db.sharesOf (s : Db) (restaurantId splitId : Uuid) : List SplitParticipant :=
  s.shares.rows.filter fun r => r.splitId = splitId ∧ r.restaurantId = restaurantId

/-- The payments that cite one of the shares and have not come to an end. -/
def Db.unresolved (s : Db) (restaurantId : Uuid) (shares : List SplitParticipant) : List Payment :=
  s.payments.rows.filter fun p => p.restaurantId = restaurantId ∧
    (∃ id ∈ p.splitParticipantId, id ∈ shares.map (·.id)) ∧
    p.status ∈ [.pending, .inDoubt, .ambiguous]

/-- `discardUnpaidSplit(client, { restaurantId, billId, splitId })`. -/
def discardUnpaidSplit (restaurantId billId splitId : Uuid) : Tx Err Db Unit := do
  let s ← get
  let shares := s.sharesOf restaurantId splitId
  let paid : Int := (shares.map (·.amountPaidVes)).sum
  Tx.require (¬paid > 0)
    (.api .splitHasPayments "A split with payments against it cannot be voided" [])
  let inFlight := (s.unresolved restaurantId shares).length
  Tx.require (shares ≠ [] → ¬inFlight > 0)
    (.api .splitHasPayments
      "A payment against one of these shares is still being resolved; settle or reject it before voiding"
      [("inFlightPayments", toString inFlight)])
  set { s with
    splits := s.splits.updateWhere
      (fun r => r.id = splitId ∧ r.restaurantId = restaurantId ∧ r.billId = billId)
      (fun r => { r with status := .void }) fun _ => rfl }

/-- What `POST /:id/splits` is called with, as `validateBody` lets it through. -/
structure SplitBody where
  request : SplitRequest
  valid : request.Valid

/-- The split that is replaced, if the bill has one. -/
def discardLive (restaurantId billId : Uuid) : Tx Err Db (Option Uuid) := do
  let s ← get
  match s.splits.rows.find? fun r =>
      r.restaurantId = restaurantId ∧ r.billId = billId ∧ r.status = .active with
  | some live => do
    discardUnpaidSplit restaurantId billId live.id
    return some live.id
  | none => return none

/-- The `catch` of `createSplit`. -/
def asSplitExists : Err → Err
  | .uniqueViolation "bill_splits_one_active_per_bill" =>
    .api .splitAlreadyExists
      "This bill already has an active split; void it before creating another" []
  | err => err

/-- What `createSplit` has written. -/
structure SplitCreated where
  splitId : Uuid
  superseded : Option Uuid
  deriving DecidableEq, Repr

/-- The transaction of `createSplit`. -/
def storeSplit (splitId : Uuid) (newId : Nat → Uuid) (restaurantId billId : Uuid)
    (request : SplitRequest) (allocation : SplitPreview) : Tx Err Db SplitCreated :=
  Tx.withTransaction do
    let superseded ← discardLive restaurantId billId
    insertSplit ⟨splitId, restaurantId, billId, request.mode, allocation.outstandingVes, .active⟩
    insertShares restaurantId splitId newId 0 allocation.allocations
    insertClaims restaurantId request
    assertSharesSum splitId allocation.allocations
    return { splitId, superseded }

/-- `createSplit({ restaurantId, bill, items, request })`, of the bill and the items as the route has
read them before. -/
def createSplit (splitId : Uuid) (newId : Nat → Uuid) (restaurantId : Uuid) (bill : Bill)
    (items : List BillItem) (body : SplitBody) : Tx Err Db SplitCreated := do
  Tx.require (bill.status = .open)
    (.api .billNotOpen "A split can only be agreed on an open bill"
      [("status", BillStatus.text bill.status)])
  let allocation ← Tx.ofExcept (preview bill items body.request)
  Tx.mapError asSplitExists
    (storeSplit splitId newId restaurantId bill.id body.request allocation)

/-- `voidSplit({ restaurantId, billId, splitId })`. -/
def voidSplit (restaurantId billId splitId : Uuid) : Tx Err Db Uuid := Tx.withTransaction do
  let s ← get
  let split ← Tx.orThrow
    ((s.splits.find? splitId).filter fun r => r.restaurantId = restaurantId ∧ r.billId = billId)
    (.api .splitNotFound "Split not found" [])
  Tx.require (split.status = .active)
    (.api .splitNotActive "That split has already been voided" [("status", split.status.text)])
  discardUnpaidSplit restaurantId billId splitId
  return split.id

/-! ## What they write -/

section Specs

variable {s s' : Db} {restaurantId billId splitId : Uuid}

/-- The split is void, and the rest is as it was. -/
def Db.voided (s : Db) (restaurantId billId splitId : Uuid) : Table BillSplit :=
  s.splits.updateWhere
    (fun r => r.id = splitId ∧ r.restaurantId = restaurantId ∧ r.billId = billId)
    (fun r => { r with status := .void }) fun _ => rfl

theorem discardUnpaidSplit_ok {u : Unit}
    (h : (discardUnpaidSplit restaurantId billId splitId).run s = .ok u s') :
    ((s.sharesOf restaurantId splitId).map (·.amountPaidVes)).sum ≤ 0 ∧
    s.unresolved restaurantId (s.sharesOf restaurantId splitId) = [] ∧
    s' = { s with splits := s.voided restaurantId billId splitId } := by
  unfold discardUnpaidSplit at h
  rw [Tx.bind_of_ok Tx.run_get] at h
  simp only [Tx.bind_ok, Tx.require_ok, Tx.run_set, EStateM.Result.ok.injEq] at h
  obtain ⟨_, _, ⟨hpaid, rfl⟩, _, s, ⟨hflight, rfl⟩, ⟨-, rfl⟩⟩ := h
  refine ⟨not_lt.mp hpaid, ?_, rfl⟩
  by_cases hshares : s.sharesOf restaurantId splitId = []
  · rw [hshares]
    refine List.filter_eq_nil_iff.mpr fun p _ => ?_
    simp
  · exact List.length_eq_zero_iff.mp (Nat.eq_zero_of_not_pos (hflight hshares))

theorem discardLive_ok {r : Option Uuid}
    (h : (discardLive restaurantId billId).run s = .ok r s') :
    ∃ splits, s' = { s with splits } ∧
      (splits = s.splits ∨ ∃ live, r = some live ∧ splits = s.voided restaurantId billId live) := by
  unfold discardLive at h
  rw [Tx.bind_of_ok Tx.run_get] at h
  split at h
  · simp only [Tx.bind_ok, Tx.pure_ok] at h
    obtain ⟨_, _, hdiscard, rfl, rfl⟩ := h
    obtain ⟨-, -, rfl⟩ := discardUnpaidSplit_ok hdiscard
    exact ⟨_, rfl, .inr ⟨_, rfl, rfl⟩⟩
  · obtain ⟨-, rfl⟩ := Tx.pure_ok.mp h
    exact ⟨_, rfl, .inl rfl⟩

theorem insertSplit_ok {row : BillSplit} {u : Unit} (h : (insertSplit row).run s = .ok u s') :
    ∃ splits, s.splits.insert? row = some splits ∧ s' = { s with splits } ∧
      (row.status = .active → ∀ r ∈ s.splits, r.billId = row.billId → r.status ≠ .active) := by
  unfold insertSplit at h
  simp only [Tx.bind_ok, Tx.run_get, Tx.require_ok, Tx.orThrow_ok, Tx.run_set] at h
  obtain ⟨_, _, ⟨rfl, rfl⟩, _, _, ⟨-, rfl⟩, splits, _, ⟨hins, rfl⟩, _, _, ⟨hone, rfl⟩, _, _, ⟨-, rfl⟩,
    ⟨-, rfl⟩⟩ := h
  exact ⟨splits, hins, rfl, fun hactive r hr hbill hlive => hone hactive r hr ⟨hbill, hlive⟩⟩

theorem insertShare_ok {row : SplitParticipant} {u : Unit}
    (h : (insertShare row).run s = .ok u s') :
    ∃ shares, s.shares.insert? row = some shares ∧ s' = { s with shares } ∧
      row.violated = none ∧ ∃ split ∈ s.splits, split.id = row.splitId := by
  unfold insertShare at h
  simp only [Tx.bind_ok, Tx.run_get, Tx.require_ok, Tx.forbid_ok, Tx.orThrow_ok, Tx.run_set] at h
  obtain ⟨_, _, ⟨rfl, rfl⟩, _, _, ⟨-, rfl⟩, _, _, ⟨hchecked, rfl⟩, shares, _, ⟨hins, rfl⟩, _, _,
    ⟨-, rfl⟩, _, _, ⟨⟨split, hsplit, -⟩, rfl⟩, ⟨-, rfl⟩⟩ := h
  exact ⟨shares, hins, rfl, hchecked, split, Table.find?_mem hsplit, Table.find?_key hsplit⟩

theorem insertClaims_ok {request : SplitRequest} {u : Unit}
    (h : (insertClaims restaurantId request).run s = .ok u s') : s' = s := by
  unfold insertClaims at h
  simp only [Tx.bind_ok, Tx.run_get, Tx.require_ok] at h
  obtain ⟨_, _, ⟨rfl, rfl⟩, -, rfl⟩ := h
  rfl

theorem assertSharesSum_ok {inserted : List SplitAllocation} {u : Unit} (hsome : inserted ≠ [])
    (h : (assertSharesSum splitId inserted).run s = .ok u s') :
    s' = s ∧ ∀ split ∈ s.splits, split.id = splitId → split.status = .active →
      s.shareTotal splitId = split.basisVes := by
  unfold assertSharesSum at h
  simp only [Tx.bind_ok, Tx.run_get, Tx.require_ok] at h
  obtain ⟨_, _, ⟨rfl, rfl⟩, hsum, rfl⟩ := h
  exact ⟨rfl, fun split hsplit hid => hsum hsome split (Table.find?_eq_some.mpr ⟨hsplit, hid⟩)⟩

theorem insertShares_frame {newId : Nat → Uuid} (allocations : List SplitAllocation) (i : Nat)
    {u : Unit} (h : (insertShares restaurantId splitId newId i allocations).run s = .ok u s') :
    ∃ shares, s' = { s with shares } := by
  induction allocations generalizing i s with
  | nil => exact ⟨s.shares, (Tx.pure_ok.mp h).2⟩
  | cons share allocations ih =>
    obtain ⟨_, s₁, hins, hrest⟩ := Tx.bind_ok.mp h
    obtain ⟨shares, -, rfl, -⟩ := insertShare_ok hins
    obtain ⟨shares', rfl⟩ := ih (i + 1) hrest
    exact ⟨shares', rfl⟩

/-- Neither payments nor bills are written. -/
theorem storeSplit_frame {newId : Nat → Uuid} {request : SplitRequest} {allocation : SplitPreview}
    {r : SplitCreated}
    (h : (storeSplit splitId newId restaurantId billId request allocation).run s = .ok r s') :
    ∃ splits shares, s' = { s with splits, shares } := by
  unfold storeSplit at h
  simp only [Tx.withTransaction_ok, Tx.bind_ok, Tx.pure_ok] at h
  obtain ⟨superseded, s₁, hdiscard, _, s₂, hsplit, _, s₃, hshares, _, s₄, hclaims, _, s₅, hsum, -,
    rfl⟩ := h
  obtain ⟨_, rfl, -⟩ := discardLive_ok hdiscard
  obtain ⟨splits, -, rfl, -⟩ := insertSplit_ok hsplit
  obtain ⟨shares, rfl⟩ := insertShares_frame _ _ hshares
  obtain rfl := insertClaims_ok hclaims
  unfold assertSharesSum at hsum
  simp only [Tx.bind_ok, Tx.run_get, Tx.require_ok] at hsum
  obtain ⟨_, _, ⟨rfl, rfl⟩, -, rfl⟩ := hsum
  exact ⟨splits, shares, rfl⟩

theorem voidSplit_ok {r : Uuid} (h : (voidSplit restaurantId billId splitId).run s = .ok r s') :
    (discardUnpaidSplit restaurantId billId splitId).run s = .ok () s' ∧
    ∃ split, s.splits.find? splitId = some split ∧ split.billId = billId ∧ split.status = .active := by
  unfold voidSplit at h
  rw [Tx.withTransaction_ok, Tx.bind_of_ok Tx.run_get] at h
  simp only [Tx.bind_ok, Tx.orThrow_ok, Tx.require_ok, Tx.pure_ok, Option.filter_eq_some_iff,
    decide_eq_true_eq] at h
  obtain ⟨split, _, ⟨⟨hfind, -, hbill⟩, rfl⟩, _, _, ⟨hactive, rfl⟩, _, s₁, hdiscard, -, rfl⟩ := h
  exact ⟨hdiscard, split, hfind, hbill, hactive⟩

/-- The basis is positive, the request names somebody, and what is stored is the preview. -/
theorem createSplit_ok {newId : Nat → Uuid} {bill : Bill} {items : List BillItem} {body : SplitBody}
    {r : SplitCreated} (h : (createSplit splitId newId restaurantId bill items body).run s = .ok r s') :
    bill.status = .open ∧ ∃ allocation,
      allocation.Covers (bill.totalDueVes - bill.amountPaidVes) body.request ∧
      allocation.allocations ≠ [] ∧
      (storeSplit splitId newId restaurantId bill.id body.request allocation).run s = .ok r s' := by
  unfold createSplit at h
  simp only [Tx.bind_ok, Tx.require_ok, Tx.ofExcept_ok, Tx.mapError_ok] at h
  obtain ⟨_, _, ⟨hopen, rfl⟩, allocation, _, ⟨hpreview, rfl⟩, hstore⟩ := h
  have hcovers := preview_covers bill items body.valid
  rw [hpreview] at hcovers
  refine ⟨hopen, allocation, hcovers, fun hnil => ?_, hstore⟩
  have hids := hcovers.participants
  rw [hnil] at hids
  exact body.valid.some_participant (List.map_eq_nil_iff.mp hids.symm)

theorem atomic_createSplit (splitId : Uuid) (newId : Nat → Uuid) (restaurantId : Uuid) (bill : Bill)
    (items : List BillItem) (body : SplitBody) :
    Tx.Atomic (createSplit splitId newId restaurantId bill items body) := by
  refine Tx.atomic_require_bind fun s e s' h => ?_
  rcases Tx.bind_error.mp h with hpreview | ⟨allocation, s₁, hpreview, hstore⟩
  · exact (Tx.ofExcept_error.mp hpreview).2
  · obtain ⟨-, rfl⟩ := Tx.ofExcept_ok.mp hpreview
    exact Tx.atomic_mapError (Tx.atomic_withTransaction _ fun _ _ => rfl) _ e s' hstore

end Specs

end Splite
