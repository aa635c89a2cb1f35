import Splite.Fairness
import Splite.Fiscal.Itemised
import Splite.Ledger.Splits

/-!
# The portions of a shared line (`services/splits.js`, `services/fiscalInvoicing.js`)

`createSplit` stores who is on which line, once. The invoice of each of them reads the line back and takes
the first part of an equal division, so each answers for the same amount, whatever he was charged.

* `mem_claimRows`, `nodup_claimRows`: the rows of a split are the people on its claims, once each.
* `createSplit_byExtRef`: a person is the row that was inserted for him.
* `portionOf_eq`: everybody on a line answers for the ceiling of an equal part.
* `portions_agree_iff`: the portions of a line make it up, and each is what its person was charged at,
  exactly when the line divides evenly and the claims are near enough to equal.
-/

namespace Splite

/-! ## The rows of a split -/

/-- `INSERT INTO bill_split_items … ON CONFLICT ON CONSTRAINT bill_split_items_unique DO NOTHING`. -/
def insertSplitItem (rows : List SplitItem) (row : SplitItem) : List SplitItem :=
  if row ∈ rows then rows else rows ++ [row]

/-- `for (const claim of request.claims ?? [])`, and `for (const extRef of claim.participantIds)`. -/
def claimRows (splitId : Uuid) (byExtRef : String → Uuid) (claims : List SplitClaim) : List SplitItem :=
  claims.foldl (fun rows claim => claim.participantIds.foldl (fun rows extRef =>
    insertSplitItem rows ⟨splitId, claim.itemId, byExtRef extRef⟩) rows) []

/-- `byExtRef.get(extRef)`: the share of a participant is inserted under the id of his place. -/
def byExtRef (participants : List SplitPerson) (newId : Nat → Uuid) (extRef : String) : Uuid :=
  newId ((participants.map (·.id)).idxOf extRef)

section Rows

variable {splitId : Uuid} {rowOf : String → Uuid} {claims : List SplitClaim}

theorem mem_foldl_insert (l rows : List SplitItem) (row : SplitItem) :
    row ∈ l.foldl insertSplitItem rows ↔ row ∈ rows ∨ row ∈ l := by
  induction l generalizing rows with
  | nil => simp
  | cons a l ih =>
    rw [List.foldl_cons, ih, insertSplitItem, List.mem_cons]
    split
    · rename_i ha
      constructor
      · rintro (h | h)
        · exact .inl h
        · exact .inr (.inr h)
      · rintro (h | rfl | h)
        · exact .inl h
        · exact .inl ha
        · exact .inr h
    · rw [List.mem_append, List.mem_singleton, or_assoc]

theorem nodup_foldl_insert (l rows : List SplitItem) (h : rows.Nodup) :
    (l.foldl insertSplitItem rows).Nodup := by
  induction l generalizing rows with
  | nil => exact h
  | cons a l ih =>
    rw [List.foldl_cons]
    refine ih _ ?_
    unfold insertSplitItem
    split
    · exact h
    · rename_i ha
      exact h.append (List.nodup_singleton _) (List.disjoint_singleton.mpr ha)

/-- Both loops, as one. -/
theorem claimRows_eq : claimRows splitId rowOf claims = (claims.flatMap fun claim =>
    claim.participantIds.map fun extRef => (⟨splitId, claim.itemId, rowOf extRef⟩ : SplitItem)).foldl
      insertSplitItem [] := by
  rw [claimRows, List.foldl_flatMap]
  simp only [List.foldl_map]

theorem mem_claimRows {row : SplitItem} : row ∈ claimRows splitId rowOf claims ↔
    ∃ claim ∈ claims, ∃ extRef ∈ claim.participantIds, row = ⟨splitId, claim.itemId, rowOf extRef⟩ := by
  rw [claimRows_eq, mem_foldl_insert]
  simp [eq_comm]

theorem nodup_claimRows : (claimRows splitId rowOf claims).Nodup := by
  rw [claimRows_eq]
  exact nodup_foldl_insert _ _ List.nodup_nil

end Rows

/-- The people on the claims of a line, once each. -/
def claimantsOf (claims : List SplitClaim) (item : BillItem) : List String :=
  ((claimsOf claims item).flatMap (·.participantIds)).dedup

section Claimants

variable {splitId : Uuid} {rowOf : String → Uuid} {claims : List SplitClaim} {item : BillItem}
  {rows : List SplitItem} {id : String} {participants : List SplitPerson}

theorem mem_claimantsOf : id ∈ claimantsOf claims item ↔
    ∃ claim ∈ claims, claim.itemId = item.id ∧ id ∈ claim.participantIds := by
  unfold claimantsOf claimsOf
  simp only [List.mem_dedup, List.mem_flatMap, List.mem_filter, decide_eq_true_eq, and_assoc]
  refine exists_congr fun claim => and_congr_right fun _ => ?_
  constructor
  · exact fun h => h.2
  · exact fun h => ⟨List.ne_nil_of_mem h.2, h⟩

theorem membershipsOn_eq_nil : membershipsOn claims id item = [] ↔ id ∉ claimantsOf claims item := by
  rw [mem_claimantsOf]
  unfold membershipsOn claimsOf
  simp only [List.flatMap_eq_nil_iff, List.map_eq_nil_iff, List.filter_eq_nil_iff, List.mem_filter,
    decide_eq_true_eq, not_exists, not_and]
  constructor
  · exact fun h claim hclaim hitem hid => h claim ⟨hclaim, List.ne_nil_of_mem hid, hitem⟩ id hid rfl
  · rintro h claim ⟨hclaim, -, hitem⟩ other hother rfl
    exact h claim hclaim hitem hother

/-- The rows of a line are one for each of its claimants. -/
theorem rows_of_line (hrows : rows.Perm (claimRows splitId rowOf claims))
    (hinj : ∀ a ∈ claimantsOf claims item, ∀ b ∈ claimantsOf claims item, rowOf a = rowOf b → a = b) :
    (rows.filter (·.billItemId = item.id)).Perm
      ((claimantsOf claims item).map fun id => ⟨splitId, item.id, rowOf id⟩) := by
  refine (hrows.filter _).trans
    ((List.perm_ext_iff_of_nodup (nodup_claimRows.filter _) ?_).mpr fun row => ?_)
  · refine (List.nodup_dedup _).map_on fun a ha b hb heq => hinj a ha b hb ?_
    exact congrArg SplitItem.participantId heq
  · simp only [List.mem_filter, mem_claimRows, decide_eq_true_eq, List.mem_map, mem_claimantsOf]
    constructor
    · rintro ⟨⟨claim, hclaim, id, hid, rfl⟩, hitem⟩
      exact ⟨id, ⟨claim, hclaim, hitem, hid⟩, by rw [← hitem]⟩
    · rintro ⟨id, ⟨claim, hclaim, hitem, hid⟩, rfl⟩
      exact ⟨⟨claim, hclaim, id, hid, by rw [hitem]⟩, rfl⟩

end Claimants

/-! ## What a claimant answers for -/

/-- The first part of an equal division of a line, or all of it. -/
def portion (total : Int) (count : Nat) : Int :=
  if count > 1 then total / count + if total % count = 0 then 0 else 1 else total

/-- What a payment answers for of a line. -/
def portionOf (s : Db) (f : FiscalDb) (paymentId : Uuid) (lines : List BillLine) (item : BillItem) : Int :=
  ((claimedLines s f paymentId lines).toOption.map fun c =>
    (((c.claimed.getD []).filter (·.id = item.id)).map (·.shareMinor)).sum).getD 0

section Portion

variable {total : Int} {count : Nat}

/-- The first of some equal parts is raised when anything is left over. -/
theorem allocate_first {parts : List Int} (ht : 0 ≤ total) (hcount : 1 < count)
    (h : allocate total (List.replicate count 1) = .ok parts) : parts.getD 0 0 = portion total count := by
  have hpos : ∀ w ∈ List.replicate count (1 : Int), 0 < w := fun w hw => by
    rw [List.eq_of_mem_replicate hw]
    decide
  have hget : ∀ j < count, (List.replicate count (1 : Int)).getD j 0 = 1 := fun j hj => by
    rw [List.getD_eq_getElem _ _ (by simpa using hj), List.getElem_replicate]
  have hsum : (List.replicate count (1 : Int)).sum = count := by simp
  have hahead : (List.range count).countP (fun j => Ahead total (List.replicate count 1) 0 j) = 0 := by
    refine List.countP_eq_zero.mpr fun j hj => ?_
    unfold Ahead
    simp only [hget 0 (by omega), hget j (List.mem_range.mp hj)]
    simp
  have hmod := Int.mul_ediv_add_emod total count
  have hraised : Raised total (List.replicate count 1) 0 ↔ ¬total % count = 0 := by
    have hnonneg := Int.emod_nonneg total (show (count : Int) ≠ 0 by omega)
    have hfloors : ((List.replicate count (1 : Int)).map fun w => total * w / count).sum =
        count * (total / count) := by
      simp
    unfold Raised leftOver
    rw [List.length_replicate, hahead, hsum, hfloors]
    omega
  rw [allocate_getD (i := 0) ht hpos h (by rw [List.length_replicate]; omega), hget 0 (by omega), hsum,
    mul_one, portion, if_pos hcount]
  congr 1
  by_cases hzero : total % count = 0
  · rw [if_neg (fun hr => hraised.mp hr hzero), if_pos hzero]
  · rw [if_pos (hraised.mpr hzero), if_neg hzero]

/-- The portions of all the people on a line make it up exactly when it divides evenly. -/
theorem mul_portion_iff : count * portion total count = total ↔ (count : Int) ∣ total := by
  unfold portion
  have hmod := Int.mul_ediv_add_emod total count
  by_cases hcount : count > 1
  · have hlt := Int.emod_lt_of_pos total (show (0 : Int) < count by omega)
    rw [if_pos hcount, mul_add, Int.dvd_iff_emod_eq_zero]
    split
    · omega
    · constructor <;> intro h <;> omega
  · rw [if_neg hcount]
    obtain rfl | rfl : count = 0 ∨ count = 1 := by omega
    · simp [eq_comm]
    · simp

/-- A portion of a line that divides evenly is an equal part. -/
theorem portion_of_dvd (hcount : 0 < count) (h : (count : Int) ∣ total) :
    (portion total count : ℚ) = total / count := by
  have hne : (count : ℚ) ≠ 0 := by exact_mod_cast hcount.ne'
  rw [eq_div_iff hne, mul_comm]
  exact_mod_cast mul_portion_iff.mpr h

end Portion

section Claimed

variable {s : Db} {f : FiscalDb} {items : List BillItem} {item : BillItem} {claims : List SplitItem}
  {line : BillLine}

/-- The line of a claimant, with what he answers for. -/
def portionLine (claims : List SplitItem) (line : BillLine) : SourceLine :=
  { line with
    shareMinor := portion line.subtotalMinor (claims.filter (·.billItemId = line.id)).length
    fullMinor := line.subtotalMinor }

theorem claimedLine_eq (h : 0 ≤ line.subtotalMinor) :
    claimedLine claims line = .ok (portionLine claims line) := by
  unfold claimedLine portionLine
  dsimp only
  by_cases hcount : (claims.filter (·.billItemId = line.id)).length > 1
  · rw [if_pos hcount]
    obtain ⟨parts, hparts, -⟩ := @allocate_exact line.subtotalMinor
      (List.replicate (claims.filter (·.billItemId = line.id)).length 1) h
      (List.ne_nil_of_length_pos (by rw [List.length_replicate]; omega))
      (fun w hw => by rw [List.eq_of_mem_replicate hw]; decide)
    rw [hparts]
    simp only [Except.ok_bind, allocate_first h hcount hparts]
    rfl
  · rw [if_neg hcount, portion, if_neg hcount]
    rfl

/-- The lines that rows of claims are of, at one line. -/
theorem found_lines (hnodup : (items.map (·.id)).Nodup) (hitem : item ∈ items) (mine : List SplitItem) :
    (mine.filterMap fun c => (items.map BillItem.line).find? (·.id = c.billItemId)).filter
        (·.id = item.id) =
      (mine.filter (·.billItemId = item.id)).map fun _ => item.line := by
  have hfind : (items.map BillItem.line).find? (·.id = item.id) = some item.line := by
    rw [List.find?_map]
    induction items with
    | nil => cases hitem
    | cons i items ih =>
      obtain ⟨hne, hnodup⟩ := List.nodup_cons.mp hnodup
      rcases List.mem_cons.mp hitem with rfl | hitem
      · simp [BillItem.line]
      · have hother : ¬i.line.id = item.id := fun heq =>
          hne (List.mem_map.mpr ⟨item, hitem, heq.symm⟩)
        simpa [hother] using ih hnodup hitem
  induction mine with
  | nil => rfl
  | cons c mine ih =>
    rw [List.filterMap_cons]
    by_cases hc : c.billItemId = item.id
    · rw [hc, hfind, List.filter_cons_of_pos (by simp [BillItem.line]), ih,
        List.filter_cons_of_pos (by simpa using hc), List.map_cons]
    · rw [List.filter_cons_of_neg (by simpa using hc), ← ih]
      cases hother : (items.map BillItem.line).find? (·.id = c.billItemId) with
      | none => rfl
      | some l =>
        have hl : l.id = c.billItemId := by simpa using List.find?_some hother
        rw [List.filter_cons_of_neg (by simpa [hl] using hc)]

/-- What the payment of a share answers for: one portion of each line that the share is on. -/
theorem portionOf_share {paymentId : Uuid} {share : SplitParticipant} {split : BillSplit}
    (hnodup : (items.map (·.id)).Nodup) (hpriced : ∀ i ∈ items, 0 ≤ i.subtotalMinor)
    (hshare : s.shareOf paymentId = some (share, split)) (hmode : split.mode = .items) :
    let rows := f.splitItems.filter (·.splitId = share.splitId)
    (∃ c, claimedLines s f paymentId (items.map BillItem.line) = .ok c) ∧ ∀ item ∈ items,
      portionOf s f paymentId (items.map BillItem.line) item =
        ((rows.filter (·.billItemId = item.id)).filter (·.participantId = share.id)).length *
          portion item.subtotalMinor (rows.filter (·.billItemId = item.id)).length := by
  intro rows
  set mine := rows.filter (·.participantId = share.id) with hmine
  set found := mine.filterMap fun c => (items.map BillItem.line).find? (·.id = c.billItemId) with hfound
  have hmap : found.mapM (claimedLine rows) = .ok (found.map (portionLine rows)) := by
    obtain ⟨bs, hbs, hall⟩ := Except.mapM_ok (f := claimedLine rows) (l := found)
      (P := fun l b => portionLine rows l = b) fun l hl => by
        obtain ⟨c, -, hfind⟩ := List.mem_filterMap.mp hl
        obtain ⟨i, hi, rfl⟩ := List.mem_map.mp (List.mem_of_find?_eq_some hfind)
        exact ⟨_, claimedLine_eq (hpriced i hi), rfl⟩
    obtain rfl : found.map (portionLine rows) = bs := by
      rw [← List.forall₂_eq_eq_eq, List.forall₂_map_left_iff]
      exact hall
    exact hbs
  have hclaimed : claimedLines s f paymentId (items.map BillItem.line) =
      .ok { splitMode := some split.mode, share := some share.amountVes,
            claimed := some (found.map (portionLine rows)) } := by
    unfold claimedLines
    rw [hshare]
    dsimp only
    rw [if_neg (not_not.mpr hmode), hmap]
    rfl
  refine ⟨⟨_, hclaimed⟩, fun item hitem => ?_⟩
  unfold portionOf
  rw [hclaimed]
  simp only [Except.toOption, Option.map_some, Option.getD_some, List.filter_map]
  have hids : (fun l : SourceLine => decide (l.id = item.id)) ∘ portionLine rows =
      fun l : BillLine => decide (l.id = item.id) := rfl
  rw [hids, found_lines hnodup hitem, List.filter_comm]
  simp only [List.map_const', List.map_replicate, List.sum_replicate, nsmul_eq_mul]
  rfl

end Claimed

/-! ## The shares of a split that was accepted -/

section Stored

variable {s s' : Db} {restaurantId billId splitId : Uuid} {newId : Nat → Uuid}

/-- The shares that were inserted from index `i` on: they are there, under ids that nobody had. -/
structure SharesFrom (s s' : Db) (splitId : Uuid) (newId : Nat → Uuid) (i : Nat)
    (allocations : List SplitAllocation) : Prop where
  kept : ∀ row ∈ s.shares, row ∈ s'.shares
  fresh : ∀ j < allocations.length, ∀ row ∈ s.shares, row.id ≠ newId (i + j)
  distinct : ∀ k < allocations.length, ∀ j < k, newId (i + j) ≠ newId (i + k)
  there : ∀ j, (hj : j < allocations.length) → ∃ share ∈ s'.shares, share.id = newId (i + j) ∧
    share.splitId = splitId ∧ share.extRef = allocations[j].participantId

theorem insertShares_rows {u : Unit} (allocations : List SplitAllocation) (i : Nat)
    (h : (insertShares restaurantId splitId newId i allocations).run s = .ok u s') :
    SharesFrom s s' splitId newId i allocations := by
  induction allocations generalizing i s with
  | nil =>
    obtain ⟨-, rfl⟩ := Tx.pure_ok.mp h
    exact ⟨fun _ hrow => hrow, nofun, nofun, nofun⟩
  | cons a allocations ih =>
    obtain ⟨_, s₁, hins, hrest⟩ := Tx.bind_ok.mp h
    obtain ⟨shares, hrow, rfl, -⟩ := insertShare_ok hins
    obtain ⟨hkept, hfresh, hdistinct, hthere⟩ := ih (i + 1) hrest
    have hnew := (Table.insert?_eq_some.mp hrow).1
    have hmem := fun x => (Table.mem_insert? hrow (x := x))
    have hshift : ∀ j, i + 1 + j = i + (j + 1) := fun j => by omega
    simp only [hshift] at hfresh hdistinct hthere
    refine ⟨fun row hr => hkept row ((hmem row).mpr (.inl hr)), fun j hj row hr => ?_,
      fun k hk j hjk => ?_, fun j hj => ?_⟩
    · cases j with
      | zero => exact hnew row hr
      | succ j => exact hfresh j (by simpa using hj) row ((hmem row).mpr (.inl hr))
    · obtain ⟨k, rfl⟩ := Nat.exists_eq_succ_of_ne_zero (Nat.ne_zero_of_lt hjk)
      have hk : k < allocations.length := by simpa using hk
      cases j with
      | zero => exact hfresh k hk _ ((hmem _).mpr (.inr rfl))
      | succ j => exact hdistinct k hk j (by omega)
    · cases j with
      | zero => exact ⟨_, hkept _ ((hmem _).mpr (.inr rfl)), rfl, rfl, rfl⟩
      | succ j => exact hthere j (by simpa using hj)

theorem storeSplit_shares {request : SplitRequest} {allocation : SplitPreview} {r : SplitCreated}
    (h : (storeSplit splitId newId restaurantId billId request allocation).run s = .ok r s') :
    ∃ s₀, SharesFrom s₀ s' splitId newId 0 allocation.allocations := by
  unfold storeSplit at h
  simp only [Tx.withTransaction_ok, Tx.bind_ok, Tx.pure_ok] at h
  obtain ⟨superseded, s₁, -, _, s₂, -, _, s₃, hshares, _, s₄, hclaims, _, s₅, hsum, -, rfl⟩ := h
  obtain rfl := insertClaims_ok hclaims
  unfold assertSharesSum at hsum
  simp only [Tx.bind_ok, Tx.run_get, Tx.require_ok] at hsum
  obtain ⟨_, _, ⟨rfl, rfl⟩, -, rfl⟩ := hsum
  exact ⟨s₂, insertShares_rows _ _ hshares⟩

/-- An accepted split by items: its people are pairwise different, and on every claim there are only such
people. -/
theorem preview_people {bill : Bill} {items : List BillItem} {request : SplitRequest} {v : SplitPreview}
    (hmode : request.mode = .items) (h : preview bill items request = .ok v) :
    (request.participants.map (·.id)).Nodup ∧ ∀ claim ∈ request.claims.getD [],
      ∀ id ∈ claim.participantIds, id ∈ request.participants.map (·.id) := by
  unfold preview at h
  dsimp only at h
  split at h
  · cases h
  rename_i hnodup
  split at h
  · cases h
  split at h
  · cases h
  obtain ⟨amounts, hamounts, -⟩ := Except.bind_eq_ok.mp h
  simp only [splitAmounts, hmode] at hamounts
  refine ⟨not_not.mp hnodup, ?_⟩
  unfold allocateByItems at hamounts
  dsimp only at hamounts
  split at hamounts
  · cases hamounts
  split at hamounts
  · cases hamounts
  rename_i hknown
  exact claimants_known (not_not.mp fun hne => hknown (.inr hne))

/-- The people of a split by items that was stored, and the rows that are theirs. -/
structure People (s' : Db) (splitId : Uuid) (newId : Nat → Uuid) (request : SplitRequest) : Prop where
  nodup : (request.participants.map (·.id)).Nodup
  known : ∀ claim ∈ request.claims.getD [], ∀ id ∈ claim.participantIds,
    id ∈ request.participants.map (·.id)
  inj : ∀ a ∈ request.participants.map (·.id), ∀ b ∈ request.participants.map (·.id),
    byExtRef request.participants newId a = byExtRef request.participants newId b → a = b
  there : ∀ p ∈ request.participants, ∃ share ∈ s'.shares,
    share.id = byExtRef request.participants newId p.id ∧ share.splitId = splitId ∧ share.extRef = p.id

theorem createSplit_byExtRef {bill : Bill} {items : List BillItem} {body : SplitBody} {r : SplitCreated}
    (hmode : body.request.mode = .items)
    (h : (createSplit splitId newId restaurantId bill items body).run s = .ok r s') :
    People s' splitId newId body.request := by
  unfold createSplit at h
  simp only [Tx.bind_ok, Tx.require_ok, Tx.ofExcept_ok, Tx.mapError_ok] at h
  obtain ⟨_, _, ⟨-, rfl⟩, allocation, _, ⟨hpreview, rfl⟩, hstore⟩ := h
  obtain ⟨hnodup, hknown⟩ := preview_people hmode hpreview
  have hcovers := preview_covers bill items body.valid
  rw [hpreview] at hcovers
  obtain ⟨s₀, -, -, hdistinct, hthere⟩ := storeSplit_shares hstore
  simp only [zero_add] at hdistinct hthere
  have hlen : allocation.allocations.length = (body.request.participants.map (·.id)).length := by
    rw [← hcovers.participants, List.length_map]
  refine ⟨hnodup, hknown, fun a ha b hb heq => ?_, fun p hp => ?_⟩
  · have hia := List.idxOf_lt_length_iff.mpr ha
    have hib := List.idxOf_lt_length_iff.mpr hb
    unfold byExtRef at heq
    have hidx : (body.request.participants.map (·.id)).idxOf a =
        (body.request.participants.map (·.id)).idxOf b := by
      rcases lt_trichotomy ((body.request.participants.map (·.id)).idxOf a)
        ((body.request.participants.map (·.id)).idxOf b) with hlt | heq' | hlt
      · exact absurd heq (hdistinct _ (hlen ▸ hib) _ hlt)
      · exact heq'
      · exact absurd heq.symm (hdistinct _ (hlen ▸ hia) _ hlt)
    rw [← List.getElem_idxOf hia, ← List.getElem_idxOf hib]
    simp only [hidx]
  · have hi := List.idxOf_lt_length_iff.mpr (List.mem_map_of_mem (f := SplitPerson.id) hp)
    obtain ⟨share, hshare, hid, hsplit, hext⟩ := hthere _ (hlen ▸ hi)
    refine ⟨share, hshare, hid, hsplit, hext.trans ?_⟩
    have hat := congrArg (fun ids => ids[(body.request.participants.map SplitPerson.id).idxOf p.id]?)
      hcovers.participants
    rw [List.getElem?_map, List.getElem?_eq_getElem (hlen ▸ hi), List.getElem?_eq_getElem hi,
      List.getElem_idxOf hi] at hat
    exact Option.some.inj hat

end Stored

/-! ## The portions of a split -/

/-- Later, when every share of the split has a payment: its rows and those of its claims are still there. -/
structure PaidShares (s' t : Db) (f : FiscalDb) (splitId : Uuid) (newId : Nat → Uuid)
    (request : SplitRequest) (paymentOf : String → Uuid) : Prop where
  paid : ∀ share ∈ s'.shares, share.splitId = splitId → ∃ share' split,
    t.shareOf (paymentOf share.extRef) = some (share', split) ∧ share'.id = share.id ∧
      share'.splitId = splitId ∧ split.mode = .items
  rows : (f.splitItems.filter (·.splitId = splitId)).Perm
    (claimRows splitId (byExtRef request.participants newId) (request.claims.getD []))

/-- The fraction of a line at which a person was charged: the units of each claim of theirs, divided by the
people on it. -/
def lineFraction (claims : List SplitClaim) (id : String) (item : BillItem) : ℚ :=
  ((membershipsOn claims id item).map fun m =>
    (m.2.quantity.getD item.quantity : ℚ) / item.quantity / m.2.participantIds.length).sum

/-- The portions of every line make it up, and each is what its person was charged at, up to one céntimo
for each claim. -/
structure PortionsAgree (portions : String → BillItem → Int) (items : List BillItem)
    (request : SplitRequest) : Prop where
  whole : ∀ item ∈ items, (request.participants.map fun p => portions p.id item).sum = item.subtotalMinor
  near : ∀ item ∈ items, ∀ p ∈ request.participants,
    |(portions p.id item : ℚ) - item.subtotalMinor * lineFraction (request.claims.getD []) p.id item| ≤
      (membershipsOn (request.claims.getD []) p.id item).length

/-- Every line divides evenly among the people on it, and an equal part is what each of them was charged at,
up to one céntimo for each claim. -/
structure EvenClaims (items : List BillItem) (claims : List SplitClaim) : Prop where
  divides : ∀ item ∈ items, ((claimantsOf claims item).length : Int) ∣ item.subtotalMinor
  near : ∀ item ∈ items, ∀ id ∈ claimantsOf claims item,
    |(item.subtotalMinor : ℚ) / (claimantsOf claims item).length -
      item.subtotalMinor * lineFraction claims id item| ≤ (membershipsOn claims id item).length

section Portions

variable {s' t : Db} {f : FiscalDb} {splitId : Uuid} {newId : Nat → Uuid} {request : SplitRequest}
  {paymentOf : String → Uuid} {items : List BillItem} {item : BillItem} {p : SplitPerson}

theorem People.claimant (h : People s' splitId newId request) {id : String}
    (hid : id ∈ claimantsOf (request.claims.getD []) item) : id ∈ request.participants.map (·.id) := by
  obtain ⟨claim, hclaim, -, hid⟩ := mem_claimantsOf.mp hid
  exact h.known claim hclaim id hid

/-- Everybody on a line answers for the ceiling of an equal part of it, whatever he claimed. -/
theorem portionOf_eq (h : People s' splitId newId request)
    (hpaid : PaidShares s' t f splitId newId request paymentOf) (hnodup : (items.map (·.id)).Nodup)
    (hpriced : ∀ i ∈ items, 0 ≤ i.subtotalMinor) (hp : p ∈ request.participants) :
    (∃ c, claimedLines t f (paymentOf p.id) (items.map BillItem.line) = .ok c) ∧ ∀ item ∈ items,
      portionOf t f (paymentOf p.id) (items.map BillItem.line) item =
        if p.id ∈ claimantsOf (request.claims.getD []) item then
          portion item.subtotalMinor (claimantsOf (request.claims.getD []) item).length
        else 0 := by
  obtain ⟨share, hshare, hid, hsplit, hext⟩ := h.there p hp
  obtain ⟨share', split, hshareOf, hid', hsplit', hmode⟩ := hpaid.paid share hshare hsplit
  rw [hext] at hshareOf
  obtain ⟨hclaimed, hportion⟩ := portionOf_share (f := f) hnodup hpriced hshareOf hmode
  refine ⟨hclaimed, fun item hitem => ?_⟩
  set claimants := claimantsOf (request.claims.getD []) item with hclaimants
  have hrows : (_ : List SplitItem).Perm (claimants.map fun id => ⟨splitId, item.id, _⟩) :=
    rows_of_line hpaid.rows fun a ha b hb => h.inj a (h.claimant ha) b (h.claimant hb)
  rw [hportion item hitem, hsplit', hrows.length_eq, List.length_map,
    (hrows.filter _).length_eq, hid', hid, List.filter_map, List.length_map]
  have hsame : (claimants.filter fun id => decide
      (byExtRef request.participants newId id = byExtRef request.participants newId p.id)) =
      claimants.filter (· = p.id) := by
    refine List.filter_congr fun id hidc => decide_eq_decide.mpr ⟨fun heq => ?_, fun heq => by rw [heq]⟩
    exact h.inj id (h.claimant hidc) p.id (List.mem_map_of_mem hp) heq
  have hcount : (claimants.filter (· = p.id)).length = if p.id ∈ claimants then 1 else 0 := by
    have hnd : claimants.Nodup := List.nodup_dedup _
    rw [← hnd.count, List.count, List.countP_eq_length_filter]
    congr 2
  show ((claimants.filter fun id => decide (byExtRef request.participants newId id =
    byExtRef request.participants newId p.id)).length : Int) * _ = _
  rw [hsame, hcount]
  split
  · exact one_mul _
  · exact zero_mul _

/-- What everybody on a line has of it, each the same. -/
theorem sum_claimants (h : People s' splitId newId request) (x : Int) :
    (request.participants.map fun p =>
      if p.id ∈ claimantsOf (request.claims.getD []) item then x else 0).sum =
        (claimantsOf (request.claims.getD []) item).length * x := by
  set claimants := claimantsOf (request.claims.getD []) item with hclaimants
  have hperm : ((request.participants.map (·.id)).filter (· ∈ claimants)).Perm claimants := by
    refine (List.perm_ext_iff_of_nodup (h.nodup.filter _) (List.nodup_dedup _)).mpr fun id => ?_
    rw [List.mem_filter, decide_eq_true_eq]
    exact and_iff_right_of_imp h.claimant
  rw [← hperm.length_eq]
  generalize request.participants = people
  induction people with
  | nil => simp
  | cons p people ih =>
    rw [List.map_cons, List.map_cons, List.sum_cons, ih, List.filter_cons]
    by_cases hp : p.id ∈ claimants
    · simp only [hp, decide_true, if_true, List.length_cons]
      push_cast
      ring
    · simp [hp]

/-- The portions of a line make it up exactly when it divides evenly among the people on it. -/
theorem portions_whole_iff (h : People s' splitId newId request)
    (hpaid : PaidShares s' t f splitId newId request paymentOf) (hnodup : (items.map (·.id)).Nodup)
    (hpriced : ∀ i ∈ items, 0 ≤ i.subtotalMinor) (hitem : item ∈ items) :
    (request.participants.map fun p =>
        portionOf t f (paymentOf p.id) (items.map BillItem.line) item).sum = item.subtotalMinor ↔
      ((claimantsOf (request.claims.getD []) item).length : Int) ∣ item.subtotalMinor := by
  rw [List.map_congr_left fun p hp => (portionOf_eq h hpaid hnodup hpriced hp).2 item hitem,
    sum_claimants h]
  exact mul_portion_iff

/-- Of a split by items that was accepted, the portions that the payments of its people answer for agree
with the lines and with what was charged exactly when the claims are even. -/
theorem portions_agree_iff {s₀ s : Db} {restaurantId : Uuid} {bill : Bill} {body : SplitBody}
    {created : SplitCreated} (hread : s₀.itemsOf bill.id = items)
    (hitems : ∀ i ∈ items, i.violated = none) (hmode : body.request.mode = .items)
    (hcreate : (createSplit splitId newId restaurantId bill items body).run s = .ok created s')
    (hpaid : PaidShares s' t f splitId newId body.request paymentOf) :
    let lines := items.map BillItem.line
    (∀ p ∈ body.request.participants, ∃ c, claimedLines t f (paymentOf p.id) lines = .ok c) ∧
      (PortionsAgree (fun id => portionOf t f (paymentOf id) lines) items body.request ↔
        EvenClaims items (body.request.claims.getD [])) := by
  intro lines
  have hpeople := createSplit_byExtRef hmode hcreate
  have hnodup : (items.map (·.id)).Nodup := by
    rw [← hread]
    exact s₀.items.nodup.sublist (List.filter_sublist.map _)
  have hpriced : ∀ i ∈ items, 0 ≤ i.subtotalMinor := fun i hi => BillItem.subtotal_nonneg (hitems i hi)
  have hportion := fun p hp => portionOf_eq (p := p) hpeople hpaid hnodup hpriced hp
  have hwhole := fun (item : BillItem) (hitem : item ∈ items) =>
    portions_whole_iff hpeople hpaid hnodup hpriced hitem
  -- Whoever is not on a line has no portion of it and was charged nothing for it.
  have hnear : ∀ item ∈ items, ((claimantsOf (body.request.claims.getD []) item).length : Int) ∣
      item.subtotalMinor → ∀ p ∈ body.request.participants,
      (|(portionOf t f (paymentOf p.id) lines item : ℚ) -
          item.subtotalMinor * lineFraction (body.request.claims.getD []) p.id item| ≤
        (membershipsOn (body.request.claims.getD []) p.id item).length ↔
      (p.id ∈ claimantsOf (body.request.claims.getD []) item →
        |(item.subtotalMinor : ℚ) / (claimantsOf (body.request.claims.getD []) item).length -
          item.subtotalMinor * lineFraction (body.request.claims.getD []) p.id item| ≤
        (membershipsOn (body.request.claims.getD []) p.id item).length)) := by
    intro item hitem hdvd p hp
    rw [(hportion p hp).2 item hitem]
    by_cases hon : p.id ∈ claimantsOf (body.request.claims.getD []) item
    · rw [if_pos hon, portion_of_dvd (List.length_pos_of_mem hon) hdvd]
      simp only [hon, forall_const]
    · rw [if_neg hon, lineFraction, membershipsOn_eq_nil.mpr hon]
      simp [hon]
  refine ⟨fun p hp => (hportion p hp).1, fun hagree => ⟨fun item hitem => ?_, fun item hitem id hid => ?_⟩,
    fun heven => ⟨fun item hitem => ?_, fun item hitem p hp => ?_⟩⟩
  · exact (hwhole item hitem).mp (hagree.whole item hitem)
  · obtain ⟨p, hp, rfl⟩ := List.mem_map.mp (hpeople.claimant hid)
    have hdvd := (hwhole item hitem).mp (hagree.whole item hitem)
    exact (hnear item hitem hdvd p hp).mp (hagree.near item hitem p hp) hid
  · exact (hwhole item hitem).mpr (heven.divides item hitem)
  · exact (hnear item hitem (heven.divides item hitem) p hp).mpr (heven.near item hitem p.id)

end Portions

/-! ## A table of two -/

/-- A table that has not been split. -/
def tableOf (items : Table BillItem) : Db where
  bills := ⟨[tableBill], by simp⟩
  items := items
  payments := ∅
  splits := ∅
  shares := ∅
  products := ∅
  transitions := []
  adjustments := ∅
  charges := ∅
  attempts := []
  events := ∅
  movements := ∅
  bankMatches := ∅

/-- Ana and Luis have both paid. -/
def bothPaid (s : Db) (ana luis : { n : Int // 0 < n }) : Db :=
  { s with payments := ⟨[{ supperPayment 30 ana.1 ana.2 with splitParticipantId := some 20 },
      { supperPayment 31 luis.1 luis.2 with splitParticipantId := some 21 }],
      by show ([30, 31] : List Nat).Nodup; decide⟩ }

def tableClaims (request : SplitRequest) : FiscalDb :=
  ⟨∅, ∅, ∅, ∅, ∅, ∅, claimRows 5 (byExtRef request.participants (20 + ·)) (request.claims.getD [])⟩

def paymentOfTable (extRef : String) : Uuid := if extRef = "ana" then 30 else 31

/-- Both shares of the table's split, as they were stored. -/
structure SplitTable (s' : Db) (ana luis : Int) : Prop where
  shares : s'.shares.rows = [⟨20, 1, 5, "ana", some "Ana", ana, 0⟩, ⟨21, 1, 5, "luis", none, luis, 0⟩]
  splits : s'.splits.rows = [⟨5, 1, 10, .items, 2300, .active⟩]

instance (s' : Db) (ana luis : Int) : Decidable (SplitTable s' ana luis) :=
  decidable_of_iff (_ ∧ _) ⟨fun ⟨h, h'⟩ => ⟨h, h'⟩, fun h => ⟨h.shares, h.splits⟩⟩

theorem splitTable_of_run {x : Tx Err Db SplitCreated} {s : Db} {ana luis : Int}
    (h : (match x.run s with
      | .ok _ s' => decide (SplitTable s' ana luis)
      | .error _ _ => false) = true) : ∃ created s', x.run s = .ok created s' ∧ SplitTable s' ana luis := by
  split at h
  · rename_i created s' hrun
    exact ⟨created, s', hrun, of_decide_eq_true h⟩
  · cases h

theorem SplitTable.paidShares {s' : Db} {a b : Int} (h : SplitTable s' a b) (request : SplitRequest)
    (ana luis : { n : Int // 0 < n }) :
    PaidShares s' (bothPaid s' ana luis) (tableClaims request) 5 (20 + ·) request paymentOfTable := by
  obtain ⟨hshares, hsplits⟩ := h
  have hshare : ∀ share ∈ s'.shares.rows, s'.shares.find? share.id = some share := fun share hmem =>
    Table.find?_eq_some.mpr ⟨hmem, rfl⟩
  have hsplit : s'.splits.find? 5 = some ⟨5, 1, 10, .items, 2300, .active⟩ :=
    Table.find?_eq_some.mpr ⟨by rw [Table.mem_def, hsplits]; exact List.mem_singleton_self _, rfl⟩
  have hof : ∀ share ∈ s'.shares.rows, share.splitId = 5 →
      ∀ p, (bothPaid s' ana luis).payments.find? (paymentOfTable share.extRef) = some p →
      p.splitParticipantId = some share.id →
      (bothPaid s' ana luis).shareOf (paymentOfTable share.extRef) =
        some (share, ⟨5, 1, 10, .items, 2300, .active⟩) := by
    intro share hmem hof p hp hcites
    have h₁ : (bothPaid s' ana luis).shares.find? share.id = some share := hshare share hmem
    have h₂ : (bothPaid s' ana luis).splits.find? share.splitId =
        some ⟨5, 1, 10, .items, 2300, .active⟩ := hof ▸ hsplit
    simp only [Db.shareOf, hp, hcites, Option.bind_eq_bind, Option.bind_some, h₁, h₂]
    rfl
  refine ⟨fun share hmem hid => ?_, ?_⟩
  · have hmem' : share ∈ s'.shares.rows := hmem
    rw [hshares] at hmem'
    refine ⟨share, ⟨5, 1, 10, .items, 2300, .active⟩, ?_, rfl, hid, rfl⟩
    rcases List.mem_cons.mp hmem' with rfl | hmem'
    · exact hof _ hmem rfl _ rfl rfl
    · obtain rfl := List.mem_singleton.mp hmem'
      exact hof _ hmem rfl _ rfl rfl
  · have hall : (tableClaims request).splitItems.filter (·.splitId = 5) =
        (tableClaims request).splitItems := by
      refine List.filter_eq_self.mpr fun row hrow => ?_
      obtain ⟨_, -, _, -, rfl⟩ := mem_claimRows.mp hrow
      rfl
    rw [hall]
    exact List.Perm.refl _

/-- Between them they had a bottle of wine. -/
def wineRequest : SplitRequest :=
  { tableRequest with claims := some [⟨1, none, ["ana", "luis"]⟩] }

def wine : List BillItem := [⟨1, 1, 10, none, "Vino", 2000, .ves, 1, .taxable, none⟩]

theorem wineRequest_valid : wineRequest.Valid where
  some_participant := by decide
  participants_le := by decide
  ids := by decide
  names := by decide
  amounts := by decide
  claims_le := by decide
  quantities := by decide
  claimants := by decide

theorem wine_even : EvenClaims wine (wineRequest.claims.getD []) := by
  refine ⟨by decide, fun item hitem id hid => ?_⟩
  obtain rfl := List.mem_singleton.mp hitem
  have hclaimants : claimantsOf (wineRequest.claims.getD [])
      ⟨1, 1, 10, none, "Vino", 2000, .ves, 1, .taxable, none⟩ = ["ana", "luis"] := by decide
  rw [hclaimants] at hid ⊢
  have hone : membershipsOn (wineRequest.claims.getD []) id
      ⟨1, 1, 10, none, "Vino", 2000, .ves, 1, .taxable, none⟩ =
      [(⟨1, 1, 10, none, "Vino", 2000, .ves, 1, .taxable, none⟩, ⟨1, none, ["ana", "luis"]⟩)] := by
    revert id
    decide
  unfold lineFraction
  rw [hone]
  norm_num [BillItem.subtotalMinor]

theorem wine_run : ∃ created s',
    (createSplit 5 (20 + ·) 1 tableBill wine ⟨wineRequest, wineRequest_valid⟩).run
      (tableOf ⟨wine, by decide⟩) = .ok created s' ∧ SplitTable s' 1150 1150 :=
  splitTable_of_run (by decide +kernel)

theorem wine_agrees : ∃ created s',
    (createSplit 5 (20 + ·) 1 tableBill wine ⟨wineRequest, wineRequest_valid⟩).run
      (tableOf ⟨wine, by decide⟩) = .ok created s' ∧
    PortionsAgree (fun id => portionOf (bothPaid s' ⟨1150, by decide⟩ ⟨1150, by decide⟩)
      (tableClaims wineRequest) (paymentOfTable id) (wine.map BillItem.line)) wine wineRequest := by
  obtain ⟨created, s', hrun, htable⟩ := wine_run
  have hread : (tableOf ⟨wine, by decide⟩).itemsOf tableBill.id = wine := by decide
  have hmode : (⟨wineRequest, wineRequest_valid⟩ : SplitBody).request.mode = .items := rfl
  have hiff := portions_agree_iff hread (by decide) hmode hrun
    (htable.paidShares wineRequest ⟨1150, by decide⟩ ⟨1150, by decide⟩)
  exact ⟨created, s', hrun, hiff.2.mpr wine_even⟩

theorem table_run : ∃ created s',
    (createSplit 5 (20 + ·) 1 tableBill tableItems ⟨tableRequest, tableRequest_valid⟩).run
      (tableOf ⟨tableItems, by decide⟩) = .ok created s' ∧ SplitTable s' 1022 1278 :=
  splitTable_of_run (by decide +kernel)

/-- Of three empanadas Ana claimed one and Luis two. Each is invoiced for half of them, and between them for
a céntimo more than they cost. -/
theorem empanadas_misshared : ∃ created s',
    (createSplit 5 (20 + ·) 1 tableBill tableItems ⟨tableRequest, tableRequest_valid⟩).run
      (tableOf ⟨tableItems, by decide⟩) = .ok created s' ∧
    PaidShares s' (bothPaid s' ⟨1022, by decide⟩ ⟨1278, by decide⟩) (tableClaims tableRequest) 5 (20 + ·)
      tableRequest paymentOfTable ∧
    ¬PortionsAgree (fun id => portionOf (bothPaid s' ⟨1022, by decide⟩ ⟨1278, by decide⟩)
      (tableClaims tableRequest) (paymentOfTable id) (tableItems.map BillItem.line)) tableItems
      tableRequest := by
  obtain ⟨created, s', hrun, htable⟩ := table_run
  have hpaid := htable.paidShares tableRequest ⟨1022, by decide⟩ ⟨1278, by decide⟩
  refine ⟨created, s', hrun, hpaid, fun hagree => ?_⟩
  have hitem : (⟨2, 1, 10, none, "Empanada", 333, .ves, 3, .taxable, none⟩ : BillItem) ∈ tableItems := by
    decide
  have hmode : (⟨tableRequest, tableRequest_valid⟩ : SplitBody).request.mode = .items := rfl
  have hpeople := createSplit_byExtRef hmode hrun
  have hdvd := (portions_whole_iff hpeople hpaid (by decide) (by decide) hitem).mp
    (hagree.whole _ hitem)
  revert hdvd
  decide

end Splite
