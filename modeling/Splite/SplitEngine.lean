import Splite.Ledger.Db
import Splite.Mercantil.Matcher
import Splite.Money
import Splite.Split
import Splite.Lib.Except

/-!
# Who owes what (`services/splitEngine.js`)

`preview` divides what is outstanding on a bill in one of four modes.

* `allocateWithZeros_exact`: weights that are not positive receive nothing, the rest is exact.
* `allocateByItems_exact`: the lines divide the amount, the claims divide a line, the people of a
  claim divide the claim; nothing is lost on the way.
* `preview_exact`: one nonnegative amount for each participant, in order, and the amounts are what is
  outstanding; or an `ApiError`.
-/

namespace Splite

/-! ## The request -/

/-- An entry of `participants` in the body. -/
structure SplitPerson where
  id : String
  name : Option String
  amountVes : Option String
  deriving DecidableEq, Repr

/-- An entry of `claims` in the body. -/
structure SplitClaim where
  itemId : Uuid
  quantity : Option Int
  participantIds : List String
  deriving DecidableEq, Repr

structure SplitRequest where
  mode : SplitMode
  participants : List SplitPerson
  claims : Option (List SplitClaim)
  deriving DecidableEq, Repr

/-- `^[0-9]{1,18}$` of `minorUnits`, after `trim()`. -/
def isMinorUnits (value : String) : Bool :=
  let text := Mercantil.trimmed value.toList
  text ≠ [] && text.length ≤ 18 && text.all Char.isDigit

/-- The characters of `participantId`. -/
def isParticipantId (id : String) : Bool :=
  0 < id.length && id.length ≤ 64 &&
    id.toList.all fun c => c.isAlphanum || ['.', '_', ':', '-'].contains c

/-- `splitPreviewSchema`. -/
structure SplitRequest.Valid (r : SplitRequest) : Prop where
  some_participant : r.participants ≠ []
  participants_le : r.participants.length ≤ 50
  ids : ∀ p ∈ r.participants, isParticipantId p.id
  names : ∀ p ∈ r.participants, ∀ name ∈ p.name, name.length ≤ 80
  amounts : ∀ p ∈ r.participants, ∀ amount ∈ p.amountVes, isMinorUnits amount
  claims_le : ∀ claims ∈ r.claims, claims.length ≤ 500
  quantities : ∀ claims ∈ r.claims, ∀ c ∈ claims, ∀ quantity ∈ c.quantity,
    1 ≤ quantity ∧ quantity ≤ 999
  claimants : ∀ claims ∈ r.claims, ∀ c ∈ claims,
    c.participantIds ≠ [] ∧ c.participantIds.length ≤ 50 ∧ ∀ id ∈ c.participantIds, isParticipantId id

/-! ## The engine -/

/-- `BigInt(digits)`. -/
def digitsValue (digits : List Char) : Int :=
  digits.foldl (fun n c => 10 * n + (c.toNat - 48)) 0

/-- `toMinor(value, label)` of a string. -/
def toMinor (value label : String) : Except Err Int :=
  match Mercantil.trimmed value.toList with
  | '-' :: digits =>
    if digits ≠ [] ∧ digits.all Char.isDigit then .ok (-digitsValue digits)
    else .error (invalid (label ++ " is not a valid amount: " ++ value) 400)
  | digits =>
    if digits ≠ [] ∧ digits.all Char.isDigit then .ok (digitsValue digits)
    else .error (invalid (label ++ " is not a valid amount: " ++ value) 400)

def invalidParticipants (reason : String) : Err :=
  .api .splitParticipantsInvalid reason [("reason", reason)]

/-- `contributing.forEach((index, i) => { result[index] = parts[i]; })`. -/
def spread : (weights parts : List Int) → List Int
  | [], _ => []
  | w :: ws, parts => if 0 < w then parts.headD 0 :: spread ws parts.tail else 0 :: spread ws parts

/-- `allocateWithZeros(total, weights)`. -/
def allocateWithZeros (total : Int) (weights : List Int) : Except Err (List Int) :=
  let contributing := weights.filter (0 < ·)
  if contributing = [] then
    if total > 0 then .error (invalidParticipants "No participant has a share of this bill")
    else .ok (weights.map fun _ => 0)
  else do
    let parts ← allocate total contributing
    return spread weights parts

/-- `owed.set(id, owed.get(id) + amount)`. -/
def credit (owed : List (String × Int)) (id : String) (amount : Int) : List (String × Int) :=
  owed.map fun x => if x.1 = id then (x.1, x.2 + amount) else x

/-- The money of one claim, evenly across the people on it. -/
def creditClaim (owed : List (String × Int)) (claim : SplitClaim × Int) :
    Except Err (List (String × Int)) := do
  let shares ← allocateWithZeros claim.2 (claim.1.participantIds.map fun _ => 1)
  return (claim.1.participantIds.zip shares).foldl (fun owed x => credit owed x.1 x.2) owed

/-- `claimsByItem.get(item.id)`. -/
def claimsOf (claims : List SplitClaim) (item : BillItem) : List SplitClaim :=
  claims.filter fun c => c.participantIds ≠ [] ∧ c.itemId = item.id

/-- The money of one line, by units across the claims on it. -/
def creditItem (claims : List SplitClaim) (owed : List (String × Int)) (line : BillItem × Int) :
    Except Err (List (String × Int)) := do
  let itemClaims := claimsOf claims line.1
  let units := line.1.quantity
  let claimed := itemClaims.map fun c => c.quantity.getD units
  if itemClaims ≠ [] ∧ claimed.sum ≠ units then
    throw (.api .splitClaimsIncomplete "The units claimed on a line have to add up to the units on it"
      [("itemId", toString line.1.id), ("unitsOnLine", toString units),
        ("unitsClaimed", toString claimed.sum)])
  let perClaim ← allocateWithZeros line.2 claimed
  (itemClaims.zip perClaim).foldlM creditClaim owed

/-- `allocateByItems({ outstanding, items, participants, claims })`. -/
def allocateByItems (outstanding : Int) (items : List BillItem) (participants : List SplitPerson)
    (claims : List SplitClaim) : Except Err (List Int) := do
  if items = [] then
    throw (.api .splitNotItemised "This bill has no line items to split by" [])
  let unknownItemIds := ((claims.map (·.itemId)).filter fun id => id ∉ items.map (·.id)).eraseDups
  let unknownParticipantIds := ((claims.flatMap (·.participantIds)).filter fun id =>
    id ∉ participants.map (·.id)).eraseDups
  if unknownItemIds ≠ [] ∨ unknownParticipantIds ≠ [] then
    throw (.api .splitClaimUnknown
      "A claim refers to a line or a participant that is not part of this split"
      [("unknownItemIds", toString unknownItemIds),
        ("unknownParticipantIds", toString unknownParticipantIds)])
  let claimedItemIds := (claims.filter fun c => c.participantIds ≠ []).map (·.itemId)
  let unclaimedItemIds := (items.map (·.id)).filter fun id => id ∉ claimedItemIds
  if unclaimedItemIds ≠ [] then
    throw (.api .splitClaimsIncomplete
      "Every line has to be claimed by someone before the bill can be split by item"
      [("unclaimedItemIds", toString unclaimedItemIds)])
  let perItemVes ← allocateWithZeros outstanding (items.map (·.subtotalMinor))
  let owed ← (items.zip perItemVes).foldlM (creditItem claims) (participants.map fun p => (p.id, 0))
  return participants.map fun p => (owed.lookup p.id).getD 0

/-- The stated amount of one participant. -/
def customAmount (p : SplitPerson) : Except Err Int := do
  let amount ← toMinor (p.amountVes.getD "0") "Participant amount"
  if amount < 0 then throw (invalidParticipants "An amount cannot be negative")
  return amount

/-- `allocateCustom({ outstanding, participants })`. -/
def allocateCustom (outstanding : Int) (participants : List SplitPerson) :
    Except Err (List Int) := do
  let amounts ← participants.mapM customAmount
  if amounts.sum ≠ outstanding then
    throw (.api .splitAmountMismatch "The amounts have to add up to exactly what is outstanding"
      [("outstandingVes", toString outstanding), ("submittedTotalVes", toString amounts.sum)])
  return amounts

structure SplitAllocation where
  participantId : String
  name : Option String
  amountVes : Int
  deriving DecidableEq, Repr

structure SplitPreview where
  billId : Uuid
  mode : SplitMode
  outstandingVes : Int
  totalAllocatedVes : Int
  allocations : List SplitAllocation
  deriving DecidableEq, Repr

/-- The `switch` over the modes. -/
def splitAmounts (outstanding : Int) (items : List BillItem) (r : SplitRequest) :
    Except Err (List Int) :=
  match r.mode with
  | .full => .ok [outstanding]
  | .equal => allocate outstanding (r.participants.map fun _ => 1)
  | .items => allocateByItems outstanding items r.participants (r.claims.getD [])
  | .custom => allocateCustom outstanding r.participants

/-- `preview({ bill, items, request })`. -/
def preview (bill : Bill) (items : List BillItem) (r : SplitRequest) : Except Err SplitPreview := do
  if ¬(r.participants.map (·.id)).Nodup then
    throw (invalidParticipants "Participant ids must be unique")
  let outstanding := bill.totalDueVes - bill.amountPaidVes
  if outstanding ≤ 0 then
    throw (.api .splitNothingOutstanding
      "This bill is already settled, so there is nothing to split" [])
  if r.mode = .full ∧ r.participants.length ≠ 1 then
    throw (invalidParticipants "A FULL split names exactly one participant")
  let amounts ← splitAmounts outstanding items r
  let totalAllocated := amounts.sum
  if totalAllocated ≠ outstanding then
    throw (.error ("Split allocation does not sum to the outstanding balance: " ++
      toString totalAllocated ++ " vs " ++ toString outstanding))
  return {
    billId := bill.id, mode := r.mode, outstandingVes := outstanding,
    totalAllocatedVes := totalAllocated
    allocations := (r.participants.zip amounts).map fun x => ⟨x.1.id, x.1.name, x.2⟩ }

/-! ## Exactness -/

/-- Nonnegative parts, `n` of them, that add up to `total`. -/
structure Exact (total : Int) (n : Nat) (parts : List Int) : Prop where
  length_eq : parts.length = n
  nonneg : ∀ x ∈ parts, 0 ≤ x
  sum_eq : parts.sum = total

/-- An `ApiError`. -/
def Err.IsApi (e : Err) : Prop := e.apiCode.isSome

theorem allocate_exact {total : Int} {weights : List Int} (ht : 0 ≤ total) (hne : weights ≠ [])
    (hpos : ∀ w ∈ weights, 0 < w) :
    ∃ parts, allocate total weights = .ok parts ∧ Exact total weights.length parts := by
  obtain ⟨parts, hparts, happ⟩ := allocate_apportions ht hne hpos
  have hs : 0 < weights.sum := List.sum_pos _ hpos hne
  exact ⟨parts, hparts, happ.length_eq.symm, happ.nonneg hs hpos ht, happ.sum_eq⟩

/-- Whatever `allocate` divides, it divides exactly. -/
theorem allocate_ok {total : Int} {weights parts : List Int} (h : allocate total weights = .ok parts) :
    Exact total weights.length parts := by
  have hall := h
  unfold allocate at h
  split at h
  · cases h
  rename_i ht
  split at h
  · cases h
  rename_i hne
  split at h
  · cases h
  rename_i hany
  have hpos : ∀ w ∈ weights, 0 < w := by simpa using hany
  obtain ⟨parts', hparts, hexact⟩ := allocate_exact (not_lt.mp ht) hne hpos
  obtain rfl := Except.ok.inj (hparts.symm.trans hall)
  exact hexact

theorem spread_exact {total : Int} {weights parts : List Int}
    (h : Exact total (weights.filter (0 < ·)).length parts) :
    Exact total weights.length (spread weights parts) := by
  induction weights generalizing total parts with
  | nil =>
    obtain rfl : parts = [] := List.length_eq_zero_iff.mp h.length_eq
    exact h
  | cons w ws ih =>
    unfold spread
    by_cases hw : 0 < w
    · rw [if_pos hw]
      obtain ⟨hlen, hnonneg, hsum⟩ := h
      rw [List.filter_cons_of_pos (by simpa using hw)] at hlen
      cases parts with
      | nil => simp at hlen
      | cons x xs =>
        obtain ⟨hx, hxs⟩ := List.forall_mem_cons.mp hnonneg
        have htail : Exact (total - x) (ws.filter (0 < ·)).length xs := by
          refine ⟨by simpa using hlen, hxs, ?_⟩
          rw [List.sum_cons] at hsum
          omega
        have hrest := ih htail
        refine ⟨by simp [hrest.length_eq], List.forall_mem_cons.mpr ⟨hx, hrest.nonneg⟩, ?_⟩
        rw [List.headD_cons, List.tail_cons, List.sum_cons, hrest.sum_eq]
        omega
    · rw [if_neg hw]
      rw [List.filter_cons_of_neg (by simpa using hw)] at h
      have hrest := ih h
      exact ⟨by simp [hrest.length_eq], List.forall_mem_cons.mpr ⟨le_rfl, hrest.nonneg⟩, by
        rw [List.sum_cons, hrest.sum_eq, zero_add]⟩

theorem allocateWithZeros_exact {total : Int} (weights : List Int) (ht : 0 ≤ total) :
    Except.Ends Err.IsApi (Exact total weights.length) (allocateWithZeros total weights) := by
  unfold allocateWithZeros
  simp only
  split
  · split
    · exact .error rfl
    · -- Nothing to divide, and nobody to divide it by.
      refine .ok ⟨by simp, by simp, ?_⟩
      rw [List.map_const', List.sum_replicate, smul_zero]
      omega
  · rename_i hne
    obtain ⟨parts, hparts, hexact⟩ := allocate_exact ht hne fun w hw => by
      simpa using (List.mem_filter.mp hw).2
    rw [hparts]
    exact .ok (spread_exact hexact)

/-- Nonnegative amounts that people owe, each once, adding up to `total`. -/
structure Owed (ids : List String) (total : Int) (owed : List (String × Int)) : Prop where
  ids_eq : owed.map Prod.fst = ids
  nonneg : ∀ x ∈ owed, 0 ≤ x.2
  sum_eq : (owed.map Prod.snd).sum = total

section Owed

variable {ids : List String} {total amount : Int} {owed : List (String × Int)} {id : String}

theorem sum_credit (hnd : (owed.map Prod.fst).Nodup) (hid : id ∈ owed.map Prod.fst) :
    ((credit owed id amount).map Prod.snd).sum = (owed.map Prod.snd).sum + amount := by
  induction owed with
  | nil => simp at hid
  | cons x xs ih =>
    obtain ⟨hx, hnd⟩ := List.nodup_cons.mp (by simpa only [List.map_cons] using hnd)
    unfold credit at ih ⊢
    simp only [List.map_cons, List.sum_cons]
    by_cases heq : x.1 = id
    · have hrest : xs.map (fun y => if y.1 = id then (y.1, y.2 + amount) else y) = xs := by
        nth_rewrite 2 [← List.map_id xs]
        refine List.map_congr_left fun y hy => ?_
        have hne : y.1 ≠ id := fun hk => hx (heq.trans hk.symm ▸ List.mem_map_of_mem hy)
        rw [if_neg hne, id_eq]
      rw [if_pos heq, hrest]
      omega
    · rw [List.map_cons, List.mem_cons] at hid
      rw [if_neg heq, ih hnd (hid.resolve_left fun h => heq h.symm)]
      omega

theorem Owed.credit (h : Owed ids total owed) (hnd : ids.Nodup) (hid : id ∈ ids)
    (hamount : 0 ≤ amount) : Owed ids (total + amount) (credit owed id amount) := by
  refine ⟨?_, fun x hx => ?_, ?_⟩
  · rw [← h.ids_eq]
    unfold Splite.credit
    rw [List.map_map]
    refine List.map_congr_left fun x _ => ?_
    simp only [Function.comp_apply]
    split <;> rfl
  · obtain ⟨y, hy, rfl⟩ := List.mem_map.mp hx
    have hnonneg := h.nonneg y hy
    split
    · exact add_nonneg hnonneg hamount
    · exact hnonneg
  · rw [sum_credit (h.ids_eq ▸ hnd) (h.ids_eq ▸ hid), h.sum_eq]

/-- The shares of one claim reach the people on it. -/
theorem Owed.credits {claimants : List String} {shares : List Int} (h : Owed ids total owed)
    (hnd : ids.Nodup) (hin : ∀ c ∈ claimants, c ∈ ids) (hlen : shares.length = claimants.length)
    (hnonneg : ∀ x ∈ shares, 0 ≤ x) :
    Owed ids (total + shares.sum)
      ((claimants.zip shares).foldl (fun owed x => Splite.credit owed x.1 x.2) owed) := by
  induction claimants generalizing total owed shares with
  | nil =>
    obtain rfl : shares = [] := List.length_eq_zero_iff.mp hlen
    simpa using h
  | cons c cs ih =>
    cases shares with
    | nil => simp at hlen
    | cons x xs =>
      obtain ⟨hc, hcs⟩ := List.forall_mem_cons.mp hin
      obtain ⟨hx, hxs⟩ := List.forall_mem_cons.mp hnonneg
      rw [List.zip_cons_cons, List.foldl_cons, List.sum_cons, ← add_assoc]
      exact ih (h.credit hnd hc hx) hcs (by simpa using hlen) hxs

theorem creditClaim_exact {claim : SplitClaim × Int} (h : Owed ids total owed) (hnd : ids.Nodup)
    (hin : ∀ c ∈ claim.1.participantIds, c ∈ ids) (hv : 0 ≤ claim.2) :
    Except.Ends Err.IsApi (Owed ids (total + claim.2)) (creditClaim owed claim) := by
  unfold creditClaim
  refine (allocateWithZeros_exact _ hv).bind fun shares hshares => .ok ?_
  have hcredited := h.credits hnd hin (by simpa using hshares.length_eq) hshares.nonneg
  rwa [hshares.sum_eq] at hcredited

theorem sum_zip_snd {α : Type} (l : List α) {parts : List Int} (h : parts.length = l.length) :
    ((l.zip parts).map Prod.snd).sum = parts.sum := by
  rw [List.map_snd_zip h.le]

theorem creditItem_exact {claims : List SplitClaim} {line : BillItem × Int}
    (h : Owed ids total owed) (hnd : ids.Nodup)
    (hin : ∀ c ∈ claims, ∀ p ∈ c.participantIds, p ∈ ids) (hv : 0 ≤ line.2) :
    Except.Ends Err.IsApi (Owed ids (total + line.2)) (creditItem claims owed line) := by
  unfold creditItem
  simp only
  split
  · exact .error rfl
  refine (allocateWithZeros_exact _ hv).bind fun perClaim hper => ?_
  have hlen : perClaim.length = (claimsOf claims line.1).length := by
    simpa using hper.length_eq
  have hfold : Except.Ends Err.IsApi
      (Owed ids (total + (((claimsOf claims line.1).zip perClaim).map Prod.snd).sum))
      (((claimsOf claims line.1).zip perClaim).foldlM creditClaim owed) :=
    Except.Ends.foldlM (fun claim hclaim t owed' h' => by
      obtain ⟨hc, hx⟩ := List.of_mem_zip hclaim
      exact creditClaim_exact h' hnd (hin _ (List.mem_filter.mp hc).1) (hper.nonneg _ hx)) h
  rwa [sum_zip_snd _ hlen, hper.sum_eq] at hfold

/-- What a person owes is found under their id. -/
theorem map_lookup_owed (hnd : (owed.map Prod.fst).Nodup) :
    (owed.map Prod.fst).map (fun id => (owed.lookup id).getD 0) = owed.map Prod.snd := by
  rw [List.map_map]
  refine List.map_congr_left fun x hx => ?_
  have hlookup : owed.lookup x.1 = some x.2 := by
    induction owed with
    | nil => simp at hx
    | cons y ys ih =>
      obtain ⟨hy, hnd⟩ := List.nodup_cons.mp (by simpa only [List.map_cons] using hnd)
      rcases List.mem_cons.mp hx with rfl | hx
      · rw [List.lookup_cons_self]
      · have hne : x.1 ≠ y.1 := fun heq => hy (heq ▸ List.mem_map_of_mem hx)
        have hbeq : (x.1 == y.1) = false := by simpa using hne
        rw [List.lookup_cons, hbeq]
        exact ih hnd hx
  simp [hlookup]

end Owed

/-- When no claim names a stranger, whoever claims takes part. -/
theorem claimants_known {participants : List SplitPerson} {claims : List SplitClaim}
    (h : ((claims.flatMap (·.participantIds)).filter fun id =>
      id ∉ participants.map (·.id)).eraseDups = []) :
    ∀ c ∈ claims, ∀ p ∈ c.participantIds, p ∈ participants.map (·.id) := by
  intro c hc p hp
  by_contra hno
  have hmem : p ∈ ((claims.flatMap (·.participantIds)).filter fun id =>
      id ∉ participants.map (·.id)).eraseDups := by
    rw [List.mem_eraseDups, List.mem_filter]
    exact ⟨List.mem_flatMap.mpr ⟨c, hc, hp⟩, by simpa using hno⟩
  rw [h] at hmem
  cases hmem

theorem allocateByItems_exact {outstanding : Int} (items : List BillItem)
    {participants : List SplitPerson} (claims : List SplitClaim) (ho : 0 ≤ outstanding)
    (hnd : (participants.map (·.id)).Nodup) :
    Except.Ends Err.IsApi (Exact outstanding participants.length)
      (allocateByItems outstanding items participants claims) := by
  unfold allocateByItems
  simp only
  split
  · exact .error rfl
  split
  · exact .error rfl
  rename_i hknown
  split
  · exact .error rfl
  -- Nobody is credited who does not take part.
  have hin := claimants_known (not_not.mp fun hne => hknown (.inr hne))
  refine (allocateWithZeros_exact _ ho).bind fun perItem hper => ?_
  have hstart : Owed (participants.map (·.id)) 0 (participants.map fun p => (p.id, 0)) :=
    ⟨by simp [Function.comp_def], by simp, by simp [Function.comp_def]⟩
  have hfold : Except.Ends Err.IsApi
      (Owed (participants.map (·.id)) (0 + ((items.zip perItem).map Prod.snd).sum))
      ((items.zip perItem).foldlM (creditItem claims) (participants.map fun p => (p.id, 0))) :=
    Except.Ends.foldlM (fun line hline t owed h => by
      exact creditItem_exact h hnd hin (hper.nonneg _ (List.of_mem_zip hline).2)) hstart
  refine hfold.bind fun owed howed => .ok ?_
  rw [sum_zip_snd _ (by simpa using hper.length_eq), hper.sum_eq, zero_add] at howed
  have hamounts : participants.map (fun p => (owed.lookup p.id).getD 0) = owed.map Prod.snd := by
    rw [← map_lookup_owed (howed.ids_eq ▸ hnd), howed.ids_eq, List.map_map]
    rfl
  rw [hamounts]
  refine ⟨?_, ?_, howed.sum_eq⟩
  · rw [List.length_map, ← List.length_map (f := Prod.fst), howed.ids_eq, List.length_map]
  · simp only [List.mem_map]
    rintro _ ⟨x, hx, rfl⟩
    exact howed.nonneg x hx

theorem customAmount_exact (p : SplitPerson) :
    Except.Ends Err.IsApi (0 ≤ ·) (customAmount p) := by
  unfold customAmount
  have hparsed : Except.Ends Err.IsApi (fun _ => True)
      (toMinor (p.amountVes.getD "0") "Participant amount") := by
    unfold toMinor
    split <;> split
    · exact .ok trivial
    · exact .error rfl
    · exact .ok trivial
    · exact .error rfl
  refine hparsed.bind fun amount _ => ?_
  split
  · exact .error rfl
  · rename_i hnonneg
    exact .ok (not_lt.mp hnonneg)

theorem allocateCustom_exact (outstanding : Int) (participants : List SplitPerson) :
    Except.Ends Err.IsApi (Exact outstanding participants.length)
      (allocateCustom outstanding participants) := by
  unfold allocateCustom
  refine (Except.Ends.mapM fun p _ => customAmount_exact p).bind fun amounts hamounts => ?_
  split
  · exact .error rfl
  · rename_i hsum
    exact .ok ⟨hamounts.1, hamounts.2, not_not.mp hsum⟩

theorem splitAmounts_exact {outstanding : Int} (items : List BillItem) {r : SplitRequest}
    (ho : 0 ≤ outstanding) (hsome : r.participants ≠ [])
    (hnd : (r.participants.map (·.id)).Nodup) (hfull : r.mode = .full → r.participants.length = 1) :
    Except.Ends Err.IsApi (Exact outstanding r.participants.length)
      (splitAmounts outstanding items r) := by
  unfold splitAmounts
  split
  · rename_i hmode
    refine .ok ⟨(hfull hmode).symm, ?_, by simp⟩
    simpa using ho
  · have hne : (r.participants.map fun _ => (1 : Int)) ≠ [] := by simpa using hsome
    obtain ⟨parts, hparts, hexact⟩ := allocate_exact ho hne (by simp)
    rw [hparts]
    exact .ok (by simpa using hexact)
  · exact allocateByItems_exact items _ ho hnd
  · exact allocateCustom_exact outstanding _

/-- What is promised of a preview. -/
structure SplitPreview.Covers (v : SplitPreview) (outstanding : Int) (r : SplitRequest) : Prop where
  participants : v.allocations.map (·.participantId) = r.participants.map (·.id)
  nonneg : ∀ a ∈ v.allocations, 0 ≤ a.amountVes
  sum_eq : (v.allocations.map (·.amountVes)).sum = outstanding
  total_eq : v.totalAllocatedVes = outstanding
  outstanding_eq : v.outstandingVes = outstanding
  pos : 0 < outstanding

theorem preview_covers (bill : Bill) (items : List BillItem) {r : SplitRequest} (h : r.Valid) :
    Except.Ends Err.IsApi (fun v => v.Covers (bill.totalDueVes - bill.amountPaidVes) r)
      (preview bill items r) := by
  unfold preview
  simp only
  split
  · exact .error rfl
  rename_i hnd
  split
  · exact .error rfl
  rename_i hpos
  split
  · exact .error rfl
  rename_i hfull
  refine (splitAmounts_exact items (le_of_not_ge hpos) h.some_participant (not_not.mp hnd)
    fun hmode => ?_).bind fun amounts hexact => ?_
  · by_contra hlen
    exact hfull ⟨hmode, hlen⟩
  rw [if_neg (not_not.mpr hexact.sum_eq)]
  have hzip : amounts.length = r.participants.length := hexact.length_eq
  refine .ok ⟨?_, fun a ha => ?_, ?_, hexact.sum_eq, rfl, not_le.mp hpos⟩
  · show (List.map _ (r.participants.zip amounts)).map _ = _
    rw [List.map_map, ← List.map_fst_zip hzip.ge, List.map_map]
    simp [Function.comp_def, List.map_fst_zip hzip.ge]
  · obtain ⟨x, hx, rfl⟩ := List.mem_map.mp ha
    exact hexact.nonneg _ (List.of_mem_zip hx).2
  · show ((List.map _ (r.participants.zip amounts)).map _).sum = _
    rw [List.map_map, ← hexact.sum_eq]
    exact sum_zip_snd _ hzip

/-- Of a bill, its lines and a request that passes the schema: an `ApiError`, or one nonnegative
amount for each participant, in their order, which add up to what is outstanding. -/
theorem preview_exact (bill : Bill) (items : List BillItem) (r : SplitRequest) (h : r.Valid) :
    match preview bill items r with
    | .ok v => v.Covers (bill.totalDueVes - bill.amountPaidVes) r
    | .error err => ∃ code message details, err = .api code message details := by
  have hends := preview_covers bill items h
  cases hrun : preview bill items r with
  | ok v =>
    rw [hrun] at hends
    exact hends
  | error err =>
    rw [hrun] at hends
    cases err with
    | api code message details => exact ⟨code, message, details, rfl⟩
    | _ => cases hends

/-- A bottle for two and three empanadas, of which Ana had one and Luis two; 1000 of 3300 are paid. -/
def tableRequest : SplitRequest where
  mode := .items
  participants := [⟨"ana", some "Ana", none⟩, ⟨"luis", none, none⟩]
  claims := some [⟨1, none, ["ana", "luis"]⟩, ⟨2, some 1, ["ana"]⟩, ⟨2, some 2, ["luis"]⟩]

def tableBill : Bill where
  id := 10
  restaurantId := 1
  status := .open
  currency := .ves
  subtotalMinor := 3000
  vatBps := 0
  vatMinor := 0
  serviceChargeBps := 1000
  serviceChargeMinor := 300
  totalDue := 3300
  totalDueVes := 3300
  amountPaidVes := 1000
  fxRateVesPerUnit := none
  fxRateSource := none

def tableItems : List BillItem :=
  [⟨1, 1, 10, none, "Vino", 2000, .ves, 1, .taxable, none⟩,
    ⟨2, 1, 10, none, "Empanada", 333, .ves, 3, .taxable, none⟩]

theorem tableRequest_valid : tableRequest.Valid where
  some_participant := by decide
  participants_le := by decide
  ids := by decide
  names := by decide
  amounts := by decide
  claims_le := by decide
  quantities := by decide
  claimants := by decide

theorem preview_table :
    ∃ v, preview tableBill tableItems tableRequest = .ok v ∧
      v.allocations.map (·.amountVes) = [1022, 1278] ∧ v.Covers 2300 tableRequest := by
  have hexact := preview_exact tableBill tableItems tableRequest tableRequest_valid
  obtain ⟨v, hv, hamounts⟩ : ∃ v, preview tableBill tableItems tableRequest = .ok v ∧
      v.allocations.map (·.amountVes) = [1022, 1278] := ⟨_, rfl, by decide⟩
  rw [hv] at hexact
  exact ⟨v, hv, hamounts, hexact⟩

end Splite
