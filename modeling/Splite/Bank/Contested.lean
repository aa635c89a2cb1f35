import Splite.Bank.Match

/-!
# Claims that compete for a movement (`decide` of `services/bankReconciliation.js`)

* `mem_decide`: what is decided of each claim.
* `decide_perm`: neither the order of the claims nor that of the movements changes what is decided.
* `exclusive_iff`: when a claim is never matched with a movement that another claim could own.
-/

namespace Splite.Bank

variable {claims claims' : List PendingClaim} {movements movements' : List MovementShape}
  {c : PendingClaim} {m : MovementShape}

/-- The movement is the only one of the list that agrees with the claim. -/
def Sole (movements : List MovementShape) (c : PendingClaim) (m : MovementShape) : Prop :=
  movements.filter (fun m => Agrees (claimShape c) m) = [m]

instance : Decidable (Sole movements c m) := inferInstanceAs (Decidable (_ = _))

theorem Sole.agrees (h : Sole movements c m) : m ∈ movements ∧ Agrees (claimShape c) m := by
  have hm : m ∈ [m] := List.mem_singleton_self m
  rw [← show movements.filter (fun m => Agrees (claimShape c) m) = [m] from h, List.mem_filter] at hm
  exact ⟨hm.1, by simpa using hm.2⟩

theorem Sole.only (h : Sole movements c m) {m' : MovementShape} (hm' : m' ∈ movements)
    (hagrees : Agrees (claimShape c) m') : m' = m := by
  have hmem : m' ∈ movements.filter fun m => Agrees (claimShape c) m :=
    List.mem_filter.mpr ⟨hm', by simpa using hagrees⟩
  rw [show movements.filter (fun m => Agrees (claimShape c) m) = [m] from h] at hmem
  exact List.mem_singleton.mp hmem

/-- How many claims a movement is the only one for. -/
def rivals (claims : List PendingClaim) (movements : List MovementShape) (id : Uuid) : Nat :=
  claims.countP fun c => (matchClaim (claimShape c) movements).matchedId = some id

/-- What is decided of one claim. -/
def decision (claims : List PendingClaim) (movements : List MovementShape) (c : PendingClaim) :
    MatchResult :=
  match matchClaim (claimShape c) movements with
  | .matched m => if 1 < rivals claims movements m.id then .ambiguous else .matched m
  | result => result

theorem decide_eq : decide claims movements =
    claims.map fun c => ⟨c.id, decision claims movements c⟩ := by
  have hcount : ∀ id,
      claimsPerMovement (claims.map fun c => ⟨c.id, matchClaim (claimShape c) movements⟩) id =
        rivals claims movements id := by
    intro id
    rw [claimsPerMovement, rivals, List.filterMap_map, List.count_filterMap]
    refine List.countP_congr fun c _ => ?_
    simp
  unfold decide
  dsimp only
  rw [List.map_map]
  refine List.map_congr_left fun c _ => ?_
  simp only [Function.comp_apply, Decision.corrected, decision, hcount]
  cases matchClaim (claimShape c) movements with
  | matched m => dsimp only; split <;> rfl
  | notFound => rfl
  | ambiguous => rfl
  | mismatch m bad => rfl

theorem decision_matched : decision claims movements c = .matched m ↔
    Sole movements c m ∧ rivals claims movements m.id ≤ 1 := by
  have hsole : Sole movements c m ↔ matchClaim (claimShape c) movements = .matched m :=
    matchClaim_matched.symm
  rw [hsole]
  unfold decision
  split
  · rename_i m' hmatch
    rw [hmatch]
    split
    · rename_i hmany
      simp only [reduceCtorEq, MatchResult.matched.injEq, false_iff, not_and]
      rintro rfl
      omega
    · rename_i hone
      simp only [MatchResult.matched.injEq]
      constructor
      · rintro rfl
        exact ⟨rfl, by omega⟩
      · exact And.left
  · rename_i hnot
    exact ⟨fun h => absurd h (hnot m), fun h => absurd h.1 (hnot m)⟩

/-- With distinct ids what is decided of a claim is its decision. -/
theorem mem_decide (hids : (claims.map (·.id)).Nodup) (hc : c ∈ claims) {result : MatchResult} :
    ⟨c.id, result⟩ ∈ decide claims movements ↔ decision claims movements c = result := by
  rw [decide_eq, List.mem_map]
  constructor
  · rintro ⟨c', hc', heq⟩
    obtain ⟨hid, hresult⟩ := Decision.mk.inj heq
    rw [← List.inj_on_of_nodup_map hids hc' hc hid]
    exact hresult
  · rintro rfl
    exact ⟨c, hc, rfl⟩

/-! ## Order -/

theorem matchClaim_outcome (claim : ClaimShape) (movements : List MovementShape) :
    (matchClaim claim movements).outcome =
      if movements.countP (fun m => referenceAgrees claim.reference m.reference) = 0 then "NOT_FOUND"
      else if movements.countP (fun m => Agrees claim m) = 0 then "MISMATCH"
      else if movements.countP (fun m => Agrees claim m) = 1 then "MATCHED"
      else "AMBIGUOUS" := by
  have hle : movements.countP (fun m => Agrees claim m) ≤
      movements.countP fun m => referenceAgrees claim.reference m.reference :=
    List.countP_mono_left fun m _ h => (of_decide_eq_true h : Agrees claim m).1
  unfold matchClaim
  dsimp only
  rw [exact_eq]
  rw [List.countP_eq_length_filter, List.countP_eq_length_filter] at hle ⊢
  generalize movements.filter (fun m => Decidable.decide (Agrees claim m)) = exact at hle ⊢
  generalize movements.filter (fun m => referenceAgrees claim.reference m.reference) = candidates at hle ⊢
  rcases exact with _ | ⟨m, _ | ⟨m', rest⟩⟩
  · -- Nothing agrees: the order of the rest only picks what is shown.
    dsimp only
    split
    · rename_i hsorted
      have hlen := congrArg List.length hsorted
      rw [List.length_mergeSort, List.length_map, List.length_nil] at hlen
      simp [hlen, MatchResult.outcome]
    · rename_i hsorted
      have hlen := congrArg List.length hsorted
      rw [List.length_mergeSort, List.length_map, List.length_cons] at hlen
      simp [hlen, MatchResult.outcome]
  · have : candidates.length ≠ 0 := by
      rw [List.length_singleton] at hle
      omega
    simp [this, MatchResult.outcome]
  · have : candidates.length ≠ 0 := by
      simp only [List.length_cons] at hle
      omega
    simp [this, MatchResult.outcome]

theorem matchClaim_outcome_perm (claim : ClaimShape) (h : movements.Perm movements') :
    (matchClaim claim movements).outcome = (matchClaim claim movements').outcome := by
  rw [matchClaim_outcome, matchClaim_outcome, h.countP_eq, h.countP_eq]

theorem Sole.perm (h : movements.Perm movements') : Sole movements c m ↔ Sole movements' c m := by
  have hfilter := h.filter fun m => Decidable.decide (Agrees (claimShape c) m)
  unfold Sole
  exact ⟨fun hm => List.perm_singleton.mp (hfilter.symm.trans (.of_eq hm)),
    fun hm => List.perm_singleton.mp (hfilter.trans (.of_eq hm))⟩

theorem matchedId_eq_some {id : Uuid} : (matchClaim (claimShape c) movements).matchedId = some id ↔
    ∃ m, Sole movements c m ∧ m.id = id := by
  simp only [Sole, ← matchClaim_matched]
  cases matchClaim (claimShape c) movements <;> simp [MatchResult.matchedId]

theorem rivals_perm (hc : claims.Perm claims') (hm : movements.Perm movements') (id : Uuid) :
    rivals claims movements id = rivals claims' movements' id := by
  unfold rivals
  rw [hc.countP_eq]
  refine List.countP_congr fun c _ => ?_
  simp only [decide_eq_true_eq, matchedId_eq_some, Sole.perm hm]

theorem decision_of_sole (h : Sole movements c m) : decision claims movements c =
    if 1 < rivals claims movements m.id then .ambiguous else .matched m := by
  unfold decision
  rw [matchClaim_matched.mpr h]

theorem decision_of_not_sole (h : ∀ m, ¬Sole movements c m) :
    decision claims movements c = matchClaim (claimShape c) movements := by
  unfold decision
  split
  · rename_i m hm
    exact absurd (matchClaim_matched.mp hm) (h m)
  · rfl

theorem decision_outcome_perm (hc : claims.Perm claims') (hm : movements.Perm movements')
    (c : PendingClaim) :
    (decision claims movements c).outcome = (decision claims' movements' c).outcome := by
  by_cases hsole : ∃ m, Sole movements c m
  · obtain ⟨m, hsole⟩ := hsole
    rw [decision_of_sole hsole, decision_of_sole ((Sole.perm hm).mp hsole), rivals_perm hc hm]
  · have hno := not_exists.mp hsole
    rw [decision_of_not_sole hno, decision_of_not_sole fun m h => hno m ((Sole.perm hm).mpr h),
      matchClaim_outcome_perm _ hm]

/-- What is decided of each claim does not depend on the order of the claims or the movements. -/
theorem decide_perm (hclaims : (claims.map (·.id)).Nodup) (hc : claims.Perm claims')
    (hm : movements.Perm movements') :
    ((decide claims' movements').map (·.claimId)).Perm ((decide claims movements).map (·.claimId)) ∧
    ∀ d ∈ decide claims movements, ∀ d' ∈ decide claims' movements', d.claimId = d'.claimId →
      d.result.outcome = d'.result.outcome ∧ ∀ m, d.result = .matched m ↔ d'.result = .matched m := by
  rw [decide_eq, decide_eq]
  refine ⟨?_, fun d hd d' hd' hid => ?_⟩
  · simp only [List.map_map]
    exact (hc.map _).symm
  · obtain ⟨c, hcmem, rfl⟩ := List.mem_map.mp hd
    obtain ⟨c', hcmem', rfl⟩ := List.mem_map.mp hd'
    -- With distinct ids the two decisions are about one claim.
    obtain rfl : c = c' := List.inj_on_of_nodup_map hclaims hcmem (hc.mem_iff.mpr hcmem') hid
    refine ⟨decision_outcome_perm hc hm c, fun m => ?_⟩
    simp only [decision_matched, Sole.perm hm, rivals_perm hc hm]

/-- Two payers and two transfers of one amount: the references of the transfers end alike, and one of the
payers gives only that end. -/
def payers : List PendingClaim :=
  [⟨1, 5000, 0, some "1100000001", none, none, none⟩, ⟨2, 5000, 0, some "00000001", none, none, none⟩]

def transfers : List MovementShape :=
  [⟨11, "1100000001", 5000, none, none, none, true⟩, ⟨12, "2200000001", 5000, none, none, none, true⟩]

theorem reversed_payers :
    ((decide payers.reverse transfers.reverse).map (·.claimId)).Perm
        ((decide payers transfers).map (·.claimId)) ∧
      ∃ d ∈ decide payers transfers, ∃ d' ∈ decide payers.reverse transfers.reverse,
        d.claimId = d'.claimId ∧ "AMBIGUOUS" = d.result.outcome ∧ d.result.outcome = d'.result.outcome := by
  have hclaims : (payers.map (·.id)).Nodup := by decide +kernel
  obtain ⟨hids, hsame⟩ :=
    decide_perm hclaims (List.reverse_perm payers).symm (List.reverse_perm transfers).symm
  have hd : (⟨2, .ambiguous⟩ : Decision) ∈ decide payers transfers := by decide +kernel
  have hd' : (⟨2, .ambiguous⟩ : Decision) ∈ decide payers.reverse transfers.reverse := by decide +kernel
  exact ⟨hids, _, hd, _, hd', rfl, rfl, (hsame _ hd _ hd' rfl).1⟩

/-! ## Rivals -/

/-- No claim is matched with a movement that another claim agrees with, nor has another movement that it
agrees with. -/
def Exclusive (claims : List PendingClaim) (movements : List MovementShape) : Prop :=
  ∀ c ∈ claims, ∀ m, ⟨c.id, .matched m⟩ ∈ decide claims movements →
    (∀ c' ∈ claims, c'.id ≠ c.id → ¬Agrees (claimShape c') m) ∧
      ∀ m' ∈ movements, m'.id ≠ m.id → ¬Agrees (claimShape c) m'

/-- A movement that is the only one for a claim and agrees with another is the only one for another. -/
def NoneOverlooked (claims : List PendingClaim) (movements : List MovementShape) : Prop :=
  ∀ c ∈ claims, ∀ m ∈ movements, Sole movements c m →
    (∃ c' ∈ claims, c'.id ≠ c.id ∧ Agrees (claimShape c') m) →
      ∃ c' ∈ claims, c'.id ≠ c.id ∧ Sole movements c' m

instance : Decidable (NoneOverlooked claims movements) := by
  unfold NoneOverlooked
  infer_instance

theorem rivals_le_one (hclaims : (claims.map (·.id)).Nodup) (hmovements : (movements.map (·.id)).Nodup)
    (hc : c ∈ claims) (hsole : Sole movements c m) :
    rivals claims movements m.id ≤ 1 ↔ ∀ c' ∈ claims, c'.id ≠ c.id → ¬Sole movements c' m := by
  have hcounted : ∀ c', (matchClaim (claimShape c') movements).matchedId = some m.id ↔
      Sole movements c' m := by
    intro c'
    rw [matchedId_eq_some]
    constructor
    · rintro ⟨m', hsole', hid⟩
      rwa [← List.inj_on_of_nodup_map hmovements hsole'.agrees.1 hsole.agrees.1 hid]
    · exact fun h => ⟨m, h, rfl⟩
  have hrivals : rivals claims movements m.id =
      (claims.filter fun c => Sole movements c m).length := by
    rw [rivals, List.countP_eq_length_filter]
    congr 1
    exact List.filter_congr fun c' _ => by simp only [hcounted]
  have hmem : ∀ c', c' ∈ claims.filter (fun c => Sole movements c m) ↔
      c' ∈ claims ∧ Sole movements c' m := fun c' => by simp [List.mem_filter]
  have hnodup : (claims.filter fun c => Sole movements c m).Nodup := (hclaims.of_map _).filter _
  rw [hrivals]
  constructor
  · intro hle c' hc' hne hsole'
    have hone := List.length_eq_one_iff.mp
      (le_antisymm hle (List.length_pos_of_mem ((hmem c).mpr ⟨hc, hsole⟩)))
    obtain ⟨x, hx⟩ := hone
    have h1 := (hmem c).mpr ⟨hc, hsole⟩
    have h2 := (hmem c').mpr ⟨hc', hsole'⟩
    rw [hx, List.mem_singleton] at h1 h2
    exact hne (by rw [h1, h2])
  · intro hno
    have hsub : claims.filter (fun c => Decidable.decide (Sole movements c m)) ⊆ [c] := by
      intro c' hc'
      obtain ⟨hc', hsole'⟩ := (hmem c').mp hc'
      by_contra hne
      refine hno c' hc' (fun hid => hne ?_) hsole'
      rw [List.inj_on_of_nodup_map hclaims hc' hc hid]
      exact List.mem_singleton_self c
    exact (List.subperm_of_subset hnodup hsub).length_le

/-- A match is never of a movement that another claim could own exactly when no rival is overlooked. -/
theorem exclusive_iff (hclaims : (claims.map (·.id)).Nodup) (hmovements : (movements.map (·.id)).Nodup) :
    Exclusive claims movements ↔ NoneOverlooked claims movements := by
  constructor
  · intro h c hc m hm hsole ⟨c', hc', hne, hagrees⟩
    by_contra hno
    push Not at hno
    have hmatched : decision claims movements c = .matched m :=
      decision_matched.mpr ⟨hsole, (rivals_le_one hclaims hmovements hc hsole).mpr hno⟩
    exact (h c hc m ((mem_decide hclaims hc).mpr hmatched)).1 c' hc' hne hagrees
  · intro h c hc m hmatched
    obtain ⟨hsole, hone⟩ := decision_matched.mp ((mem_decide hclaims hc).mp hmatched)
    refine ⟨fun c' hc' hne hagrees => ?_, fun m' hm' hne hagrees => hne ?_⟩
    · obtain ⟨rival, hrival, hrivalNe, hrivalSole⟩ := h c hc m hsole.agrees.1 hsole ⟨c', hc', hne, hagrees⟩
      exact (rivals_le_one hclaims hmovements hc hsole).mp hone rival hrival hrivalNe hrivalSole
    · rw [hsole.only hm' hagrees]

/-- The payer of the whole reference is matched with a transfer that the other could have made. -/
theorem overlooked_rival : ((payers.map (·.id)).Nodup ∧ (transfers.map (·.id)).Nodup) ∧
    (decide payers transfers).map (fun d => (d.claimId, d.result.outcome, d.result.matchedId)) =
      [(1, "MATCHED", some 11), (2, "AMBIGUOUS", none)] ∧ ¬Exclusive payers transfers := by
  have hids : (payers.map (·.id)).Nodup ∧ (transfers.map (·.id)).Nodup := by decide +kernel
  refine ⟨hids, by decide +kernel, fun h => ?_⟩
  have hmatched : ⟨1, .matched ⟨11, "1100000001", 5000, none, none, none, true⟩⟩ ∈
      decide payers transfers := by decide +kernel
  exact (h ⟨1, 5000, 0, some "1100000001", none, none, none⟩ (by decide +kernel) _ hmatched).1
    ⟨2, 5000, 0, some "00000001", none, none, none⟩ (by decide +kernel) (by decide +kernel) (by decide +kernel)

/-- Either transfer alone decides for nobody when both payers may have made it. -/
theorem exclusive_alone : Exclusive payers [⟨11, "1100000001", 5000, none, none, none, true⟩] :=
  (exclusive_iff (by decide +kernel) (by decide +kernel)).mpr (by decide +kernel)

end Splite.Bank
