import Splite.Split

/-!
# Who gets the leftover units (`services/split.js`)

`allocate` floors every quota and raises some of the parts by one. Which ones is decided by the
remainders, ties by the index.

* `allocate_getD`, `allocate_getD_eq_zero_iff`: what a party gets, and who gets nothing.
* `allocate_mono`: the order of the remainders agrees with the order of the weights.
* `allocate_largest_remainder`: the guarantees of `allocate` together.
-/

namespace Splite

open Apportion

/-! ## Who is raised -/

/-- What the floors of the quotas leave over. -/
def leftOver (total : Int) (weights : List Int) : Int :=
  total - (weights.map fun w => total * w / weights.sum).sum

/-- Party `j` comes before party `i` for a unit that is left over. -/
def Ahead (total : Int) (weights : List Int) (i j : Nat) : Prop :=
  let remainder k := total * weights.getD k 0 % weights.sum
  remainder i < remainder j ∨ remainder j = remainder i ∧ j < i

instance (total : Int) (weights : List Int) (i j : Nat) : Decidable (Ahead total weights i j) :=
  inferInstanceAs (Decidable (_ ∨ _))

/-- A party whose quota is less than one unit, with as many parties ahead as units are left over. -/
def Misses (total : Int) (weights : List Int) (i : Nat) : Prop :=
  total * weights.getD i 0 < weights.sum ∧
    leftOver total weights ≤ (List.range weights.length).countP fun j => Ahead total weights i j

instance (total : Int) (weights : List Int) (i : Nat) : Decidable (Misses total weights i) :=
  inferInstanceAs (Decidable (_ ∧ _))

/-- In an ordered list, an element is among the first `k` unless at least `k` stand before it. -/
theorem not_mem_take_iff {α : Type} {R : α → α → Prop} [DecidableRel R]
    (hasymm : ∀ a b, R a b → ¬R b a) {x : α} :
    ∀ {l : List α} {k : Nat}, l.Pairwise R → x ∈ l → (x ∉ l.take k ↔ k ≤ l.countP (R · x))
  | a :: l, 0, _, _ => by simp
  | a :: l, k + 1, hl, hx => by
    obtain ⟨ha, hl⟩ := List.pairwise_cons.mp hl
    rw [List.take_succ_cons, List.mem_cons, not_or, List.countP_cons]
    rcases List.mem_cons.mp hx with rfl | hmem
    · have hnone : l.countP (R · x) = 0 :=
        List.countP_eq_zero.mpr fun b hb => by simpa using hasymm x b (ha b hb)
      have hself : ¬R x x := fun h => hasymm x x h h
      rw [hnone, if_neg (by simpa using hself)]
      simp
    · have hne : x ≠ a := by
        rintro rfl
        exact hasymm x x (ha x hmem) (ha x hmem)
      rw [if_pos (by simpa using ha x hmem), not_mem_take_iff hasymm hl hmem]
      simp [hne]

/-- The order of the remainders, ties decided. -/
theorem remainderOrder_pairwise (rs : List Int) :
    (remainderOrder rs).Pairwise fun j i =>
      rs.getD i 0 < rs.getD j 0 ∨ rs.getD j 0 = rs.getD i 0 ∧ j < i := by
  have hnd := nodup_remainderOrder rs
  unfold remainderOrder at hnd ⊢
  rw [List.Nodup, List.pairwise_map] at hnd
  rw [List.pairwise_map]
  have hs := (List.pairwise_insertionSort remainderLE _).and hnd
  have key : ∀ x ∈ rs.zipIdx.map Prod.swap, rs.getD x.1 0 = x.2 := by
    intro x hx
    obtain ⟨⟨r, i⟩, hm, rfl⟩ := List.mem_map.mp hx
    have hget : rs[i]? = some r := List.mem_zipIdx_iff_getElem?.mp hm
    simp [List.getD_eq_getElem?_getD, hget]
  refine hs.imp_of_mem fun {a b} ha hb hab => ?_
  obtain ⟨hle, hne⟩ := hab
  rw [key a ((List.mem_insertionSort _).mp ha), key b ((List.mem_insertionSort _).mp hb)]
  unfold remainderLE at hle
  omega

/-- A party that gets one of the units that are left over. -/
def Raised (total : Int) (weights : List Int) (i : Nat) : Prop :=
  (List.range weights.length).countP (fun j => Ahead total weights i j) < leftOver total weights

instance (total : Int) (weights : List Int) (i : Nat) : Decidable (Raised total weights i) :=
  inferInstanceAs (Decidable (_ < _))

/-- What `allocate` gives a party: the floor of its quota, and one more where it is raised. -/
theorem allocate_getD {total : Int} {weights parts : List Int} {i : Nat} (ht : 0 ≤ total)
    (hpos : ∀ w ∈ weights, 0 < w) (h : allocate total weights = .ok parts) (hi : i < weights.length) :
    parts.getD i 0 = total * weights.getD i 0 / weights.sum +
      if Raised total weights i then 1 else 0 := by
  have hne : weights ≠ [] := fun hnil => by simp [hnil] at hi
  have hs : 0 < weights.sum := List.sum_pos _ hpos hne
  have hany : weights.any (· ≤ 0) = false := by
    simp only [List.any_eq_false, decide_eq_true_eq, not_le]
    exact hpos
  obtain ⟨-, hl0, hln⟩ := leftover_spec total hs
  simp only [allocate, not_lt.mpr ht, hne, hany, if_false, Bool.false_eq_true] at h
  obtain rfl := Except.ok.inj h
  set rems := weights.map fun w => total * w % weights.sum with hrems
  have hrem : ∀ j < weights.length, rems.getD j 0 = total * weights.getD j 0 % weights.sum := by
    intro j hj
    rw [List.getD_eq_getElem _ _ (by simpa [hrems] using hj), List.getD_eq_getElem _ _ hj]
    simp [hrems]
  have hlen : rems.length = weights.length := by simp [hrems]
  have hcount : i ∉ (remainderOrder rems).take
        (total - (weights.map fun w => total * w / weights.sum).sum).toNat ↔
      ¬Raised total weights i := by
    rw [not_mem_take_iff (by omega) (remainderOrder_pairwise rems)
      ((remainderOrder_perm rems).mem_iff.mpr (by simpa [hlen] using hi)),
      (remainderOrder_perm rems).countP_eq, hlen]
    unfold Raised leftOver
    have hcongr : ∀ j ∈ List.range weights.length, decide (rems.getD i 0 < rems.getD j 0 ∨
        rems.getD j 0 = rems.getD i 0 ∧ j < i) = decide (Ahead total weights i j) := by
      intro j hj
      rw [hrem i hi, hrem j (List.mem_range.mp hj)]
      rfl
    rw [List.countP_congr fun j hj => by rw [hcongr j hj]]
    omega
  have hnodup := (nodup_remainderOrder rems).sublist (List.take_sublist
    (total - (weights.map fun w => total * w / weights.sum).sum).toNat _)
  rw [getD_handOut _ _ _ (by simp [hlen]; omega) (by simpa using hi), List.drop_zero,
    List.getD_eq_getElem _ _ (by simpa using hi), List.getElem_map, ← List.getD_eq_getElem _ 0 hi]
  congr 1
  split
  · rename_i hraised
    rw [List.count_eq_one_of_mem hnodup (not_not.mp fun hmem => hcount.mp hmem hraised)]
    rfl
  · rename_i hraised
    rw [List.count_eq_zero_of_not_mem (hcount.mpr hraised)]
    rfl

/-! ## Who gets nothing -/

/-- Of an amount that `allocate` divides, exactly the parties that miss it get nothing. -/
theorem allocate_getD_eq_zero_iff {total : Int} {weights parts : List Int} {i : Nat} (ht : 0 ≤ total)
    (hpos : ∀ w ∈ weights, 0 < w) (h : allocate total weights = .ok parts) (hi : i < weights.length) :
    parts.getD i 0 = 0 ↔ Misses total weights i := by
  have hs : 0 < weights.sum := List.sum_pos _ hpos fun hnil => by simp [hnil] at hi
  have hwi : 0 < weights.getD i 0 := by
    rw [List.getD_eq_getElem _ _ hi]
    exact hpos _ (List.getElem_mem hi)
  have hquota : 0 ≤ total * weights.getD i 0 / weights.sum :=
    Int.ediv_nonneg (mul_nonneg ht hwi.le) hs.le
  have hfloor : total * weights.getD i 0 / weights.sum = 0 ↔
      total * weights.getD i 0 < weights.sum := by
    have := Int.ediv_lt_iff_lt_mul (a := total * weights.getD i 0) (b := 1) hs
    omega
  rw [allocate_getD ht hpos h hi]
  unfold Misses
  rw [← hfloor, ← not_lt]
  show _ ↔ _ ∧ ¬Raised total weights i
  by_cases hraised : Raised total weights i
  · rw [if_pos hraised]
    exact iff_of_false (by omega) fun h => h.2 hraised
  · rw [if_neg hraised, add_zero, and_iff_left hraised]

/-! ## The order of the parts -/

section Order

variable {total : Int} {weights parts : List Int} {i j k : Nat}

theorem ahead_iff : Ahead total weights i j ↔
    total * weights.getD i 0 % weights.sum < total * weights.getD j 0 % weights.sum ∨
      total * weights.getD j 0 % weights.sum = total * weights.getD i 0 % weights.sum ∧ j < i :=
  Iff.rfl

theorem Ahead.trans (hij : Ahead total weights i j) (hjk : Ahead total weights j k) :
    Ahead total weights i k := by
  rw [ahead_iff] at hij hjk ⊢
  omega

/-- Who is ahead of a party that is raised is raised too. -/
theorem Raised.of_ahead (h : Raised total weights i) (hij : Ahead total weights i j) :
    Raised total weights j := by
  unfold Raised at h ⊢
  refine lt_of_le_of_lt ?_ h
  have hmono := List.countP_mono_left (l := List.range weights.length)
    (p := fun k => Ahead total weights j k) (q := fun k => Ahead total weights i k)
    fun k _ hjk => by simpa using hij.trans (by simpa using hjk)
  exact_mod_cast hmono

/-- Nothing is left over of nothing. -/
theorem not_raised_zero : ¬Raised 0 weights i := by
  unfold Raised leftOver
  have hzero : (weights.map fun w => 0 * w / weights.sum).sum = 0 := by simp
  omega

/-- A larger weight never gets a smaller part. -/
theorem allocate_mono (ht : 0 ≤ total) (hpos : ∀ w ∈ weights, 0 < w)
    (h : allocate total weights = .ok parts) (hi : i < weights.length) (hj : j < weights.length)
    (hlt : weights.getD i 0 < weights.getD j 0) : parts.getD i 0 ≤ parts.getD j 0 := by
  have hs : 0 < weights.sum := List.sum_pos _ hpos fun hnil => by simp [hnil] at hi
  have hquota : total * weights.getD i 0 ≤ total * weights.getD j 0 :=
    mul_le_mul_of_nonneg_left hlt.le ht
  have hfloor := Int.ediv_le_ediv hs hquota
  rw [allocate_getD ht hpos h hi, allocate_getD ht hpos h hj]
  by_cases hraised : Raised total weights i
  · have hpast : total * weights.getD i 0 / weights.sum < total * weights.getD j 0 / weights.sum ∨
        Raised total weights j := by
      refine or_iff_not_imp_left.mpr fun hsame => hraised.of_ahead (ahead_iff.mpr (Or.inl ?_))
      -- The same floor leaves more of the greater quota.
      have hzero : total ≠ 0 := by
        rintro rfl
        exact not_raised_zero hraised
      have hgap : total * weights.getD i 0 < total * weights.getD j 0 :=
        mul_lt_mul_of_pos_left hlt (by omega)
      have hdi := Int.mul_ediv_add_emod (total * weights.getD i 0) weights.sum
      have hdj := Int.mul_ediv_add_emod (total * weights.getD j 0) weights.sum
      have hfloors : total * weights.getD j 0 / weights.sum = total * weights.getD i 0 / weights.sum := by
        omega
      rw [hfloors] at hdj
      omega
    rw [if_pos hraised]
    rcases hpast with hpast | hpast
    · split <;> omega
    · rw [if_pos hpast]
      omega
  · rw [if_neg hraised]
    split <;> omega

/-- Of equal weights the earlier index never gets less. -/
theorem allocate_ties (ht : 0 ≤ total) (hpos : ∀ w ∈ weights, 0 < w)
    (h : allocate total weights = .ok parts) (hij : i < j) (hj : j < weights.length)
    (heq : weights.getD i 0 = weights.getD j 0) : parts.getD j 0 ≤ parts.getD i 0 := by
  have hahead : Ahead total weights j i := ahead_iff.mpr (Or.inr ⟨by rw [heq], hij⟩)
  rw [allocate_getD ht hpos h (hij.trans hj), allocate_getD ht hpos h hj, heq]
  by_cases hraised : Raised total weights j
  · rw [if_pos hraised, if_pos (hraised.of_ahead hahead)]
  · rw [if_neg hraised]
    split <;> omega

end Order

/-- `allocate` is the largest-remainder rule: each part is its exact quota rounded down or up, in the
order of the weights and of the indices, and within the weights where the total is within their sum. -/
theorem allocate_largest_remainder {total : Int} {weights : List Int} (ht : 0 ≤ total)
    (hne : weights ≠ []) (hpos : ∀ w ∈ weights, 0 < w) :
    ∃ parts, allocate total weights = .ok parts ∧
      parts.length = weights.length ∧
      parts.sum = total ∧
      (∀ i < weights.length,
        parts.getD i 0 = ⌊(total * weights.getD i 0 : ℚ) / weights.sum⌋ ∨
          parts.getD i 0 = ⌈(total * weights.getD i 0 : ℚ) / weights.sum⌉) ∧
      (∀ i < weights.length, ∀ j < weights.length,
        weights.getD i 0 < weights.getD j 0 → parts.getD i 0 ≤ parts.getD j 0) ∧
      (∀ i j, i < j → j < weights.length →
        weights.getD i 0 = weights.getD j 0 → parts.getD j 0 ≤ parts.getD i 0) ∧
      (total ≤ weights.sum → ∀ i < weights.length, parts.getD i 0 ≤ weights.getD i 0) ∧
      (total = weights.sum → parts = weights) := by
  obtain ⟨parts, hparts, happ⟩ := allocate_apportions ht hne hpos
  have hs : 0 < weights.sum := List.sum_pos _ hpos hne
  refine ⟨parts, hparts, happ.length_eq.symm, happ.sum_eq, fun i hi => ?_,
    fun i hi j hj => allocate_mono ht hpos hparts hi hj,
    fun i j hij hj => allocate_ties ht hpos hparts hij hj, fun hle i hi => ?_, ?_⟩
  · exact (happ.near_getD hi).floor_or_ceil hs
  · refine (happ.near_getD hi).le_weight hs hle (hpos _ ?_).le
    rw [List.getD_eq_getElem _ _ hi]
    exact List.getElem_mem hi
  · rintro rfl
    exact happ.eq_weights hs hpos

/-- Six units by the weights 1, 5, 1: both units left over go to the small weights, which have the greater
remainders, and no part exceeds its weight. -/
theorem allocate_six : allocate 6 [1, 5, 1] = .ok [1, 4, 1] ∧
    ∃ parts, allocate 6 [1, 5, 1] = .ok parts ∧ parts.sum = 6 ∧
      ∀ i < 3, parts.getD i 0 ≤ [1, 5, 1].getD i 0 := by
  obtain ⟨parts, hparts, -, hsum, -, -, -, hcap, -⟩ :=
    allocate_largest_remainder (by decide : (0 : Int) ≤ 6) (by decide : ([1, 5, 1] : List Int) ≠ [])
      (by decide)
  exact ⟨by decide, parts, hparts, hsum, hcap (by decide)⟩

end Splite
