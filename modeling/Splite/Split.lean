import Splite.Basic
import Splite.Lib.Apportion
import Mathlib.Data.List.Sort

/-!
# Splitting an exact amount (`services/split.js`)

`allocate` floors every share and hands the leftover units to the largest remainders, ties by
index. The comparison of the source's sort is a strict total order (the index decides a tie), so
insertion sort gives the one order it can give.

`allocate_apportions`: of a nonnegative total and positive shares it returns an apportionment
(`Lib/Apportion.lean`).
-/

namespace Splite

open Apportion

/-- `parts[index] += 1n`. -/
def bump (index : Nat) (parts : List Int) : List Int := parts.modify index (· + 1)

/-- `for (let i = 0; leftover > 0n; i++, leftover--)`: `leftover` more rounds, from round `i`. -/
def handOut (order : List Nat) : (leftover i : Nat) → List Int → List Int
  | 0, _, parts => parts
  | leftover + 1, i, parts =>
    handOut order leftover (i + 1) (bump (order.getD (i % order.length) 0) parts)

/-- The order of the `remainders` sort: larger remainder first, then lower index. -/
def remainderLE (a b : Nat × Int) : Prop := b.2 < a.2 ∨ a.2 = b.2 ∧ a.1 ≤ b.1

instance : DecidableRel remainderLE := fun _ _ => inferInstanceAs (Decidable (_ ∨ _))

/-- The indices in the order in which the leftover units are handed out. -/
def remainderOrder (remainders : List Int) : List Nat :=
  ((remainders.zipIdx.map fun (r, i) => (i, r)).insertionSort remainderLE).map (·.1)

/-- `allocate(totalMinorUnits, shares)`. -/
def allocate (totalMinorUnits : Int) (shares : List Int) : Except Err (List Int) :=
  if totalMinorUnits < 0 then .error (.error "Total must not be negative")
  else if shares = [] then .error (.error "At least one share is required")
  else if shares.any (· ≤ 0) then .error (.error "Every share must be a positive integer")
  else
    let weightSum := shares.sum
    let parts := shares.map fun weight => totalMinorUnits * weight / weightSum
    let remainders := shares.map fun weight => totalMinorUnits * weight % weightSum
    let leftover := totalMinorUnits - parts.sum
    .ok (handOut (remainderOrder remainders) leftover.toNat 0 parts)

/-! ## The loop that hands the leftover out -/

@[simp] theorem length_bump (i : Nat) (parts : List Int) : (bump i parts).length = parts.length := by
  simp [bump]

theorem sum_bump {i : Nat} {parts : List Int} (hi : i < parts.length) :
    (bump i parts).sum = parts.sum + 1 := by
  unfold bump
  induction parts generalizing i with
  | nil => simp at hi
  | cons a l ih =>
    cases i with
    | zero => simp; omega
    | succ i =>
      rw [List.modify_succ_cons, List.sum_cons, List.sum_cons, ih (by simpa using hi)]
      omega

theorem getD_bump {i j : Nat} {parts : List Int} (hj : j < parts.length) :
    (bump i parts).getD j 0 = parts.getD j 0 + if i = j then 1 else 0 := by
  unfold bump
  rw [List.getD_eq_getElem _ _ (by simpa using hj), List.getD_eq_getElem _ _ hj,
    List.getElem_modify]
  split <;> simp

@[simp] theorem length_handOut (order : List Nat) (k i : Nat) (parts : List Int) :
    (handOut order k i parts).length = parts.length := by
  induction k generalizing i parts with
  | zero => rfl
  | succ k ih => simp [handOut, ih]

theorem sum_handOut {order : List Nat} {n : Nat} (hne : order ≠ []) (hlt : ∀ j ∈ order, j < n)
    (k i : Nat) (parts : List Int) (hn : parts.length = n) :
    (handOut order k i parts).sum = parts.sum + k := by
  induction k generalizing i parts with
  | zero => simp [handOut]
  | succ k ih =>
    have hmod : i % order.length < order.length := Nat.mod_lt _ (List.length_pos_of_ne_nil hne)
    have hmem : order.getD (i % order.length) 0 < parts.length := by
      rw [List.getD_eq_getElem _ _ hmod, hn]; exact hlt _ (List.getElem_mem hmod)
    rw [handOut, ih _ _ (by simp [hn]), sum_bump hmem]
    push_cast
    ring

/-- While the rounds stay within one pass over `order`, index `j` gains one unit for every time
it occurs among the rounds. -/
theorem getD_handOut {order : List Nat} {j : Nat} (k i : Nat) (parts : List Int)
    (hk : i + k ≤ order.length) (hj : j < parts.length) :
    (handOut order k i parts).getD j 0 = parts.getD j 0 + (((order.drop i).take k).count j : Nat) := by
  induction k generalizing i parts with
  | zero => simp [handOut]
  | succ k ih =>
    have hi : i < order.length := by omega
    rw [handOut, ih (i + 1) _ (by omega) (by simpa using hj), getD_bump hj, Nat.mod_eq_of_lt hi,
      List.getD_eq_getElem _ _ hi, List.drop_eq_getElem_cons hi, List.take_succ_cons,
      List.count_cons]
    simp only [beq_iff_eq]
    split <;> push_cast <;> ring

/-! ## The order of the remainders -/

theorem remainderOrder_perm (rs : List Int) : (remainderOrder rs).Perm (List.range rs.length) := by
  have h := (List.perm_insertionSort remainderLE (rs.zipIdx.map fun (r, i) => (i, r))).map (·.1)
  have hidx : (rs.zipIdx.map fun x : Int × Nat => (x.2, x.1)).map (·.1) = List.range rs.length := by
    rw [List.map_map, List.range_eq_range']
    exact List.zipIdx_map_snd 0 rs
  unfold remainderOrder
  rwa [hidx] at h

@[simp] theorem length_remainderOrder (rs : List Int) : (remainderOrder rs).length = rs.length := by
  simpa using (remainderOrder_perm rs).length_eq

theorem nodup_remainderOrder (rs : List Int) : (remainderOrder rs).Nodup :=
  (remainderOrder_perm rs).nodup_iff.mpr List.nodup_range

theorem lt_of_mem_remainderOrder {rs : List Int} {j : Nat} (h : j ∈ remainderOrder rs) :
    j < rs.length := by
  simpa using (remainderOrder_perm rs).mem_iff.mp h

instance : Std.Total remainderLE := ⟨fun a b => by unfold remainderLE; omega⟩

instance : IsTrans _ remainderLE := ⟨fun a b c h h' => by unfold remainderLE at *; omega⟩

/-- Read in the order of `remainderOrder`, the remainders go down. -/
theorem remainderOrder_sorted (rs : List Int) :
    ((remainderOrder rs).map (rs.getD · 0)).Pairwise (· ≥ ·) := by
  unfold remainderOrder
  rw [List.map_map, List.pairwise_map]
  have hs := List.pairwise_insertionSort remainderLE (rs.zipIdx.map fun (r, i) => (i, r))
  refine hs.imp_of_mem fun {a b} ha hb hab => ?_
  have key : ∀ x : Nat × Int, x ∈ rs.zipIdx.map (fun (r, i) => (i, r)) → rs.getD x.1 0 = x.2 := by
    rintro ⟨i, r⟩ hx
    obtain ⟨⟨r', i'⟩, hm, he⟩ := List.mem_map.mp hx
    simp only [Prod.mk.injEq] at he
    obtain ⟨rfl, rfl⟩ := he
    have hget := List.mem_zipIdx_iff_getElem?.mp hm
    simp only at hget
    simp [List.getD_eq_getElem?_getD, hget]
  have hka := key a ((List.mem_insertionSort _).mp ha)
  have hkb := key b ((List.mem_insertionSort _).mp hb)
  simp only [Function.comp_apply, hka, hkb]
  unfold remainderLE at hab
  omega

theorem sum_map_remainderOrder (rs : List Int) :
    ((remainderOrder rs).map (rs.getD · 0)).sum = rs.sum := by
  rw [((remainderOrder_perm rs).map _).sum_eq]
  congr 1
  refine List.ext_getElem (by simp) fun i hi hi' => ?_
  simp [List.getElem?_eq_getElem hi']

/-! ## The result -/

/-- The units left over by the floors, in units of the weight sum, are the sum of the remainders;
there are fewer of them than shares. -/
theorem leftover_spec (total : Int) {shares : List Int} (hs : 0 < shares.sum) :
    let leftover := total - (shares.map fun w => total * w / shares.sum).sum
    leftover * shares.sum = (shares.map fun w => total * w % shares.sum).sum ∧
      0 ≤ leftover ∧ leftover ≤ shares.length := by
  intro leftover
  have hsum := sum_emod_eq total shares.sum shares
  have hmul : leftover * shares.sum = (shares.map fun w => total * w % shares.sum).sum := by
    rw [hsum]; simp only [leftover]; ring
  have h0 : 0 ≤ (shares.map fun w => total * w % shares.sum).sum :=
    List.sum_nonneg (by simp only [List.mem_map]; rintro _ ⟨w, -, rfl⟩; exact Int.emod_nonneg _ hs.ne')
  have h1 : (shares.map fun w => total * w % shares.sum).sum ≤ shares.length * shares.sum := by
    have := List.sum_le_card_nsmul (shares.map fun w => total * w % shares.sum) shares.sum
      (by simp only [List.mem_map]; rintro _ ⟨w, -, rfl⟩; exact (Int.emod_lt_of_pos _ hs).le)
    simpa using this
  refine ⟨hmul, ?_, ?_⟩
  · by_contra hneg
    have := mul_le_mul_of_nonneg_right (show leftover ≤ -1 by omega) hs.le
    omega
  · exact le_of_mul_le_mul_right (by rw [hmul]; exact h1) hs

/-- Of a nonnegative total and positive shares, `allocate` returns an apportionment. -/
theorem allocate_apportions {total : Int} {shares : List Int} (ht : 0 ≤ total) (hne : shares ≠ [])
    (hpos : ∀ w ∈ shares, 0 < w) :
    ∃ parts, allocate total shares = .ok parts ∧ Apportions total shares parts := by
  have hs : 0 < shares.sum := List.sum_pos _ hpos hne
  have hany : shares.any (· ≤ 0) = false := by
    simp only [List.any_eq_false, decide_eq_true_eq, not_le]; exact hpos
  set floors := shares.map fun w => total * w / shares.sum with hfloors
  set rems := shares.map fun w => total * w % shares.sum with hrems
  obtain ⟨hmul, hl0, hln⟩ := leftover_spec total hs
  rw [← hfloors, ← hrems] at hmul
  rw [← hfloors] at hl0 hln
  set k := (total - floors.sum).toNat with hk
  have hkc : (k : Int) = total - floors.sum := Int.toNat_of_nonneg hl0
  have hlen : rems.length = shares.length := by simp [hrems]
  have hflen : floors.length = shares.length := by simp [hfloors]
  have hone : remainderOrder rems ≠ [] := by
    rw [← List.length_pos_iff, length_remainderOrder, hlen]
    exact List.length_pos_of_ne_nil hne
  refine ⟨handOut (remainderOrder rems) k 0 floors, ?_, ?_⟩
  · simp [allocate, not_lt.mpr ht, hne, hany, hfloors, hrems, hk]
  refine apportions_of_floor hs (by simp [hflen]) ?_ fun i hi => ?_
  · rw [sum_handOut hone (fun j hj => hlen ▸ lt_of_mem_remainderOrder hj) _ _ _ hflen, hkc]
    ring
  refine ⟨(((remainderOrder rems).take k).count i : Nat), ?_, ?_⟩
  · rw [getD_handOut _ _ _ (by simp [hlen]; omega) (by simpa [hflen] using hi), List.drop_zero]
    congr 1
    rw [List.getD_eq_getElem _ _ (by simpa [hflen] using hi)]
    simp [hfloors]
  · have hnd : ((remainderOrder rems).take k).Nodup :=
      (nodup_remainderOrder rems).sublist (List.take_sublist _ _)
    by_cases hmem : i ∈ (remainderOrder rems).take k
    · -- A unit reaches only the first `leftover` remainders, which are positive.
      right
      refine ⟨by rw [List.count_eq_one_of_mem hnd hmem]; rfl, ?_⟩
      have hpos' := take_pos (remainderOrder_sorted rems) (k := k)
        (fun x hx => ?_) (by rw [sum_map_remainderOrder, hkc, hmul]) hs
        (rems.getD i 0) (by rw [← List.map_take]; exact List.mem_map_of_mem hmem)
      · rw [List.getD_eq_getElem _ _ (by simpa [hlen] using hi)] at hpos'
        simpa [hrems] using hpos'
      · obtain ⟨j, hj, rfl⟩ := List.mem_map.mp hx
        have hj' := lt_of_mem_remainderOrder hj
        rw [List.getD_eq_getElem _ _ hj']
        simp only [hrems, List.getElem_map]
        exact Int.emod_lt_of_pos _ hs
    · left; rw [List.count_eq_zero_of_not_mem hmem]; rfl

/-- Three diners on 7567 céntimos: the leftover unit goes to the first of the equal remainders. -/
example : allocate 7567 [1, 1, 1] = .ok [2523, 2522, 2522] := by decide

end Splite
