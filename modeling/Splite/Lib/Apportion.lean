import Mathlib.Tactic
import Mathlib.Data.List.Forall2
import Mathlib.Data.List.GetD
import Mathlib.Algebra.Order.BigOperators.Group.List
import Mathlib.Data.Rat.Floor

/-!
# Apportionment of an integer by integer weights

`Apportions total weights parts`: the parts add up to `total`, and each one is less than one unit
away from its exact quota `total * w / weights.sum`, so it is the floor or the ceiling of it.
Multiplied out, so no division appears.

* `Apportions.nonneg`: nonnegative parts of a nonnegative total.
* `Apportions.le_weight`: no part exceeds its weight while the total does not exceed their sum.
* `apportions_of_floor`: floors raised by one on a set of parties with a positive remainder.
* `take_pos`: among remainders sorted downwards, those that a leftover unit reaches are positive.
-/

namespace Apportion

/-- `p` is less than one unit away from the quota `total * w / sum`. -/
def Near (total sum w p : Int) : Prop :=
  total * w - sum < p * sum ∧ p * sum < total * w + sum

/-- The parts divide `total` by `weights`, each within one unit of its quota. -/
structure Apportions (total : Int) (weights parts : List Int) : Prop where
  near : List.Forall₂ (Near total weights.sum) weights parts
  sum_eq : parts.sum = total

/-! ## One part -/

section Near

variable {total sum w p : Int}

theorem Near.nonneg (h : Near total sum w p) (hs : 0 < sum) (ht : 0 ≤ total) (hw : 0 ≤ w) :
    0 ≤ p := by
  have hq : 0 ≤ total * w := mul_nonneg ht hw
  by_contra hp
  have hle : p * sum ≤ -1 * sum := mul_le_mul_of_nonneg_right (by omega) hs.le
  have := h.1
  omega

theorem Near.le_weight (h : Near total sum w p) (hs : 0 < sum) (ht : total ≤ sum) (hw : 0 ≤ w) :
    p ≤ w := by
  have hq : total * w ≤ sum * w := mul_le_mul_of_nonneg_right ht hw
  by_contra hp
  have hle : (w + 1) * sum ≤ p * sum := mul_le_mul_of_nonneg_right (by omega) hs.le
  have he : (w + 1) * sum = sum * w + sum := by ring
  have := h.2
  omega

theorem Near.eq_weight (h : Near sum sum w p) (hs : 0 < sum) (hw : 0 ≤ w) : p = w := by
  have hle := h.le_weight hs le_rfl hw
  by_contra hp
  have hlt : p * sum ≤ (w - 1) * sum := mul_le_mul_of_nonneg_right (by omega) hs.le
  have he : (w - 1) * sum = sum * w - sum := by ring
  have := h.1
  omega

/-- A part is its exact quota, rounded down or up. -/
theorem Near.floor_or_ceil (h : Near total sum w p) (hs : 0 < sum) :
    p = ⌊(total * w : ℚ) / sum⌋ ∨ p = ⌈(total * w : ℚ) / sum⌉ := by
  have hs' : (0 : ℚ) < sum := by exact_mod_cast hs
  have hlo : (total * w : ℚ) - sum < p * sum := by exact_mod_cast h.1
  have hhi : (p * sum : ℚ) < total * w + sum := by exact_mod_cast h.2
  by_cases hp : (p : ℚ) ≤ total * w / sum
  · left
    rw [eq_comm, Int.floor_eq_iff, div_lt_iff₀ hs']
    exact ⟨hp, by linarith [add_mul (p : ℚ) 1 sum]⟩
  · right
    rw [eq_comm, Int.ceil_eq_iff, lt_div_iff₀ hs']
    exact ⟨by linarith [sub_mul (p : ℚ) 1 sum], (not_le.mp hp).le⟩

/-- The floor of a quota, raised by one only where the division leaves a remainder. -/
theorem near_floor (hs : 0 < sum) {c : Int} (hc : c = 0 ∨ c = 1 ∧ 0 < total * w % sum) :
    Near total sum w (total * w / sum + c) := by
  have hdiv := Int.mul_ediv_add_emod (total * w) sum
  have hlt := Int.emod_lt_of_pos (total * w) hs
  have hge := Int.emod_nonneg (total * w) hs.ne'
  have he : (total * w / sum + c) * sum = sum * (total * w / sum) + c * sum := by ring
  unfold Near
  rw [he]
  rcases hc with rfl | ⟨rfl, hpos⟩ <;> constructor <;> omega

end Near

/-! ## All the parts -/

namespace Apportions

variable {total : Int} {weights parts : List Int}

theorem length_eq (h : Apportions total weights parts) : weights.length = parts.length :=
  h.near.length_eq

theorem near_getD (h : Apportions total weights parts) {i : Nat} (hi : i < weights.length) :
    Near total weights.sum (weights.getD i 0) (parts.getD i 0) := by
  have hi' : i < parts.length := h.length_eq ▸ hi
  rw [List.getD_eq_getElem _ _ hi, List.getD_eq_getElem _ _ hi']
  exact List.forall₂_iff_get.mp h.near |>.2 i hi hi'

theorem sum_pos (hw : ∀ w ∈ weights, 0 < w) (hne : weights ≠ []) : 0 < weights.sum :=
  List.sum_pos _ hw hne

theorem nonneg (h : Apportions total weights parts) (hs : 0 < weights.sum)
    (hw : ∀ w ∈ weights, 0 < w) (ht : 0 ≤ total) : ∀ p ∈ parts, 0 ≤ p := by
  intro p hp
  obtain ⟨i, hi, rfl⟩ := List.getElem_of_mem hp
  have hi' : i < weights.length := h.length_eq ▸ hi
  have hn := h.near_getD hi'
  rw [List.getD_eq_getElem _ _ hi, List.getD_eq_getElem _ _ hi'] at hn
  exact hn.nonneg hs ht (hw _ (List.getElem_mem hi')).le

/-- A total within the sum of the weights gives no party more than its weight. -/
theorem le_weight (h : Apportions total weights parts) (hs : 0 < weights.sum)
    (hw : ∀ w ∈ weights, 0 < w) (ht : total ≤ weights.sum) :
    List.Forall₂ (fun w p => p ≤ w) weights parts := by
  refine List.forall₂_iff_get.mpr ⟨h.length_eq, fun i hi hi' => ?_⟩
  exact (List.forall₂_iff_get.mp h.near |>.2 i hi hi').le_weight hs ht
    (hw _ (List.getElem_mem hi)).le

/-- A total that is the sum of the weights gives every party its weight. -/
theorem eq_weights (h : Apportions weights.sum weights parts) (hs : 0 < weights.sum)
    (hw : ∀ w ∈ weights, 0 < w) : parts = weights := by
  refine (List.ext_getElem h.length_eq fun i hi hi' => ?_).symm
  exact ((List.forall₂_iff_get.mp h.near |>.2 i hi hi').eq_weight hs
    (hw _ (List.getElem_mem hi)).le).symm

end Apportions

/-! ## The largest remainders -/

/-- Remainders sorted downwards, each below `sum`, that add up to at least `k` units: the first
`k` of them are positive. -/
theorem take_pos {sum : Int} : ∀ {l : List Int} {k : Nat}, l.Pairwise (· ≥ ·) →
    (∀ x ∈ l, x < sum) → (k : Int) * sum ≤ l.sum → 0 < sum → ∀ x ∈ l.take k, 0 < x
  | _, 0, _, _, _, _, x, hx => by simp at hx
  | [], k + 1, _, _, _, _, x, hx => by simp at hx
  | a :: l, k + 1, hs, hlt, hk, hpos, x, hx => by
    obtain ⟨hal, hl⟩ := List.pairwise_cons.mp hs
    have ha := hlt a List.mem_cons_self
    have he : ((k + 1 : Nat) : Int) * sum = k * sum + sum := by push_cast; ring
    rw [List.sum_cons, he] at hk
    rcases List.mem_cons.mp (by simpa using hx) with rfl | hx
    · -- A head that is not positive leaves a list of nonpositive remainders.
      by_contra hx0
      have hsum : l.sum ≤ 0 := by
        simpa using List.sum_le_card_nsmul l 0 fun y hy => by have := hal y hy; omega
      have : (0 : Int) ≤ k * sum := by positivity
      omega
    · exact take_pos hl (fun y hy => hlt y (List.mem_cons_of_mem _ hy)) (by omega) hpos x hx

/-- Floors of the quotas with `c i` more for party `i`: an apportionment when the `c i` are zero or
one, add up to what the floors leave over, and stand only on a positive remainder. -/
theorem apportions_of_floor {total : Int} {weights parts : List Int} (hs : 0 < weights.sum)
    (hlen : parts.length = weights.length) (hsum : parts.sum = total)
    (hc : ∀ i, (hi : i < weights.length) → ∃ c : Int,
      parts.getD i 0 = total * weights[i] / weights.sum + c ∧
      (c = 0 ∨ c = 1 ∧ 0 < total * weights[i] % weights.sum)) :
    Apportions total weights parts := by
  refine ⟨List.forall₂_iff_get.mpr ⟨hlen.symm, fun i hi hi' => ?_⟩, hsum⟩
  obtain ⟨c, hp, hc⟩ := hc i hi
  rw [List.getD_eq_getElem _ _ hi'] at hp
  simp only [List.get_eq_getElem, hp]
  exact near_floor hs hc

/-- The remainders of the quotas add up to what the floors leave over, in units of `sum`. -/
theorem sum_emod_eq (total sum : Int) (weights : List Int) :
    (weights.map (fun w => total * w % sum)).sum =
      total * weights.sum - sum * (weights.map (fun w => total * w / sum)).sum := by
  induction weights with
  | nil => simp
  | cons w l ih =>
    have := Int.mul_ediv_add_emod (total * w) sum
    simp only [List.map_cons, List.sum_cons, ih]
    linarith [mul_add total w l.sum, mul_add sum (total * w / sum)
      (l.map (fun w => total * w / sum)).sum]

end Apportion
