import Mathlib.Tactic

/-!
# Division rounded half away from zero

`roundHalfAway n d` is the integer nearest to `n / d` for a positive `d`; a half goes away from zero.

* `roundHalfAway_nonneg`, `roundHalfAway_zero`: it keeps the sign.
* `roundHalfAway_mul_self`: a multiple is not rounded.
* `roundHalfAway_mono`: it is monotone in the numerator.
* `roundHalfAway_round_trip`: scaled by a rate of at least one and back, an amount returns.
-/

/-- The integer nearest to `n / d`, halves away from zero. -/
def roundHalfAway (n d : Int) : Int :=
  if 0 ≤ n then (n + d / 2) / d else -((-n + d / 2) / d)

variable {n m d : Int}

theorem roundHalfAway_nonneg (hd : 0 < d) (hn : 0 ≤ n) : 0 ≤ roundHalfAway n d := by
  unfold roundHalfAway
  rw [if_pos hn]
  exact Int.ediv_nonneg (by omega) hd.le

theorem roundHalfAway_nonpos (hd : 0 < d) (hn : n < 0) : roundHalfAway n d ≤ 0 := by
  unfold roundHalfAway
  rw [if_neg (by omega)]
  have : 0 ≤ (-n + d / 2) / d := Int.ediv_nonneg (by omega) hd.le
  omega

theorem roundHalfAway_zero (hd : 0 < d) : roundHalfAway 0 d = 0 := by
  unfold roundHalfAway
  rw [if_pos le_rfl, zero_add]
  exact Int.ediv_eq_zero_of_lt (by omega) (by omega)

/-- A multiple is not rounded. -/
theorem roundHalfAway_mul_self (hd : 0 < d) : roundHalfAway (n * d) d = n := by
  unfold roundHalfAway
  have hhalf : d / 2 / d = 0 := Int.ediv_eq_zero_of_lt (by omega) (by omega)
  split
  · rw [Int.add_comm, Int.add_mul_ediv_right _ _ hd.ne', hhalf, zero_add]
  · rw [← Int.neg_mul, Int.add_comm, Int.add_mul_ediv_right _ _ hd.ne', hhalf, zero_add, neg_neg]

/-- A larger numerator never rounds to less. -/
theorem roundHalfAway_mono (hd : 0 < d) (h : n ≤ m) : roundHalfAway n d ≤ roundHalfAway m d := by
  rcases le_or_gt 0 n with hn | hn
  · unfold roundHalfAway
    rw [if_pos hn, if_pos (hn.trans h)]
    exact Int.ediv_le_ediv hd (by omega)
  rcases le_or_gt 0 m with hm | hm
  · exact (roundHalfAway_nonpos hd hn).trans (roundHalfAway_nonneg hd hm)
  · unfold roundHalfAway
    rw [if_neg (by omega), if_neg (by omega)]
    have : (-m + d / 2) / d ≤ (-n + d / 2) / d := Int.ediv_le_ediv hd (by omega)
    omega

/-- The rounded quotient is at most half a unit off. -/
theorem roundHalfAway_bounds (hd : 0 < d) (hn : 0 ≤ n) :
    2 * n < 2 * (roundHalfAway n d * d) + d ∧ 2 * (roundHalfAway n d * d) ≤ 2 * n + d := by
  unfold roundHalfAway
  rw [if_pos hn]
  have hdiv := Int.ediv_mul_add_emod (n + d / 2) d
  have hge := Int.emod_nonneg (n + d / 2) hd.ne'
  have hlt := Int.emod_lt_of_pos (n + d / 2) hd
  omega

/-- An amount scaled up by the rate `r / s`, and down by it again. -/
theorem roundHalfAway_round_trip {r s : Int} (hm : 0 ≤ m) (hs : 0 < s) (hr : s ≤ r) :
    roundHalfAway (roundHalfAway (m * r) s * s) r = m := by
  rcases hr.eq_or_lt with rfl | hlt
  · rw [roundHalfAway_mul_self hs, roundHalfAway_mul_self hs]
  have hv : 0 ≤ m * r := mul_nonneg hm (by omega)
  obtain ⟨hlo, hhi⟩ := roundHalfAway_bounds hs hv
  have hscaled : 0 ≤ roundHalfAway (m * r) s * s := mul_nonneg (roundHalfAway_nonneg hs hv) hs.le
  generalize roundHalfAway (m * r) s * s = w at hlo hhi hscaled
  unfold roundHalfAway
  rw [if_pos hscaled]
  -- Half of `s` is less than what half of `r` leaves of `r`.
  refine (Int.ediv_eq_iff_of_pos (by omega)).mpr ⟨?_, ?_⟩
  · omega
  · omega

/-- A rate of at least one never makes an amount smaller. -/
theorem le_roundHalfAway_mul {r s : Int} (hm : 0 ≤ m) (hs : 0 < s) (hr : s ≤ r) :
    m ≤ roundHalfAway (m * r) s := by
  have hmul : m * s ≤ m * r := mul_le_mul_of_nonneg_left hr hm
  calc m = roundHalfAway (m * s) s := (roundHalfAway_mul_self hs).symm
    _ ≤ roundHalfAway (m * r) s := roundHalfAway_mono hs hmul
