import Mathlib.Tactic
import Mathlib.Data.Nat.Prime.Basic
import Mathlib.Data.Int.GCD

/-!
# Weighted sums of symbols

A number whose symbols are weighed and summed up modulo a prime shows one symbol that is wrong, and two
neighbours that are exchanged.

* `weighted_append`, `weighted_cons`: how the sum composes.
* `weighted_wrong`, `weighted_exchanged`: what the two slips add to it.
* `not_dvd_of_small`: what they add is not a multiple of the modulus.
-/

namespace CheckDigit

/-- `∑ wᵢ * dᵢ`, as far as both lists go. -/
def weighted (weights digits : List Int) : Int := (List.zipWith (· * ·) weights digits).sum

@[simp] theorem weighted_nil (weights : List Int) : weighted weights [] = 0 := by
  simp [weighted]

@[simp] theorem weighted_cons (w d : Int) (weights digits : List Int) :
    weighted (w :: weights) (d :: digits) = w * d + weighted weights digits := by
  simp [weighted]

theorem weighted_append {weights weights' digits digits' : List Int}
    (h : weights.length = digits.length) :
    weighted (weights ++ weights') (digits ++ digits') =
      weighted weights digits + weighted weights' digits' := by
  unfold weighted
  rw [List.zipWith_append h, List.sum_append]

/-- One symbol is another one. -/
theorem weighted_wrong {weights weights' digits digits' : List Int} {w d d' : Int}
    (h : weights.length = digits.length) :
    weighted (weights ++ w :: weights') (digits ++ d' :: digits') -
      weighted (weights ++ w :: weights') (digits ++ d :: digits') = w * (d' - d) := by
  rw [weighted_append h, weighted_append h, weighted_cons, weighted_cons]
  ring

/-- Two neighbours are exchanged. -/
theorem weighted_exchanged {weights weights' digits digits' : List Int} {w w' d d' : Int}
    (h : weights.length = digits.length) :
    weighted (weights ++ w :: w' :: weights') (digits ++ d' :: d :: digits') -
      weighted (weights ++ w :: w' :: weights') (digits ++ d :: d' :: digits') = (w - w') * (d' - d) := by
  rw [weighted_append h, weighted_append h, weighted_cons, weighted_cons, weighted_cons, weighted_cons]
  ring

/-- A product of two numbers that are not zero and smaller than a prime is no multiple of it. -/
theorem not_dvd_of_small {p : Nat} (hp : p.Prime) {w d : Int} (hw : w ≠ 0) (hwp : |w| < p) (hd : d ≠ 0)
    (hdp : |d| < p) : ¬(p : Int) ∣ w * d := by
  intro h
  rcases Int.Prime.dvd_mul' hp h with h | h
  · exact hw (Int.eq_zero_of_abs_lt_dvd h hwp)
  · exact hd (Int.eq_zero_of_abs_lt_dvd h hdp)

end CheckDigit
