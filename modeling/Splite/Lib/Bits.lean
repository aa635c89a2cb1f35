import Mathlib.Tactic

/-!
# Bits, the highest first

`lowest n k` lists the lowest `k` bits of a number, the highest of them first. A code that regroups the bits
of its input keeps such a list.

* `lowest_push`: a symbol that is shifted in follows the bits that are there, while they fit the word.
* `lowest_pull`: a symbol that is shifted out is the bits above those that stay.
* `flatMap_inj_of_rest`: symbols of one length are told from the bits, whatever incomplete symbol is behind.
-/

namespace Bits

/-- The lowest `k` bits of a number, the highest of them first. -/
def lowest (n : Nat) : Nat → List Bool
  | 0 => []
  | k + 1 => n.testBit k :: lowest n k

variable {n n' m k s s' w : Nat}

@[simp] theorem length_lowest : (lowest n k).length = k := by
  induction k with
  | zero => rfl
  | succ k ih => rw [lowest, List.length_cons, ih]

theorem lowest_eq_iff : lowest n k = lowest n' k ↔ ∀ i < k, n.testBit i = n'.testBit i := by
  induction k with
  | zero => simp [lowest]
  | succ k ih =>
    rw [lowest, lowest, List.cons.injEq, ih]
    constructor
    · rintro ⟨htop, hrest⟩ i hi
      rcases Nat.lt_succ_iff_lt_or_eq.mp hi with hi | rfl
      · exact hrest i hi
      · exact htop
    · intro h
      exact ⟨h k (by omega), fun i hi => h i (by omega)⟩

/-- The bits above the lowest `k`, and these. -/
theorem lowest_add : lowest n (m + k) = lowest (n >>> k) m ++ lowest n k := by
  induction m with
  | zero => simp [lowest]
  | succ m ih =>
    rw [Nat.add_right_comm, lowest, lowest, ih, List.cons_append, Nat.testBit_shiftRight, Nat.add_comm m k]

theorem lowest_zero : lowest 0 k = List.replicate k false := by
  induction k with
  | zero => rfl
  | succ k ih => rw [lowest, ih, Nat.zero_testBit, List.replicate_succ]

/-- Numbers that fit `m` bits are told from these. -/
theorem lowest_inj (hs : s < 2 ^ m) (hs' : s' < 2 ^ m) (h : lowest s m = lowest s' m) : s = s' := by
  refine Nat.eq_of_testBit_eq fun i => ?_
  by_cases hi : i < m
  · exact lowest_eq_iff.mp h i hi
  · have hpow : 2 ^ m ≤ 2 ^ i := Nat.pow_le_pow_right (by decide) (by omega)
    rw [Nat.testBit_lt_two_pow (by omega), Nat.testBit_lt_two_pow (by omega)]

/-! ## Words -/

section Words

variable {v : BitVec w}

theorem testBit_toNat {i : Nat} : v.toNat.testBit i = v.getLsbD i := rfl

/-- What is shifted in goes behind the `k` bits that are there, when the word has room for both. -/
theorem lowest_push (hroom : k + m ≤ w) (hs : s < 2 ^ m) :
    lowest ((v <<< m) ||| BitVec.ofNat w s).toNat (k + m) = lowest v.toNat k ++ lowest s m := by
  rw [lowest_add]
  congr 1
  · refine lowest_eq_iff.mpr fun i hi => ?_
    have hpow : 2 ^ m ≤ 2 ^ (m + i) := Nat.pow_le_pow_right (by decide) (by omega)
    rw [Nat.testBit_shiftRight, testBit_toNat, testBit_toNat, BitVec.getLsbD_or, BitVec.getLsbD_ofNat,
      Nat.testBit_lt_two_pow (by omega), BitVec.getLsbD_shiftLeft]
    simp [show m + i < w by omega]
  · refine lowest_eq_iff.mpr fun i hi => ?_
    rw [testBit_toNat, BitVec.getLsbD_or, BitVec.getLsbD_ofNat, BitVec.getLsbD_shiftLeft]
    simp [hi, show i < w by omega]

/-- What is shifted out and masked is the `m` bits above the lowest `k`. -/
theorem lowest_pull (hroom : m ≤ w) :
    lowest ((v >>> k) &&& BitVec.ofNat w (2 ^ m - 1)).toNat m = lowest (v.toNat >>> k) m := by
  refine lowest_eq_iff.mpr fun i hi => ?_
  rw [testBit_toNat, BitVec.getLsbD_and, BitVec.getLsbD_ofNat, Nat.testBit_two_pow_sub_one,
    BitVec.getLsbD_ushiftRight, Nat.testBit_shiftRight, testBit_toNat]
  simp [hi, show i < w by omega]

theorem mask_lt (hroom : m ≤ w) : (v &&& BitVec.ofNat w (2 ^ m - 1)).toNat < 2 ^ m := by
  have hpow : 2 ^ m ≤ 2 ^ w := Nat.pow_le_pow_right (by decide) hroom
  have hpos : 0 < 2 ^ m := Nat.pow_pos (by decide)
  rw [BitVec.toNat_and, BitVec.toNat_ofNat, Nat.mod_eq_of_lt (by omega)]
  exact lt_of_le_of_lt Nat.and_le_right (by omega)

end Words

/-! ## Symbols of one length -/

/-- Two texts of symbols of length `m` with less than a symbol behind them are the same when their bits
are. -/
theorem flatMap_inj_of_rest {α β : Type} {f : α → List β} (hlen : ∀ a, (f a).length = m)
    (hinj : Function.Injective f) {rest rest' : List β} (hrest : rest.length < m)
    (hrest' : rest'.length < m) :
    ∀ {xs ys : List α}, xs.flatMap f ++ rest = ys.flatMap f ++ rest' → xs = ys
  | [], [], _ => rfl
  | [], y :: ys, h => by
    have := congrArg List.length h
    simp [hlen] at this
    omega
  | x :: xs, [], h => by
    have := congrArg List.length h
    simp [hlen] at this
    omega
  | x :: xs, y :: ys, h => by
    rw [List.flatMap_cons, List.flatMap_cons, List.append_assoc, List.append_assoc] at h
    obtain ⟨hhead, htail⟩ := List.append_inj h (by rw [hlen, hlen])
    rw [hinj hhead, flatMap_inj_of_rest hlen hinj hrest hrest' htail]

end Bits
