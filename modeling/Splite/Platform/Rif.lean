import Splite.Lib.CheckDigit
import Mathlib.Data.List.GetD

/-!
# The tax number of a restaurant (`utils/rif.js`)

* `checksum_of_valid`: what the check digit says, as one sum modulo 11 over all ten characters.
* `slip_detected`: a wrong character, or two neighbours that are exchanged, go unnoticed only between a
  number whose check digit stands for 10 and one whose check digit does not.
* `format_round_trip`: what is shown is read back as what is stored.
-/

namespace Splite.Rif

open CheckDigit

/-! ## The source -/

/-- `toUpperCase()` of one character, as far as letters of ASCII come out of it. -/
def upperCase (c : Char) : List Char :=
  match c with
  | 'ß' => ['S', 'S']
  | 'ı' => ['I']
  | 'ſ' => ['S']
  | 'ŉ' => ['ʼ', 'N']
  | 'ǰ' => ['J', '\u030c']
  | 'ẖ' => ['H', '\u0331']
  | 'ẗ' => ['T', '\u0308']
  | 'ẘ' => ['W', '\u030a']
  | 'ẙ' => ['Y', '\u030a']
  | 'ẚ' => ['A', 'ʾ']
  | 'ﬀ' => ['F', 'F']
  | 'ﬁ' => ['F', 'I']
  | 'ﬂ' => ['F', 'L']
  | 'ﬃ' => ['F', 'F', 'I']
  | 'ﬄ' => ['F', 'F', 'L']
  | 'ﬅ' => ['S', 'T']
  | 'ﬆ' => ['S', 'T']
  | c => [c.toUpper]

/-- `[A-Z0-9]`. -/
def isKept (c : Char) : Bool := ('A' ≤ c && c ≤ 'Z') || ('0' ≤ c && c ≤ '9')

/-- `normaliseRif(input)`. -/
def normaliseRif (input : Option String) : List Char :=
  ((input.getD "").toList.flatMap upperCase).filter isKept

/-- `TYPE_VALUES`. -/
def TYPE_VALUES : List (Char × Int) := [('V', 1), ('E', 2), ('J', 3), ('P', 4), ('G', 5)]

def TYPE_MULTIPLIER : Int := 4

/-- `DIGIT_WEIGHTS`. -/
def DIGIT_WEIGHTS : List Int := [3, 2, 7, 6, 5, 4, 3, 2]

/-- `\d`. -/
def isDigit (c : Char) : Bool := '0' ≤ c && c ≤ '9'

/-- `Number(…)` of a digit. -/
def number (c : Char) : Int := (c.toNat : Int) - 48

/-- The type, the body and the check digit that `NORMALISED` matches. -/
def parts (normalised : List Char) : Option (Int × List Char × Char) :=
  match normalised with
  | [letter, d₀, d₁, d₂, d₃, d₄, d₅, d₆, d₇, check] =>
    if [d₀, d₁, d₂, d₃, d₄, d₅, d₆, d₇, check].all isDigit then
      (TYPE_VALUES.lookup letter).map fun value => (value, [d₀, d₁, d₂, d₃, d₄, d₅, d₆, d₇], check)
    else none
  | _ => none

/-- `hasRifShape(normalised)`. -/
def hasRifShape (normalised : List Char) : Bool := (parts normalised).isSome

/-- The sum that `rifCheckDigit` accumulates. -/
def total (value : Int) (body : List Char) : Int :=
  (body.zip DIGIT_WEIGHTS).foldl (fun sum d => sum + number d.1 * d.2) (value * TYPE_MULTIPLIER)

def candidate (value : Int) (body : List Char) : Int := 11 - total value body % 11

/-- `rifCheckDigit(normalised)`. -/
def rifCheckDigit (normalised : List Char) : Option Int :=
  (parts normalised).map fun (value, body, _) =>
    if candidate value body > 9 then 0 else candidate value body

/-- `isValidRif(input)`, once the input is normalised. -/
def valid (normalised : List Char) : Bool :=
  match parts normalised, rifCheckDigit normalised with
  | some (_, _, check), some expected => number check = expected
  | _, _ => false

/-- `isValidRif(input)`. -/
def isValidRif (input : Option String) : Bool := valid (normaliseRif input)

/-- `formatRif(input)`. -/
def formatRif (input : Option String) : String :=
  let normalised := normaliseRif input
  if hasRifShape normalised then
    String.ofList (normalised.take 1 ++ ['-'] ++ (normalised.drop 1).take 8 ++ ['-'] ++ normalised.drop 9)
  else String.ofList normalised

/-! ## One sum -/

/-- What a character counts in the sum: the value of the type, or the digit. -/
def symbol (c : Char) : Int := ((TYPE_VALUES.lookup c).getD (number c))

/-- The weights of all ten characters. -/
def WEIGHTS : List Int := TYPE_MULTIPLIER :: DIGIT_WEIGHTS ++ [1]

/-- The sum over all ten characters. -/
def checksum (normalised : List Char) : Int := weighted WEIGHTS (normalised.map symbol)

/-- The check digit is a 0 that stands for 10. -/
def Collapsed (normalised : List Char) : Prop := ∃ p ∈ parts normalised, candidate p.1 p.2.1 = 10

theorem symbol_of_digit {c : Char} (h : isDigit c = true) : symbol c = number c := by
  have hnone : TYPE_VALUES.lookup c = none := by
    simp only [isDigit, Bool.and_eq_true, decide_eq_true_eq] at h
    have h' : c.toNat ≤ 57 := h.2
    have hne : ∀ t : Char, 57 < t.toNat → (c == t) = false := by
      intro t ht
      rw [beq_eq_false_iff_ne]
      rintro rfl
      omega
    simp [TYPE_VALUES, List.lookup_cons, hne 'V' (by decide), hne 'E' (by decide), hne 'J' (by decide),
      hne 'P' (by decide), hne 'G' (by decide)]
  simp [symbol, hnone]

theorem number_bounds {c : Char} (h : isDigit c = true) : 0 ≤ number c ∧ number c ≤ 9 := by
  simp only [isDigit, Bool.and_eq_true, decide_eq_true_eq] at h
  have h₀ : 48 ≤ c.toNat := h.1
  have h₉ : c.toNat ≤ 57 := h.2
  unfold number
  omega

/-- The parts of a number that has the shape. -/
theorem parts_eq_some {s : List Char} {value : Int} {body : List Char} {check : Char}
    (h : parts s = some (value, body, check)) :
    ∃ letter, s = letter :: body ++ [check] ∧ TYPE_VALUES.lookup letter = some value ∧ body.length = 8 ∧
      (∀ d ∈ body, isDigit d = true) ∧ isDigit check = true := by
  unfold parts at h
  split at h
  · rename_i letter d₀ d₁ d₂ d₃ d₄ d₅ d₆ d₇ check'
    split at h
    · rename_i hdigits
      obtain ⟨v, hv, heq⟩ := Option.map_eq_some_iff.mp h
      cases heq
      simp only [List.all_cons, List.all_nil, Bool.and_true, Bool.and_eq_true] at hdigits
      refine ⟨letter, rfl, hv, rfl, ?_, by simp [hdigits]⟩
      simp [hdigits]
    · cases h
  · cases h

/-- The loop adds up what the weights do. -/
theorem total_eq (value : Int) {body : List Char} (hdigits : ∀ d ∈ body, isDigit d = true) :
    total value body = value * TYPE_MULTIPLIER + weighted DIGIT_WEIGHTS (body.map symbol) := by
  have hfold : ∀ (weights : List Int) (body : List Char) (start : Int), (∀ d ∈ body, isDigit d = true) →
      (body.zip weights).foldl (fun sum d => sum + number d.1 * d.2) start =
        start + weighted weights (body.map symbol) := by
    intro weights
    induction weights with
    | nil => simp [weighted]
    | cons w weights ih =>
      intro body start hdigits
      cases body with
      | nil => simp
      | cons d body =>
        rw [List.zip_cons_cons, List.foldl_cons, ih body _ fun e he => hdigits e (List.mem_cons_of_mem _ he),
          List.map_cons, weighted_cons, symbol_of_digit (hdigits d List.mem_cons_self)]
        ring
  exact hfold DIGIT_WEIGHTS body _ hdigits

/-- The sum over all characters of a valid number is a multiple of 11, or one more where its check digit
stands for 10. -/
theorem checksum_of_valid {s : List Char} (h : valid s = true) :
    Collapsed s ∧ 11 ∣ checksum s - 1 ∨ ¬Collapsed s ∧ 11 ∣ checksum s := by
  unfold valid rifCheckDigit at h
  cases hparts : parts s with
  | none => simp [hparts] at h
  | some p =>
    obtain ⟨value, body, check⟩ := p
    have hcollapsed : Collapsed s ↔ candidate value body = 10 := by simp [Collapsed, hparts]
    simp only [hparts, Option.map_some, decide_eq_true_eq] at h
    obtain ⟨letter, rfl, hvalue, hlength, hdigits, hcheck⟩ := parts_eq_some hparts
    have hsum : checksum (letter :: body ++ [check]) = total value body + number check := by
      have hweights : DIGIT_WEIGHTS.length = (body.map symbol).length := by
        rw [List.length_map, hlength]
        rfl
      have hletter : symbol letter = value := by simp [symbol, hvalue]
      unfold checksum WEIGHTS
      rw [List.cons_append, List.cons_append, List.map_cons, weighted_cons, List.map_append,
        weighted_append hweights, total_eq value hdigits, hletter]
      simp [symbol_of_digit hcheck]
      ring
    have hcandidate : candidate value body = 11 - total value body % 11 := rfl
    rw [hcollapsed, hsum]
    split at h <;> omega

/-! ## Slips -/

/-- One character is another one, or two neighbours are exchanged. -/
inductive Slip : List Char → List Char → Prop where
  | wrong (l r : List Char) {c c' : Char} (h : c ≠ c') : Slip (l ++ c :: r) (l ++ c' :: r)
  | exchanged (l r : List Char) {c c' : Char} (h : c ≠ c') : Slip (l ++ c :: c' :: r) (l ++ c' :: c :: r)

/-- Where the weights are cut by a character of the number. -/
theorem weights_cut {n : Nat} (hn : n < 10) :
    ∃ weights w weights', WEIGHTS = weights ++ w :: weights' ∧ weights.length = n ∧ w ≠ 0 ∧ |w| < 11 := by
  have hlt : n < WEIGHTS.length := hn
  refine ⟨WEIGHTS.take n, WEIGHTS[n], WEIGHTS.drop (n + 1), ?_, ?_, ?_⟩
  · rw [← List.drop_eq_getElem_cons hlt, List.take_append_drop]
  · rw [List.length_take]
    omega
  · revert n
    decide

theorem weights_differ : ∀ n < 9, WEIGHTS.getD n 0 - WEIGHTS.getD (n + 1) 0 ≠ 0 ∧
    |WEIGHTS.getD n 0 - WEIGHTS.getD (n + 1) 0| < 11 := by
  decide

/-- Where they are cut by two neighbours. -/
theorem weights_cut_twice {n : Nat} (hn : n + 1 < 10) :
    ∃ weights w w' weights', WEIGHTS = weights ++ w :: w' :: weights' ∧ weights.length = n ∧
      w - w' ≠ 0 ∧ |w - w'| < 11 := by
  have hlt : n + 1 < WEIGHTS.length := hn
  have hlt' : n < WEIGHTS.length := by omega
  refine ⟨WEIGHTS.take n, WEIGHTS.getD n 0, WEIGHTS.getD (n + 1) 0, WEIGHTS.drop (n + 2), ?_, ?_,
    weights_differ n (by omega)⟩
  · rw [List.getD_eq_getElem WEIGHTS 0 hlt, List.getD_eq_getElem WEIGHTS 0 hlt',
      ← List.drop_eq_getElem_cons hlt, ← List.drop_eq_getElem_cons hlt', List.take_append_drop]
  · rw [List.length_take]
    omega

/-- The first character of a number is its type, and the others are digits. -/
theorem char_of_shape {l r : List Char} {c : Char} (h : hasRifShape (l ++ c :: r) = true) :
    (l ++ c :: r).length = 10 ∧ (l = [] → ∃ value, (c, value) ∈ TYPE_VALUES ∧ symbol c = value) ∧
      (l ≠ [] → isDigit c = true) := by
  obtain ⟨⟨value, body, check⟩, hparts⟩ := Option.isSome_iff_exists.mp h
  obtain ⟨letter, heq, hvalue, hlength, hdigits, hcheck⟩ := parts_eq_some hparts
  refine ⟨by simp [heq, hlength], fun hnil => ?_, fun hne => ?_⟩
  · subst hnil
    obtain ⟨rfl, -⟩ := List.cons.inj heq
    obtain ⟨l₁, l₂, hsplit, -⟩ := List.lookup_eq_some_iff.mp hvalue
    refine ⟨value, ?_, by simp [symbol, hvalue]⟩
    rw [hsplit]
    simp
  · cases l with
    | nil => exact absurd rfl hne
    | cons a l =>
      obtain ⟨-, hrest⟩ := List.cons.inj heq
      have hmem : c ∈ body ++ [check] := by
        rw [show body ++ [check] = l ++ c :: r from hrest.symm]
        simp
      rcases List.mem_append.mp hmem with hmem | hmem
      · exact hdigits c hmem
      · rw [List.mem_singleton.mp hmem]
        exact hcheck

/-- Different characters of one kind count differently, and not by much. -/
theorem symbol_ne {c c' : Char} (hne : c ≠ c')
    (h : (∃ v v', (c, v) ∈ TYPE_VALUES ∧ (c', v') ∈ TYPE_VALUES ∧ symbol c = v ∧ symbol c' = v') ∨
      isDigit c = true ∧ isDigit c' = true) :
    symbol c' - symbol c ≠ 0 ∧ |symbol c' - symbol c| < 11 := by
  rcases h with ⟨v, v', hv, hv', hc, hc'⟩ | ⟨hc, hc'⟩
  · rw [hc, hc']
    have hall : ∀ p ∈ TYPE_VALUES, ∀ p' ∈ TYPE_VALUES, p.1 ≠ p'.1 →
        p'.2 - p.2 ≠ 0 ∧ |p'.2 - p.2| < 11 := by decide
    exact hall _ hv _ hv' hne
  · rw [symbol_of_digit hc, symbol_of_digit hc']
    have h₁ := number_bounds hc
    have h₂ := number_bounds hc'
    refine ⟨fun hzero => hne ?_, abs_lt.mpr (by omega)⟩
    unfold number at hzero
    apply Char.toNat_inj.mp
    omega

/-- A slip changes the sum by no multiple of 11. -/
theorem slip_moves {s s' : List Char} (h : Slip s s') (hs : hasRifShape s = true)
    (hs' : hasRifShape s' = true) : ¬(11 : Int) ∣ checksum s' - checksum s := by
  have hprime : Nat.Prime 11 := by norm_num
  cases h with
  | wrong l r hne =>
    rename_i c c'
    obtain ⟨hlength, hletter, hdigit⟩ := char_of_shape hs
    obtain ⟨-, hletter', hdigit'⟩ := char_of_shape hs'
    have hn : l.length < 10 := by simp at hlength; omega
    obtain ⟨weights, w, weights', hcut, hw, hzero, hsmall⟩ := weights_cut hn
    have hkind : (∃ v v', (c, v) ∈ TYPE_VALUES ∧ (c', v') ∈ TYPE_VALUES ∧ symbol c = v ∧ symbol c' = v') ∨
        isDigit c = true ∧ isDigit c' = true := by
      by_cases hl : l = []
      · obtain ⟨v, hv, hc⟩ := hletter hl
        obtain ⟨v', hv', hc'⟩ := hletter' hl
        exact .inl ⟨v, v', hv, hv', hc, hc'⟩
      · exact .inr ⟨hdigit hl, hdigit' hl⟩
    obtain ⟨hdiff, hdiff'⟩ := symbol_ne hne hkind
    have hlen : weights.length = (l.map symbol).length := by simp [hw]
    unfold checksum
    rw [hcut, List.map_append, List.map_append, List.map_cons, List.map_cons, weighted_wrong hlen]
    exact not_dvd_of_small hprime hzero hsmall hdiff hdiff'
  | exchanged l r hne =>
    rename_i c c'
    obtain ⟨hlength, hletter, hdigit⟩ := char_of_shape hs
    obtain ⟨-, hletter', hdigit'⟩ := char_of_shape hs'
    have hsecond := (char_of_shape (l := l ++ [c]) (r := r) (c := c') (by simpa using hs)).2.2 (by simp)
    have hl : l ≠ [] := by
      intro hnil
      -- the type would be a digit
      obtain ⟨v', hv', -⟩ := hletter' hnil
      have hnot : ∀ p ∈ TYPE_VALUES, isDigit p.1 = false := by decide
      rw [hnot _ hv'] at hsecond
      cases hsecond
    have hn : l.length + 1 < 10 := by simp at hlength; omega
    obtain ⟨weights, w, w', weights', hcut, hw, hzero, hsmall⟩ := weights_cut_twice hn
    obtain ⟨hdiff, hdiff'⟩ := symbol_ne hne (.inr ⟨hdigit hl, hdigit' hl⟩)
    have hlen : weights.length = (l.map symbol).length := by simp [hw]
    unfold checksum
    rw [hcut, List.map_append, List.map_append, List.map_cons, List.map_cons, List.map_cons, List.map_cons,
      weighted_exchanged hlen]
    exact not_dvd_of_small hprime hzero hsmall hdiff hdiff'

theorem shape_of_valid {s : List Char} (h : valid s = true) : hasRifShape s = true := by
  unfold valid at h
  unfold hasRifShape
  cases hparts : parts s with
  | none => simp [hparts] at h
  | some p => rfl

/-- Where a slip turns a valid number into a valid one, the check digit of exactly one of them stands for
10. -/
theorem slip_detected {s s' : List Char} (h : Slip s s') (hs : valid s = true) (hs' : valid s' = true) :
    Collapsed s ↔ ¬Collapsed s' := by
  have hmoves := slip_moves h (shape_of_valid hs) (shape_of_valid hs')
  rcases checksum_of_valid hs with ⟨hc, hsum⟩ | ⟨hc, hsum⟩ <;>
    rcases checksum_of_valid hs' with ⟨hc', hsum'⟩ | ⟨hc', hsum'⟩
  · exact absurd (by omega) hmoves
  · exact iff_of_true hc hc'
  · exact iff_of_false hc (not_not.mpr hc')
  · exact absurd (by omega) hmoves

/-- No restaurant has the number of zeros, one digit of which may be a 5. -/
theorem zeros_slip : Collapsed "J000000000".toList ↔ ¬Collapsed "J050000000".toList :=
  have hslip : Slip "J000000000".toList "J050000000".toList :=
    .wrong ['J', '0'] "0000000".toList (show '0' ≠ '5' by decide)
  slip_detected hslip (by decide) (by decide)

example : isValidRif (some "j-12345678-4") = true ∧ isValidRif (some "J-12345678-9") = false := by decide

/-! ## Spellings -/

/-- A character that is kept is in upper case. -/
theorem upperCase_of_kept {c : Char} (h : isKept c = true) : upperCase c = [c] := by
  have hall : ∀ n : Fin 128, isKept (Char.ofNat n) = true → upperCase (Char.ofNat n) = [Char.ofNat n] := by
    decide
  have hsmall : c.toNat < 128 := by
    simp only [isKept, Bool.or_eq_true, Bool.and_eq_true, decide_eq_true_eq] at h
    have hle : c.toNat ≤ 90 := by
      rcases h with ⟨-, h⟩ | ⟨-, h⟩
      · exact h
      · exact le_trans (b := 57) h (by decide)
    omega
  have hc := hall ⟨c.toNat, hsmall⟩
  simp only [Char.ofNat_toNat] at hc
  exact hc h

theorem kept_of_normalised {input : Option String} : ∀ c ∈ normaliseRif input, isKept c = true :=
  fun _ hc => (List.mem_filter.mp hc).2

/-- Characters that are kept, with others between them that are not. -/
theorem normaliseRif_of_kept {l : List Char} (h : ∀ c ∈ l, isKept c = true ∨ c = '-') :
    normaliseRif (some (String.ofList l)) = l.filter (· ≠ '-') := by
  have hlist : (String.ofList l).toList = l := String.toList_ofList
  unfold normaliseRif
  rw [Option.getD_some, hlist]
  clear hlist
  induction l with
  | nil => rfl
  | cons c l ih =>
    have ih := ih fun d hd => h d (List.mem_cons_of_mem _ hd)
    rw [List.flatMap_cons, List.filter_append, ih]
    rcases h c List.mem_cons_self with hc | rfl
    · have hne : c ≠ '-' := by
        rintro rfl
        exact absurd hc (by decide)
      simp [upperCase_of_kept hc, hc, hne]
    · rfl

theorem ne_dash_of_kept {c : Char} (h : isKept c = true) : c ≠ '-' := by
  rintro rfl
  exact absurd h (by decide)

/-- What is shown is read back as what is stored: two spellings are stored alike exactly when they are shown
alike, and as valid as each other. -/
theorem format_round_trip (input : Option String) :
    normaliseRif (some (formatRif input)) = normaliseRif input ∧
      isValidRif (some (formatRif input)) = isValidRif input ∧
      ∀ other, normaliseRif other = normaliseRif input ↔ formatRif other = formatRif input := by
  have hread : ∀ input, normaliseRif (some (formatRif input)) = normaliseRif input := by
    intro input
    have hkept : ∀ c ∈ normaliseRif input, isKept c = true := kept_of_normalised
    unfold formatRif
    dsimp only
    generalize normaliseRif input = normalised at hkept ⊢
    split
    · have hcut : normalised.take 1 ++ ((normalised.drop 1).take 8 ++ normalised.drop 9) = normalised := by
        rw [show normalised.drop 9 = (normalised.drop 1).drop 8 by rw [List.drop_drop], List.take_append_drop,
          List.take_append_drop]
      have hsame : ∀ l : List Char, (∀ c ∈ l, isKept c = true) → l.filter (· ≠ '-') = l := fun l hl =>
        List.filter_eq_self.mpr fun c hc => by simpa using ne_dash_of_kept (hl c hc)
      rw [normaliseRif_of_kept]
      · simp only [List.filter_append]
        rw [hsame _ fun c hc => hkept c (List.mem_of_mem_take hc),
          hsame _ fun c hc => hkept c (List.mem_of_mem_drop (List.mem_of_mem_take hc)),
          hsame _ fun c hc => hkept c (List.mem_of_mem_drop hc)]
        simpa using hcut
      · intro c hc
        simp only [List.mem_append, List.mem_singleton] at hc
        rcases hc with (((hc | hc) | hc) | hc) | hc
        · exact .inl (hkept c (List.mem_of_mem_take hc))
        · exact .inr hc
        · exact .inl (hkept c (List.mem_of_mem_drop (List.mem_of_mem_take hc)))
        · exact .inr hc
        · exact .inl (hkept c (List.mem_of_mem_drop hc))
    · rw [normaliseRif_of_kept fun c hc => .inl (hkept c hc)]
      exact List.filter_eq_self.mpr fun c hc => by simpa using ne_dash_of_kept (hkept c hc)
  refine ⟨hread input, congrArg valid (hread input), fun other => ⟨fun h => ?_, fun h => ?_⟩⟩
  · unfold formatRif
    rw [h]
  · rw [← hread other, ← hread input, h]

end Splite.Rif
