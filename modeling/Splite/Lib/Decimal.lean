import Mathlib.Tactic

/-!
# Decimal texts

A decimal number as people write it: a whole part, bare or in groups of three, and after a decimal
separator its fraction.

* `Grouped`: a text whose digits stand in groups, and `Grouped.splitOn`: its separators give the groups
  back.
* `Decimal.Renders`: a text is a rendering of a number of hundredths.
* `Style.Writes.renders`: what a style writes is such a rendering.
* `plainParts_eq_some`: the texts that have no groups, and their parts.
-/

namespace Decimal

/-- The number that a text of digits is. -/
def value (digits : List Char) : Nat := Nat.ofDigitChars 10 digits 0

theorem value_append (a b : List Char) : value (a ++ b) = value a * 10 ^ b.length + value b := by
  unfold value
  rw [Nat.ofDigitChars_append, Nat.ofDigitChars_eq_ofDigitChars_zero, Nat.mul_comm]

@[simp] theorem value_nil : value [] = 0 := Nat.ofDigitChars_nil

theorem value_toDigits (n : Nat) : value (Nat.toDigits 10 n) = n := Nat.ofDigitChars_ten_toDigits

theorem value_singleton (c : Char) : value [c] = c.toNat - 48 := by
  simp [value, Nat.ofDigitChars_cons]

/-- Every character is a digit. -/
def IsDigits (text : List Char) : Prop := ∀ c ∈ text, c.isDigit

instance (text : List Char) : Decidable (IsDigits text) := List.decidableBAll _ text

theorem isDigits_append {a b : List Char} : IsDigits (a ++ b) ↔ IsDigits a ∧ IsDigits b :=
  List.forall_mem_append

theorem IsDigits.not_mem {text : List Char} {c : Char} (h : IsDigits text) (hc : c.isDigit = false) :
    c ∉ text := fun hmem => by
  have := h c hmem
  simp_all

theorem not_isDigits_of_mem {text : List Char} {c : Char} (h : c ∈ text) (hc : c.isDigit = false) :
    ¬IsDigits text := fun hdigits => hdigits.not_mem hc h

theorem IsDigits.flatten {groups : List (List Char)} (h : ∀ g ∈ groups, IsDigits g) :
    IsDigits groups.flatten := by
  intro c hc
  obtain ⟨g, hg, hcg⟩ := List.mem_flatten.mp hc
  exact h g hg c hcg

theorem isDigits_toDigits (n : Nat) : IsDigits (Nat.toDigits 10 n) := fun _ hc =>
  Nat.isDigit_of_mem_toDigits (by decide) (by decide) hc

/-- A digit that is not zero counts. -/
theorem value_pos_iff {text : List Char} (h : IsDigits text) :
    0 < value text ↔ ∃ c ∈ text, c ≠ '0' := by
  induction text with
  | nil => simp
  | cons c cs ih =>
    obtain ⟨hc, hcs⟩ := List.forall_mem_cons.mp h
    have hn : 48 ≤ c.toNat ∧ c.toNat ≤ 57 := by
      simpa [Char.isDigit, UInt32.le_iff_toNat_le] using hc
    have hzero : c = '0' ↔ c.toNat = 48 := by
      rw [← Char.toNat_inj]
      rfl
    rw [show c :: cs = [c] ++ cs from rfl, value_append, value_singleton]
    simp only [List.cons_append, List.nil_append, List.mem_cons, exists_eq_or_imp]
    rw [← ih hcs, ne_eq, hzero, Nat.add_pos_iff_pos_or_pos, Nat.mul_pos_iff_of_pos_right (by positivity)]
    omega

/-! ## Groups of three -/

/-- `whole` in groups under `sep`: the first of one to three digits, the others of three. -/
def Grouped (sep : Char) (digits text : List Char) : Prop :=
  ∃ first rest, (1 ≤ first.length ∧ first.length ≤ 3) ∧ (∀ g ∈ rest, g.length = 3) ∧
    digits = (first :: rest).flatten ∧ text = [sep].intercalate (first :: rest)

variable {sep dec : Char} {digits text whole frac : List Char} {n : Nat}

theorem intercalate_of_isDigits {groups : List (List Char)} (h : IsDigits groups.flatten) {c : Char}
    (hc : c ∈ [sep].intercalate groups) : c.isDigit ∨ c = sep := by
  induction groups with
  | nil => simp at hc
  | cons g gs ih =>
    rw [List.flatten_cons, isDigits_append] at h
    cases gs with
    | nil => exact .inl (h.1 c (by simpa using hc))
    | cons g' gs =>
      rw [List.intercalate_cons_cons, List.mem_append, List.mem_append] at hc
      rcases hc with (hc | hc) | hc
      · exact .inl (h.1 c hc)
      · exact .inr (by simpa using hc)
      · exact ih h.2 hc

/-- The separators of a grouped text give its groups back. -/
theorem splitOn_intercalate {groups : List (List Char)} (hsep : sep.isDigit = false)
    (h : IsDigits groups.flatten) (hne : groups ≠ []) :
    ([sep].intercalate groups).splitOn sep = groups :=
  List.splitOn_intercalate sep
    (fun _ hg hmem => (h.not_mem hsep) (List.mem_flatten.mpr ⟨_, hg, hmem⟩)) hne

/-- Without its separators a grouped text is its digits. -/
theorem filter_intercalate {groups : List (List Char)} (hsep : sep.isDigit = false)
    (h : IsDigits groups.flatten) :
    ([sep].intercalate groups).filter Char.isDigit = groups.flatten := by
  induction groups with
  | nil => rfl
  | cons g gs ih =>
    rw [List.flatten_cons, isDigits_append] at h
    have hg : g.filter Char.isDigit = g := List.filter_eq_self.mpr h.1
    cases gs with
    | nil => simpa [IsDigits] using h.1
    | cons g' gs =>
      rw [List.intercalate_cons_cons, List.filter_append, List.filter_append, ih h.2, hg,
        List.filter_cons_of_neg (by simp [hsep])]
      simp

/-- What is joined ends with the separator and the last group. -/
theorem intercalate_last (sep : Char) (first : List Char) {rest : List (List Char)} (hne : rest ≠ []) :
    ∃ a g, [sep].intercalate (first :: rest) = a ++ sep :: g ∧ g ∈ rest := by
  induction rest generalizing first with
  | nil => exact absurd rfl hne
  | cons g gs ih =>
    rw [List.intercalate_cons_cons]
    by_cases hgs : gs = []
    · exact ⟨first, g, by simp [hgs], List.mem_cons_self⟩
    · obtain ⟨a, g', ha, hg'⟩ := ih g hgs
      exact ⟨first ++ sep :: a, g', by simp [ha], List.mem_cons_of_mem _ hg'⟩

/-! ## Renderings -/

/-- The whole part of a number: its digits, bare or in groups. -/
def Whole (sep : Char) (digits text : List Char) : Prop :=
  IsDigits digits ∧ (digits ≠ [] ∧ text = digits ∨ Grouped sep digits text)

theorem Whole.chars (h : Whole sep digits whole) : ∀ c ∈ whole, c.isDigit ∨ c = sep := by
  obtain ⟨hdigits, ⟨-, rfl⟩ | ⟨first, rest, -, -, rfl, rfl⟩⟩ := h
  · exact fun c hc => .inl (hdigits c hc)
  · exact fun c hc => intercalate_of_isDigits hdigits hc

/-- A whole part starts with a digit. -/
theorem Whole.head (h : Whole sep digits whole) : ∃ c cs, whole = c :: cs ∧ c.isDigit := by
  obtain ⟨hdigits, ⟨hne, rfl⟩ | ⟨first, rest, hfirst, -, rfl, rfl⟩⟩ := h
  · obtain ⟨c, cs, rfl⟩ := List.exists_cons_of_ne_nil hne
    exact ⟨c, cs, rfl, hdigits c List.mem_cons_self⟩
  · obtain ⟨c, cs, rfl⟩ := List.exists_cons_of_length_pos hfirst.1
    have hc : c.isDigit := hdigits c (by simp)
    cases rest with
    | nil => exact ⟨c, cs, by simp, hc⟩
    | cons g gs => exact ⟨c, _, by rw [List.intercalate_cons_cons, List.append_assoc, List.cons_append], hc⟩

/-- A whole part is bare, or it has groups after the first. -/
theorem Whole.cases (h : Whole sep digits whole) :
    whole = digits ∨ ∃ first rest, rest ≠ [] ∧ first.length ≤ 3 ∧ (∀ g ∈ rest, g.length = 3) ∧
      digits = (first :: rest).flatten ∧ whole = [sep].intercalate (first :: rest) := by
  obtain ⟨-, ⟨-, rfl⟩ | ⟨first, rest, hfirst, hrest, rfl, rfl⟩⟩ := h
  · exact .inl rfl
  · by_cases hnil : rest = []
    · subst hnil
      exact .inl (by simp)
    · exact .inr ⟨first, rest, hnil, hfirst.2, hrest, rfl, rfl⟩

theorem Whole.filter_isDigit (hsep : sep.isDigit = false) (h : Whole sep digits whole) : whole.filter Char.isDigit = digits := by
  have hdigits := h.1
  rcases h.cases with rfl | ⟨first, rest, -, -, -, rfl, rfl⟩
  · exact List.filter_eq_self.mpr hdigits
  · exact filter_intercalate hsep hdigits

/-- The hundredths that a fraction of at most two digits is. -/
def hundredths (frac : List Char) : Nat := value (frac ++ List.replicate (2 - frac.length) '0')

theorem value_replicate_zero (k : Nat) : value (List.replicate k '0') = 0 := by
  induction k with
  | zero => simp
  | succ k ih =>
    have hone : value ['0'] = 0 := by decide
    rw [List.replicate_succ, ← List.singleton_append, value_append, ih, hone, Nat.zero_mul]

theorem hundredths_eq : hundredths frac = value frac * 10 ^ (2 - frac.length) := by
  rw [hundredths, value_append, value_replicate_zero, List.length_replicate, Nat.add_zero]

@[simp] theorem hundredths_nil : hundredths [] = 0 := by decide

/-- `text` is a number of hundredths: a whole part, and after `dec` one or two digits. -/
def Renders (sep dec : Char) (n : Nat) (text : List Char) : Prop :=
  ∃ digits whole, Whole sep digits whole ∧
    (text = whole ∧ n = value digits * 100 ∨
      ∃ frac, IsDigits frac ∧ (1 ≤ frac.length ∧ frac.length ≤ 2) ∧
        text = whole ++ dec :: frac ∧ n = value digits * 100 + hundredths frac)

/-- How a country writes amounts. -/
structure Style where
  group : Char
  dec : Char
  deriving DecidableEq, Repr

/-- The two decimals of a number of hundredths. -/
def decimals (n : Nat) : List Char := [(n % 100 / 10).digitChar, (n % 10).digitChar]

/-- The style writes `n` hundredths so: its thousands grouped or not, its decimals left out or not when
they are zero. -/
def Style.Writes (style : Style) (n : Nat) (text : List Char) : Prop :=
  ∃ whole, (whole = Nat.toDigits 10 (n / 100) ∨ Grouped style.group (Nat.toDigits 10 (n / 100)) whole) ∧
    (n % 100 = 0 ∧ text = whole ∨ text = whole ++ style.dec :: decimals n)

theorem isDigits_decimals (n : Nat) : IsDigits (decimals n) := by
  have hone : ∀ d < 10, d.digitChar.isDigit := by decide
  have hn : n % 10 < 10 := Nat.mod_lt _ (by omega)
  simp only [IsDigits, decimals, List.mem_cons, List.not_mem_nil, or_false, forall_eq_or_imp, forall_eq]
  exact ⟨hone _ (by omega), hone _ hn⟩

theorem hundredths_decimals (n : Nat) : hundredths (decimals n) = n % 100 := by
  have hone : ∀ d < 10, d.digitChar.toNat - 48 = d := by decide
  have hn : n % 10 < 10 := Nat.mod_lt _ (by omega)
  have hten : n % 100 / 10 < 10 := by omega
  show value ([(n % 100 / 10).digitChar] ++ [(n % 10).digitChar]) = _
  rw [value_append, value_singleton, value_singleton, hone _ hten, hone _ hn, List.length_singleton]
  omega

theorem Renders.head (h : Renders sep dec n text) : ∃ c cs, text = c :: cs ∧ c.isDigit := by
  obtain ⟨digits, whole, hwhole, ⟨rfl, -⟩ | ⟨frac, -, -, rfl, -⟩⟩ := h
  · exact hwhole.head
  · obtain ⟨c, cs, rfl, hc⟩ := hwhole.head
    exact ⟨c, cs ++ dec :: frac, rfl, hc⟩

theorem Style.Writes.renders {style : Style} (h : style.Writes n text) :
    Renders style.group style.dec n text := by
  obtain ⟨whole, hwhole, htext⟩ := h
  refine ⟨_, whole, ⟨isDigits_toDigits (n / 100), hwhole.imp (⟨Nat.toDigits_ne_nil, ·⟩) id⟩, ?_⟩
  rw [value_toDigits]
  rcases htext with ⟨hzero, rfl⟩ | rfl
  · exact .inl ⟨rfl, by omega⟩
  · refine .inr ⟨decimals n, isDigits_decimals n, by simp [decimals], rfl, ?_⟩
    rw [hundredths_decimals]
    omega

/-- A text is parted at the first `c` in one way. -/
theorem append_cons_inj {c : Char} {b b' : List Char} : ∀ {a a' : List Char}, c ∉ a → c ∉ a' →
    a ++ c :: b = a' ++ c :: b' → a = a' ∧ b = b'
  | [], [], _, _, h => ⟨rfl, (List.cons.inj h).2⟩
  | [], x :: a', _, h', h => absurd (by simp [(List.cons.inj h).1]) h'
  | x :: a, [], h', _, h => absurd (by simp [(List.cons.inj h).1]) h'
  | x :: a, y :: a', ha, ha', h => by
    obtain ⟨rfl, htail⟩ := List.cons.inj h
    obtain ⟨rfl, rfl⟩ := append_cons_inj (fun hc => ha (List.mem_cons_of_mem _ hc))
      (fun hc => ha' (List.mem_cons_of_mem _ hc)) htail
    exact ⟨rfl, rfl⟩

/-! ## Plain numbers -/

/-- Digits, and perhaps a dot with one or two more. -/
def Plain (text whole frac : List Char) : Prop :=
  (whole ≠ [] ∧ IsDigits whole ∧ IsDigits frac) ∧
    (text = whole ∧ frac = [] ∨ text = whole ++ '.' :: frac ∧ 1 ≤ frac.length ∧ frac.length ≤ 2)

/-- What `/^\d+(\.\d{1,2})?$/` matches, split at the dot. -/
def plainParts (text : List Char) : Option (List Char × List Char) :=
  match text.splitOn '.' with
  | [whole] => if whole ≠ [] ∧ IsDigits whole then some (whole, []) else none
  | [whole, frac] =>
    if whole ≠ [] ∧ IsDigits whole ∧ IsDigits frac ∧ 1 ≤ frac.length ∧ frac.length ≤ 2 then
      some (whole, frac)
    else none
  | _ => none

theorem plainParts_eq_some : plainParts text = some (whole, frac) ↔ Plain text whole frac := by
  constructor
  · intro h
    have htext : ['.'].intercalate (text.splitOn '.') = text := List.intercalate_splitOn '.'
    unfold plainParts at h
    split at h
    · rename_i w hsplit
      rw [hsplit] at htext
      split_ifs at h with hw
      cases h
      exact ⟨⟨hw.1, hw.2, by simp [IsDigits]⟩, .inl ⟨by simpa using htext.symm, rfl⟩⟩
    · rename_i w f hsplit
      rw [hsplit] at htext
      split_ifs at h with hw
      cases h
      refine ⟨⟨hw.1, hw.2.1, hw.2.2.1⟩, .inr ⟨?_, hw.2.2.2⟩⟩
      simpa [List.intercalate_cons_cons] using htext.symm
    · cases h
  · rintro ⟨⟨hne, hwhole, hfrac⟩, ⟨rfl, rfl⟩ | ⟨rfl, hlen⟩⟩
    · have hsplit := @splitOn_intercalate '.' [text] rfl (by simpa using hwhole) (by simp)
      rw [List.intercalate_singleton] at hsplit
      unfold plainParts
      rw [hsplit]
      exact if_pos ⟨hne, hwhole⟩
    · have hsplit := @splitOn_intercalate '.' [whole, frac] rfl
        (by simpa [isDigits_append] using ⟨hwhole, hfrac⟩) (by simp)
      have htext : ['.'].intercalate [whole, frac] = whole ++ '.' :: frac := by
        simp [List.intercalate_cons_cons]
      rw [htext] at hsplit
      unfold plainParts
      rw [hsplit]
      exact if_pos ⟨hne, hwhole, hfrac, hlen⟩

/-- `text.replace(c, d)`: the first one. -/
def replaceFirst (c d : Char) : List Char → List Char
  | [] => []
  | x :: xs => if x = c then d :: xs else x :: replaceFirst c d xs

theorem replaceFirst_append {c d : Char} {a b : List Char} (h : c ∉ a) :
    replaceFirst c d (a ++ c :: b) = a ++ d :: b := by
  induction a with
  | nil => simp [replaceFirst]
  | cons x a ih =>
    obtain ⟨hx, ha⟩ : ¬c = x ∧ c ∉ a := by simpa using h
    rw [List.cons_append, replaceFirst, if_neg (Ne.symm hx), ih ha, List.cons_append]

theorem replaceFirst_self {c : Char} {text : List Char} : replaceFirst c c text = text := by
  induction text with
  | nil => rfl
  | cons x text ih =>
    rw [replaceFirst, ih]
    split
    · rename_i hx
      rw [hx]
    · rfl

/-- A text in groups has a separator less than groups. -/
theorem count_intercalate {first : List Char} {rest : List (List Char)} (hsep : sep.isDigit = false)
    (h : IsDigits (first :: rest).flatten) : ([sep].intercalate (first :: rest)).count sep = rest.length := by
  induction rest generalizing first with
  | nil => simpa using List.count_eq_zero.mpr ((isDigits_append.mp h).1.not_mem hsep)
  | cons g rest ih =>
    obtain ⟨hfirst, hrest⟩ := isDigits_append.mp h
    rw [List.intercalate_cons_cons, List.count_append, List.count_append, ih hrest,
      List.count_eq_zero.mpr (hfirst.not_mem hsep), List.count_singleton_self, List.length_cons]
    omega

end Decimal
