import Mathlib.Data.Bool.AllAny
import Splite.Bank.Amounts

/-!
# The price of a scanned menu (`services/menuPrice.js`)

What is not a digit or a separator is dropped before the number is read, once the currency marks are.

* `parseMenuPrice_eq_some`: the texts that are `Taken` for a price, and for which.
* `neverGuesses_iff`: what is taken for a price is what its number is, unless the text is `Misread`.
* `menuPrice_iff`: and every standard rendering is read, except those that the dot of «Bss.» makes
  unreadable.
-/

namespace Splite.MenuPrice

open Decimal
open Mercantil (isSpace trimmed filter_trimmed exists_blanks)
open Bank (startsWithWord isSeparator isAmountPart isAmountPart_iff isSeparator_iff lastIndexOf)

/-- How many characters of the front of a text `CURRENCY_NOISE` matches; of its alternatives the first
one counts. -/
def noiseLength (s : List Char) : Nat :=
  if startsWithWord s ['b', 's'] then if s[2]? = some '.' then 3 else 2
  else if startsWithWord s ['b', 's', 's'] then if s[3]? = some '.' then 4 else 3
  else if startsWithWord s ['v', 'e', 's'] then 3
  else if startsWithWord s ['u', 's', 'd'] then 3
  else if startsWithWord s ['e', 'u', 'r'] then 3
  else if s.head? = some '$' ∨ s.head? = some '€' ∨ s.head? = some '£' then 1
  else 0

/-- `.replace(CURRENCY_NOISE, '')`, behind so many characters of a match. -/
def withoutNoise : Nat → List Char → List Char
  | _, [] => []
  | k + 1, _ :: s => withoutNoise k s
  | 0, c :: s =>
    match noiseLength (c :: s) with
    | 0 => c :: withoutNoise 0 s
    | k + 1 => withoutNoise k s

/-- The digits and separators that are left of a price. -/
def menuText (raw : String) : List Char :=
  (trimmed (withoutNoise 0 (trimmed raw.toList))).filter isAmountPart

/-- The text with its decimal separator, if it has one, as a dot, and without the other separators. -/
def normalise (text : List Char) : Option (List Char) :=
  let lastDot := lastIndexOf text '.'
  let lastComma := lastIndexOf text ','
  if lastDot ≠ -1 ∧ lastComma ≠ -1 then
    some (if lastComma > lastDot then replaceFirst ',' '.' (text.filter (· ≠ '.'))
      else text.filter (· ≠ ','))
  else if lastComma ≠ -1 then
    let tail := text.length - lastComma - 1
    if text.idxOf ',' ≠ lastComma then some (text.filter (· ≠ ','))
    else if tail = 3 then some (text.erase ',')
    else if tail = 1 ∨ tail = 2 then some (replaceFirst ',' '.' text)
    else none
  else if lastDot ≠ -1 then
    let tail := text.length - lastDot - 1
    if text.idxOf '.' ≠ lastDot then some (text.filter (· ≠ '.'))
    else if tail = 3 then some (text.erase '.')
    else if tail = 1 ∨ tail = 2 then some text
    else none
  else some text

/-- The minor units of a text of digits and separators. -/
def readPrice (text : List Char) : Option Nat :=
  ((normalise text).bind plainParts).map fun (whole, fraction) => value whole * 100 + hundredths fraction

/-- `parseMenuPrice(raw)`. -/
def parseMenuPrice (raw : Option String) : Option String :=
  match raw with
  | none => none
  | some raw => if menuText raw = [] then none else (readPrice (menuText raw)).map toString

example : parseMenuPrice (some "Bs. 1.234,56") = some "123456" := by decide +kernel

/-! ## The marks -/

variable {a b s text : List Char} {c d : Char} {k : Nat}

/-- Characters that are in no mark. -/
def Apart (c : Char) : Prop := c.toLower ∉ ['b', 's', '.', 'v', 'e', 'u', 'd', 'r', '$', '€', '£']

/-- Characters with which no mark begins. -/
def NoStart (c : Char) : Prop := c.toLower ∉ ['b', 'v', 'u', 'e', '$', '€', '£']

theorem Apart.noStart (h : Apart c) : NoStart c := fun hmem => h (by
  simp only [List.mem_cons, List.not_mem_nil, or_false] at hmem ⊢
  tauto)

theorem startsWithWord_cons {word : List Char} :
    startsWithWord s (c :: word) = true ↔ ∃ x xs, s = x :: xs ∧ x.toLower = c ∧ startsWithWord xs word := by
  cases s with
  | nil => simp [startsWithWord]
  | cons x xs => simp [startsWithWord]

theorem startsWithWord_append (hd : ∀ x ∈ text, d.toLower ≠ x) :
    startsWithWord (a ++ d :: b) text = startsWithWord a text := by
  induction text generalizing a with
  | nil => simp [startsWithWord]
  | cons x word ih =>
    obtain ⟨hx, hword⟩ := List.forall_mem_cons.mp hd
    rw [Bool.eq_iff_iff, startsWithWord_cons, startsWithWord_cons]
    cases a with
    | nil => simp [hx]
    | cons y a =>
      simp only [List.cons_append, List.cons.injEq]
      constructor
      · rintro ⟨_, _, ⟨rfl, rfl⟩, hy, hrest⟩
        exact ⟨_, _, ⟨rfl, rfl⟩, hy, by rwa [ih hword] at hrest⟩
      · rintro ⟨_, _, ⟨rfl, rfl⟩, hy, hrest⟩
        exact ⟨_, _, ⟨rfl, rfl⟩, hy, by rwa [ih hword]⟩

theorem startsWithWord_length {word : List Char} (h : startsWithWord s word = true) :
    word.length ≤ s.length := by
  have := congrArg List.length (of_decide_eq_true h)
  simp only [List.length_map, List.length_take] at this
  omega

/-- A mark does not reach over a character that is in none. -/
theorem noiseLength_append (hd : Apart d) (ha : a ≠ []) :
    noiseLength (a ++ d :: b) = noiseLength a := by
  have hword : ∀ {word : List Char},
      (∀ x ∈ word, x ∈ ['b', 's', '.', 'v', 'e', 'u', 'd', 'r', '$', '€', '£']) →
      startsWithWord (a ++ d :: b) word = startsWithWord a word := fun hsub =>
    startsWithWord_append fun x hx he => hd (he ▸ hsub x hx)
  have hdot : ∀ {i : Nat}, i ≤ a.length → ((a ++ d :: b)[i]? = some '.' ↔ a[i]? = some '.') := by
    intro i hi
    rcases hi.lt_or_eq with hlt | rfl
    · rw [List.getElem?_append_left hlt]
    · rw [List.getElem?_append_right le_rfl, Nat.sub_self, List.getElem?_cons_zero,
        List.getElem?_eq_none le_rfl]
      refine iff_of_false ?_ (by simp)
      rintro ⟨⟩
      exact hd (by decide)
  have hhead : (a ++ d :: b).head? = a.head? := by
    cases a with
    | nil => exact absurd rfl ha
    | cons x a => rfl
  unfold noiseLength
  rw [hword (by simp), hword (by simp), hword (by simp), hword (by simp), hword (by simp), hhead]
  by_cases hbs : startsWithWord a ['b', 's'] = true
  · have htwo := @hdot 2 (startsWithWord_length hbs)
    simp only [hbs, if_true, htwo]
  · by_cases hbss : startsWithWord a ['b', 's', 's'] = true
    · have hthree := @hdot 3 (startsWithWord_length hbss)
      simp only [hbs, hbss, if_true, hthree, Bool.false_eq_true, if_false]
    · simp only [hbs, hbss, Bool.false_eq_true, if_false]

theorem noiseLength_le : noiseLength s ≤ s.length := by
  have hlen : ∀ {i : Nat} {x : Char}, s[i]? = some x → i < s.length := fun h =>
    (List.getElem?_eq_some_iff.mp h).1
  unfold noiseLength
  split_ifs with hbs hdot hbss hdot hves husd heur hsign
  · exact hlen hdot
  · exact startsWithWord_length hbs
  · exact hlen hdot
  · exact startsWithWord_length hbss
  · exact startsWithWord_length hves
  · exact startsWithWord_length husd
  · exact startsWithWord_length heur
  · cases s with
    | nil => simp at hsign
    | cons x s => simp
  · exact Nat.zero_le _

theorem noiseLength_noStart (h : NoStart c) : noiseLength (c :: s) = 0 := by
  have hword : ∀ {x : Char} {word : List Char}, x ∈ ['b', 'v', 'u', 'e', '$', '€', '£'] →
      startsWithWord (c :: s) (x :: word) = false := by
    intro x word hx
    rw [← Bool.not_eq_true, startsWithWord_cons]
    rintro ⟨_, _, ⟨rfl, rfl⟩, rfl, -⟩
    exact h hx
  have hsign : ∀ {x : Char}, x.toLower = x → x ∈ ['b', 'v', 'u', 'e', '$', '€', '£'] → c ≠ x := by
    rintro x hlow hx rfl
    exact h (hlow.symm ▸ hx)
  unfold noiseLength
  rw [hword (by simp), hword (by simp), hword (by simp), hword (by simp), hword (by simp)]
  simp [hsign (x := '$') rfl (by simp), hsign (x := '€') rfl (by simp), hsign (x := '£') rfl (by simp)]

theorem withoutNoise_cons (h : NoStart c) : withoutNoise 0 (c :: s) = c :: withoutNoise 0 s := by
  rw [withoutNoise, noiseLength_noStart h]

/-- Where no mark begins nothing is dropped. -/
theorem withoutNoise_noStart (h : ∀ c ∈ a, NoStart c) : withoutNoise 0 (a ++ b) = a ++ withoutNoise 0 b := by
  induction a with
  | nil => rfl
  | cons c a ih =>
    obtain ⟨hc, ha⟩ := List.forall_mem_cons.mp h
    rw [List.cons_append, withoutNoise_cons hc, ih ha, List.cons_append]

/-- A character that is in no mark stays, and the marks before and behind it are apart. -/
theorem withoutNoise_apart (hd : Apart d) :
    ∀ {a : List Char} {k : Nat}, k ≤ a.length →
      withoutNoise k (a ++ d :: b) = withoutNoise k a ++ d :: withoutNoise 0 b
  | [], 0, _ => withoutNoise_cons hd.noStart
  | c :: a, k + 1, hk => by
    rw [List.cons_append, withoutNoise, withoutNoise]
    exact withoutNoise_apart hd (by simpa using hk)
  | c :: a, 0, _ => by
    have hlen := noiseLength_append (b := b) hd (List.cons_ne_nil c a)
    have hle := noiseLength_le (s := c :: a)
    rw [List.cons_append] at hlen
    rw [List.cons_append, withoutNoise, withoutNoise, hlen]
    split
    · rw [withoutNoise_apart hd (Nat.zero_le _), List.cons_append]
    · rename_i k hk
      rw [hk, List.length_cons] at hle
      exact withoutNoise_apart hd (Nat.le_of_succ_le_succ hle)

theorem mem_of_mem_withoutNoise : ∀ {s : List Char} {k : Nat}, c ∈ withoutNoise k s → c ∈ s
  | [], _, h => by simp [withoutNoise] at h
  | x :: s, k + 1, h => List.mem_cons_of_mem _ (mem_of_mem_withoutNoise h)
  | x :: s, 0, h => by
    rw [withoutNoise] at h
    split at h
    · rcases List.mem_cons.mp h with rfl | h
      · exact List.mem_cons_self
      · exact List.mem_cons_of_mem _ (mem_of_mem_withoutNoise h)
    · exact List.mem_cons_of_mem _ (mem_of_mem_withoutNoise h)

/-! ## What is left -/

/-- A character that is its own lower case and in no mark. -/
theorem apart_of_not_mem (hlow : c.toLower = c)
    (h : c ∉ ['b', 's', '.', 'v', 'e', 'u', 'd', 'r', '$', '€', '£']) : Apart c := by
  unfold Apart
  rwa [hlow]

theorem apart_of_isDigit (h : c.isDigit) : Apart c := by
  refine apart_of_not_mem (Bank.toLower_of_isDigit h) fun hmem => ?_
  have hnone : ∀ x ∈ ['b', 's', '.', 'v', 'e', 'u', 'd', 'r', '$', '€', '£'], x.isDigit = false :=
    List.all_iff_forall_prop.mp (by decide)
  simp [hnone c hmem] at h

theorem toLower_of_isSpace (h : isSpace c) : c.toLower = c := by
  unfold Char.toLower
  split_ifs with hupper
  · have hlo : 65 ≤ c.toNat := by simpa [UInt32.le_iff_toNat_le] using hupper.1
    have hhi : c.toNat ≤ 90 := by simpa [UInt32.le_iff_toNat_le] using hupper.2
    simp only [isSpace, List.contains_eq_mem, Bool.or_eq_true, decide_eq_true_eq, List.mem_cons,
      List.not_mem_nil, or_false, Bool.and_eq_true] at h
    omega
  · rfl

theorem apart_of_isSpace (h : isSpace c) : Apart c := by
  refine apart_of_not_mem (toLower_of_isSpace h) fun hmem => ?_
  have hnone : ∀ x ∈ ['b', 's', '.', 'v', 'e', 'u', 'd', 'r', '$', '€', '£'], isSpace x = false :=
    List.all_iff_forall_prop.mp (by decide)
  simp [hnone c hmem] at h

theorem noStart_of_isAmountPart (h : isAmountPart c) : NoStart c := by
  rcases isAmountPart_iff.mp h with hdigit | rfl | rfl
  · exact (apart_of_isDigit hdigit).noStart
  · unfold NoStart
    decide
  · unfold NoStart
    decide

theorem isSpace_of_isAmountPart (h : isAmountPart c) : isSpace c = false := by
  rcases isAmountPart_iff.mp h with hdigit | rfl | rfl
  · exact Mercantil.isSpace_of_isDigit hdigit
  · rfl
  · rfl

theorem filter_blanks {blanks : List Char} (h : ∀ c ∈ blanks, isSpace c) :
    blanks.filter isAmountPart = [] := by
  refine List.filter_eq_nil_iff.mpr fun c hc hpart => ?_
  have hspace := h c hc
  simp [isSpace_of_isAmountPart hpart] at hspace

theorem withoutNoise_blanks {blanks : List Char} (h : ∀ c ∈ blanks, isSpace c) :
    withoutNoise 0 (a ++ blanks) = withoutNoise 0 a ++ blanks := by
  cases blanks with
  | nil => simp
  | cons c blanks =>
    obtain ⟨hc, hblanks⟩ := List.forall_mem_cons.mp h
    have hrest := withoutNoise_noStart (b := []) fun c hc => (apart_of_isSpace (hblanks c hc)).noStart
    rw [List.append_nil, withoutNoise, List.append_nil] at hrest
    rw [withoutNoise_apart (apart_of_isSpace hc) (Nat.zero_le _), hrest]

theorem filter_part_trimmed : (trimmed s).filter isAmountPart = s.filter isAmountPart := by
  have hsame : ∀ l : List Char,
      l.filter isAmountPart = (l.filter fun c => !isSpace c).filter isAmountPart := by
    intro l
    rw [List.filter_filter]
    refine List.filter_congr fun c _ => ?_
    by_cases hpart : isAmountPart c = true
    · simp [hpart, isSpace_of_isAmountPart hpart]
    · simp [hpart]
  rw [hsame, filter_trimmed, ← hsame]

/-- Blanks at the ends make no difference. -/
theorem menuText_eq (raw : String) : menuText raw = (withoutNoise 0 raw.toList).filter isAmountPart := by
  obtain ⟨lead, trail, hraw, hlead, htrail⟩ := exists_blanks raw.toList
  unfold menuText
  rw [filter_part_trimmed]
  conv_rhs => rw [hraw]
  rw [List.append_assoc, withoutNoise_noStart fun c hc => (apart_of_isSpace (hlead c hc)).noStart,
    withoutNoise_blanks htrail, List.filter_append, List.filter_append, filter_blanks hlead,
    filter_blanks htrail]
  simp

/-! ## From the first digit to the last -/

/-- What stands from the first digit of a text to the last. -/
def span (s : List Char) : List Char :=
  (s.dropWhile fun c => !c.isDigit).rdropWhile fun c => !c.isDigit

/-- The text starts and ends with a digit. -/
def Solid (s : List Char) : Prop := (∃ c ∈ s.head?, c.isDigit) ∧ ∃ c ∈ s.getLast?, c.isDigit

theorem span_eq (hs : Solid s) (ha : ∀ c ∈ a, c.isDigit = false) (hb : ∀ c ∈ b, c.isDigit = false) :
    span (a ++ s ++ b) = s := by
  obtain ⟨⟨c, hc, hdigit⟩, d, hd, hdigit'⟩ := hs
  have hfront : (a ++ s ++ b).dropWhile (fun c => !c.isDigit) = s ++ b := by
    rw [List.append_assoc, List.dropWhile_append_of_pos fun c hc => by simp [ha c hc]]
    cases s with
    | nil => simp at hc
    | cons x s =>
      obtain rfl : x = c := by simpa using hc
      rw [List.cons_append, List.dropWhile_cons_of_neg (by simp [hdigit])]
  have hback : (s ++ b).rdropWhile (fun c => !c.isDigit) = s := by
    unfold List.rdropWhile
    rw [List.reverse_append, List.dropWhile_append_of_pos fun c hc => by
      simp [hb c (List.mem_reverse.mp hc)]]
    have hlast : s.reverse.head? = some d := by rw [List.head?_reverse]; exact hd
    cases hrev : s.reverse with
    | nil => simp [hrev] at hlast
    | cons x t =>
      obtain rfl : x = d := by simpa [hrev] using hlast
      rw [List.dropWhile_cons_of_neg (by simp [hdigit']), ← hrev, List.reverse_reverse]
  unfold span
  rw [hfront, hback]

theorem span_solid (hs : Solid s) : span s = s := by
  have h := @span_eq [] [] s hs (by simp) (by simp)
  simpa using h

theorem solid_of_isDigits (hne : s ≠ []) (h : IsDigits s) : Solid s :=
  ⟨⟨s.head hne, List.head?_eq_some_head hne, h _ (List.head_mem hne)⟩,
    s.getLast hne, List.getLast?_eq_some_getLast hne, h _ (List.getLast_mem hne)⟩

/-- A digit in front and digits behind. -/
theorem solid_append {t : List Char} (hc : c.isDigit) (hne : t ≠ []) (ht : IsDigits t) :
    Solid (c :: s ++ t) := by
  refine ⟨⟨c, by simp, hc⟩, t.getLast hne, ?_, ht _ (List.getLast_mem hne)⟩
  rw [List.getLast?_append, List.getLast?_eq_some_getLast hne]
  rfl

theorem exists_first_digit (h : ∃ c ∈ s, c.isDigit) : ∃ a d t, s = a ++ d :: t ∧ d.isDigit ∧
    ∀ c ∈ a, c.isDigit = false := by
  induction s with
  | nil => simp at h
  | cons x s ih =>
    by_cases hx : x.isDigit
    · exact ⟨[], x, s, rfl, hx, by simp⟩
    · obtain ⟨a, d, t, rfl, hd, ha⟩ := ih (by simpa [hx] using h)
      exact ⟨x :: a, d, t, rfl, hd, List.forall_mem_cons.mpr ⟨by simpa using hx, ha⟩⟩

/-- A text with a digit stands around what goes from the first to the last. -/
theorem exists_span (h : ∃ c ∈ s, c.isDigit) : ∃ a b, s = a ++ span s ++ b ∧ Solid (span s) ∧
    (∀ c ∈ a, c.isDigit = false) ∧ ∀ c ∈ b, c.isDigit = false := by
  obtain ⟨c, hc, hdigit⟩ := h
  set p : Char → Bool := fun c => !c.isDigit with hp
  have hpc : p c = false := by simp [hp, hdigit]
  have hfront : s.takeWhile p ++ s.dropWhile p = s := List.takeWhile_append_dropWhile
  set t := s.dropWhile p with ht
  have hmem : c ∈ t := by
    rcases List.mem_append.mp (hfront ▸ hc) with hc | hc
    · simp [List.mem_takeWhile_imp hc] at hpc
    · exact hc
  have hback : (t.reverse.takeWhile p ++ t.reverse.dropWhile p) = t.reverse := List.takeWhile_append_dropWhile
  have hspan : span s = (t.reverse.dropWhile p).reverse := rfl
  have hsplit : t = span s ++ (t.reverse.takeWhile p).reverse := by
    rw [hspan, ← List.reverse_append, hback, List.reverse_reverse]
  have hne : span s ≠ [] := by
    intro hnil
    rw [hnil, List.nil_append] at hsplit
    rw [hsplit] at hmem
    simp [List.mem_takeWhile_imp (List.mem_reverse.mp hmem)] at hpc
  refine ⟨s.takeWhile p, (t.reverse.takeWhile p).reverse, ?_, ⟨?_, ?_⟩, fun c hc => ?_, fun c hc => ?_⟩
  · rw [List.append_assoc, ← hsplit, hfront]
  · obtain ⟨x, xs, hxs⟩ := List.exists_cons_of_ne_nil hne
    have hhead : t = x :: (xs ++ (t.reverse.takeWhile p).reverse) := by
      rw [← List.cons_append, ← hxs]
      exact hsplit
    have hnot : p x = false := by
      have := List.head?_dropWhile_not p s
      rw [← ht, hhead] at this
      simpa using this
    exact ⟨x, by simp [hxs], by simpa [hp] using hnot⟩
  · obtain ⟨x, xs, hxs⟩ : ∃ x xs, t.reverse.dropWhile p = x :: xs := by
      refine List.exists_cons_of_ne_nil fun hnil => hne ?_
      rw [hspan, hnil, List.reverse_nil]
    have hnot : p x = false := by
      have := List.head?_dropWhile_not p t.reverse
      rw [hxs] at this
      simpa using this
    exact ⟨x, by rw [hspan, hxs]; simp, by simpa [hp] using hnot⟩
  · simpa [hp] using List.mem_takeWhile_imp hc
  · simpa [hp] using List.mem_takeWhile_imp (List.mem_reverse.mp hc)

/-! ## What is read -/

section Read

variable {sep dec : Char} {whole frac first t : List Char} {rest : List (List Char)} {n : Nat}

theorem lastIndexOf_ne : lastIndexOf s c ≠ -1 ↔ c ∈ s := by
  constructor
  · intro h
    by_contra hnot
    exact h (if_neg hnot)
  · intro h heq
    have := Bank.lastIndexOf_nonneg.mpr h
    omega

theorem readPrice_eq_some {text : List Char} (h : normalise text = some s) :
    readPrice text = some n ↔ ∃ whole frac, Decimal.Plain s whole frac ∧
      n = value whole * 100 + hundredths frac := by
  rw [readPrice, h, Option.bind_some, Option.map_eq_some_iff]
  simp only [Prod.exists, plainParts_eq_some, eq_comm]

theorem readPrice_digits {text : List Char} (h : normalise text = some s) (hs : IsDigits s) :
    readPrice text = some n ↔ s ≠ [] ∧ n = value s * 100 := by
  rw [readPrice_eq_some h]
  constructor
  · rintro ⟨whole, frac, ⟨⟨hne, -, -⟩, ⟨rfl, rfl⟩ | ⟨rfl, -⟩⟩, rfl⟩
    · exact ⟨hne, by simp⟩
    · exact absurd hs (not_isDigits_of_mem (c := '.') (by simp) rfl)
  · rintro ⟨hne, rfl⟩
    exact ⟨s, [], ⟨⟨hne, hs, by simp [IsDigits]⟩, .inl ⟨rfl, rfl⟩⟩, by simp⟩

theorem readPrice_decimal {text : List Char} (h : normalise text = some (whole ++ '.' :: frac))
    (hwhole : '.' ∉ whole) : readPrice text = some n ↔
      (whole ≠ [] ∧ IsDigits whole ∧ IsDigits frac) ∧ (1 ≤ frac.length ∧ frac.length ≤ 2) ∧
        n = value whole * 100 + hundredths frac := by
  rw [readPrice_eq_some h]
  constructor
  · rintro ⟨w, f, ⟨hparts, ⟨htext, -⟩ | ⟨htext, hlen⟩⟩, rfl⟩
    · exact absurd (htext ▸ hparts.2.1) (not_isDigits_of_mem (c := '.') (by simp) rfl)
    · obtain ⟨rfl, rfl⟩ := append_cons_inj hwhole (hparts.2.1.not_mem rfl) htext
      exact ⟨hparts, hlen, rfl⟩
  · rintro ⟨hparts, hlen, rfl⟩
    exact ⟨whole, frac, ⟨hparts, .inr ⟨rfl, hlen⟩⟩, rfl⟩

theorem normalise_bare (h : IsDigits s) : normalise s = some s := by
  have hno : ∀ {c : Char}, c.isDigit = false → ¬lastIndexOf s c ≠ -1 := fun hc hmem =>
    h.not_mem hc (lastIndexOf_ne.mp hmem)
  have hdot := hno (c := '.') rfl
  have hcomma := hno (c := ',') rfl
  simp [normalise, hdot, hcomma]

/-- One separator: two decimals at most, or a group of three. -/
theorem normalise_pair (hsep : isSeparator sep) (hfirst : IsDigits first) (ht : IsDigits t) :
    normalise (first ++ sep :: t) =
      if t.length = 3 then some (first ++ t)
      else if t.length = 1 ∨ t.length = 2 then some (first ++ '.' :: t)
      else none := by
  have hnot := Bank.isDigit_of_isSeparator hsep
  have hlast := Bank.lastIndexOf_append (s := first) (ht.not_mem hnot)
  have hidx : (first ++ sep :: t).idxOf sep = first.length := by
    rw [List.idxOf_append_of_notMem (hfirst.not_mem hnot), List.idxOf_cons_self, Nat.add_zero]
  have herase : (first ++ sep :: t).erase sep = first ++ t := by
    rw [List.erase_append_right _ (hfirst.not_mem hnot), List.erase_cons_head]
  have htail : ((first ++ sep :: t).length : Int) - first.length - 1 = t.length := by
    simp only [List.length_append, List.length_cons]
    push_cast
    omega
  have hmem : (first.length : Int) ≠ -1 := by omega
  have hother : ∀ {c : Char}, isSeparator c → c ≠ sep → ¬lastIndexOf (first ++ sep :: t) c ≠ -1 := by
    intro c hc hne h
    have hcno := Bank.isDigit_of_isSeparator hc
    have := lastIndexOf_ne.mp h
    simp [hfirst.not_mem hcno, ht.not_mem hcno, hne] at this
  rcases isSeparator_iff.mp hsep with rfl | rfl
  · have hno := hother (c := ',') rfl (by decide)
    simp only [normalise, hno, hlast, hidx, herase, htail, hmem, and_false, if_false, if_true, ne_eq,
      not_true, not_false_iff]
    norm_cast
  · have hno := hother (c := '.') rfl (by decide)
    rw [show first ++ '.' :: t = replaceFirst ',' '.' (first ++ ',' :: t) from
      (replaceFirst_append (hfirst.not_mem rfl)).symm]
    simp only [normalise, hno, hlast, hidx, herase, htail, hmem, false_and, if_false, if_true, ne_eq,
      not_true, not_false_iff]
    norm_cast

/-- More than one separator of one kind are dropped. -/
theorem normalise_many (hsep : isSeparator sep) (htext : ∀ c ∈ s, c.isDigit ∨ c = sep)
    (hmany : 2 ≤ s.count sep) : normalise s = some (s.filter Char.isDigit) := by
  have hnot := Bank.isDigit_of_isSeparator hsep
  have hfilter : s.filter (· ≠ sep) = s.filter Char.isDigit := by
    refine List.filter_congr fun c hc => ?_
    rcases htext c hc with hdigit | rfl
    · have hne : c ≠ sep := by
        rintro rfl
        simp [hnot] at hdigit
      simp [hdigit, hne]
    · simp [hnot]
  have hmem : sep ∈ s := List.count_pos_iff.mp (by omega)
  obtain ⟨a, b, rfl, hb⟩ := Bank.exists_last hmem
  have hcount : 1 ≤ a.count sep := by
    rw [List.count_append, List.count_cons_self, List.count_eq_zero.mpr hb] at hmany
    omega
  have hidx : (a ++ sep :: b).idxOf sep < a.length := by
    have hin : sep ∈ a := List.count_pos_iff.mp hcount
    rw [List.idxOf_append_of_mem hin]
    exact List.idxOf_lt_length_iff.mpr hin
  have hlast := Bank.lastIndexOf_append (s := a) hb
  have hne : ((a ++ sep :: b).idxOf sep : Int) ≠ a.length := by omega
  have hpos : (a.length : Int) ≠ -1 := by omega
  have hother : ∀ {c : Char}, isSeparator c → c ≠ sep → ¬lastIndexOf (a ++ sep :: b) c ≠ -1 := by
    intro c hc hcne h
    rcases htext c (lastIndexOf_ne.mp h) with hdigit | rfl
    · simp [Bank.isDigit_of_isSeparator hc] at hdigit
    · exact hcne rfl
  rcases isSeparator_iff.mp hsep with rfl | rfl
  · have hno := hother (c := ',') rfl (by decide)
    rw [← hfilter]
    simp only [normalise, hno, hlast, hne, hpos, and_false, if_false, if_true, ne_eq, not_false_iff]
  · have hno := hother (c := '.') rfl (by decide)
    rw [← hfilter]
    simp only [normalise, hno, hlast, hne, hpos, false_and, if_false, if_true, ne_eq, not_false_iff]

/-- Of both separators the last one is taken for the decimal one. -/
theorem normalise_both (hsep : Bank.Separators sep dec) (hmem : sep ∈ whole) (hfrac : IsDigits frac) :
    normalise (whole ++ dec :: frac) =
      some (replaceFirst dec '.' (whole.filter (· ≠ sep) ++ dec :: frac)) := by
  have hnot : ∀ {c}, isSeparator c → c ∉ frac := fun hc => hfrac.not_mem (Bank.isDigit_of_isSeparator hc)
  have hdec := Bank.lastIndexOf_append (s := whole) (hnot hsep.right)
  have hlt := Bank.lastIndexOf_lt (d := dec) hmem hsep.ne (hnot hsep.left)
  have hle : 0 ≤ lastIndexOf (whole ++ dec :: frac) sep := Bank.lastIndexOf_nonneg.mpr (by simp [hmem])
  have hfilter : (whole ++ dec :: frac).filter (· ≠ sep) = whole.filter (· ≠ sep) ++ dec :: frac := by
    rw [List.filter_append, List.filter_cons_of_pos (by simpa using hsep.ne.symm)]
    congr 2
    refine List.filter_eq_self.mpr fun c hc => ?_
    have : c ≠ sep := fun h => hnot hsep.left (h ▸ hc)
    simpa using this
  rw [← hfilter]
  rcases hsep with ⟨rfl, rfl⟩ | ⟨rfl, rfl⟩
  · have hboth : lastIndexOf (whole ++ ',' :: frac) '.' ≠ -1 ∧ lastIndexOf (whole ++ ',' :: frac) ',' ≠ -1 := by
      omega
    have hgt : lastIndexOf (whole ++ ',' :: frac) ',' > lastIndexOf (whole ++ ',' :: frac) '.' := by omega
    simp only [normalise, if_pos hboth, if_pos hgt]
  · have hboth : lastIndexOf (whole ++ '.' :: frac) '.' ≠ -1 ∧ lastIndexOf (whole ++ '.' :: frac) ',' ≠ -1 := by
      omega
    have hgt : ¬lastIndexOf (whole ++ '.' :: frac) ',' > lastIndexOf (whole ++ '.' :: frac) '.' := by omega
    simp only [normalise, if_pos hboth, if_neg hgt, replaceFirst_self]

/-- With both separators a price has one decimal separator, digits before it and one or two behind. -/
theorem readPrice_both (hsep : Bank.Separators sep dec) (hmem : sep ∈ whole)
    (hwhole : ∀ c ∈ whole, isAmountPart c) (hfrac : IsDigits frac) :
    readPrice (whole ++ dec :: frac) = some n ↔
      dec ∉ whole ∧ (∃ c ∈ whole, c.isDigit) ∧ (1 ≤ frac.length ∧ frac.length ≤ 2) ∧
        n = value (whole.filter Char.isDigit) * 100 + hundredths frac := by
  have hnormal := normalise_both hsep hmem hfrac
  by_cases hdec : dec ∈ whole
  · refine iff_of_false (fun h => ?_) fun h => h.1 hdec
    have hin : dec ∈ whole.filter (· ≠ sep) := List.mem_filter.mpr ⟨hdec, by simpa using hsep.ne.symm⟩
    obtain ⟨x, y, hsplit, hx⟩ := List.eq_append_cons_of_mem hin
    have hdot : '.' ∉ x := by
      intro hmem'
      have hxin : '.' ∈ whole.filter (· ≠ sep) := by
        rw [hsplit]
        exact List.mem_append_left _ hmem'
      rcases hsep with ⟨rfl, rfl⟩ | ⟨rfl, rfl⟩
      · simp at hxin
      · exact hx hmem'
    rw [hsplit, List.append_assoc, List.cons_append, replaceFirst_append hx] at hnormal
    obtain ⟨⟨-, -, hdigits⟩, -⟩ := (readPrice_decimal hnormal hdot).mp h
    exact hdigits.not_mem (Bank.isDigit_of_isSeparator hsep.right) (by simp)
  · have hfilter : whole.filter (· ≠ sep) = whole.filter Char.isDigit := by
      refine List.filter_congr fun c hc => ?_
      rcases hsep.part.mp (hwhole c hc) with hdigit | rfl | rfl
      · have hne : c ≠ sep := by
          rintro rfl
          simp [Bank.isDigit_of_isSeparator hsep.left] at hdigit
        simp [hdigit, hne]
      · simp [Bank.isDigit_of_isSeparator hsep.left]
      · exact absurd hc hdec
    have hdigits : IsDigits (whole.filter Char.isDigit) := fun c hc => (List.mem_filter.mp hc).2
    rw [hfilter, replaceFirst_append (hdigits.not_mem (Bank.isDigit_of_isSeparator hsep.right))] at hnormal
    rw [readPrice_decimal hnormal (hdigits.not_mem rfl)]
    have hne : whole.filter Char.isDigit ≠ [] ↔ ∃ c ∈ whole, c.isDigit := by
      rw [ne_eq, List.filter_eq_nil_iff]
      push Not
      rfl
    rw [hne]
    tauto

/-- Texts of digits and separators that are taken for a price, and for which. -/
inductive Taken : List Char → Nat → Prop where
  | bare {text : List Char} (hne : text ≠ []) (h : IsDigits text) : Taken text (value text * 100)
  /-- A decimal separator once, one or two digits behind it, and before it digits and the other. -/
  | decimal {sep dec : Char} {whole frac : List Char} (hsep : Bank.Separators sep dec)
      (hwhole : ∀ c ∈ whole, c.isDigit ∨ c = sep) (hdigit : ∃ c ∈ whole, c.isDigit) (hfrac : IsDigits frac)
      (hlen : 1 ≤ frac.length ∧ frac.length ≤ 2) :
      Taken (whole ++ dec :: frac) (value (whole.filter Char.isDigit) * 100 + hundredths frac)
  /-- One separator, and three digits behind it. -/
  | triple {sep : Char} {first t : List Char} (hsep : isSeparator sep) (hfirst : IsDigits first)
      (ht : IsDigits t) (hlen : t.length = 3) : Taken (first ++ sep :: t) (value (first ++ t) * 100)
  /-- Several separators of one kind, wherever they are. -/
  | many {sep : Char} {text : List Char} (hsep : isSeparator sep)
      (htext : ∀ c ∈ text, c.isDigit ∨ c = sep) (hmany : 2 ≤ text.count sep)
      (hdigit : ∃ c ∈ text, c.isDigit) : Taken text (value (text.filter Char.isDigit) * 100)

theorem filter_ne_nil : s.filter Char.isDigit ≠ [] ↔ ∃ c ∈ s, c.isDigit := by
  rw [ne_eq, List.filter_eq_nil_iff]
  push Not
  rfl

theorem isDigits_filter : IsDigits (s.filter Char.isDigit) := fun _ h => (List.mem_filter.mp h).2

theorem Taken.readPrice (h : Taken text n) : readPrice text = some n := by
  cases h with
  | bare hne h => exact (readPrice_digits (normalise_bare h) h).mpr ⟨hne, rfl⟩
  | @decimal sep dec whole frac hsep hwhole hdigit hfrac hlen =>
    by_cases hmem : sep ∈ whole
    · refine (readPrice_both hsep hmem (fun c hc => hsep.part.mpr ((hwhole c hc).imp id .inl)) hfrac).mpr
        ⟨fun hdec => ?_, hdigit, hlen, rfl⟩
      rcases hwhole dec hdec with hd | hd
      · simp [Bank.isDigit_of_isSeparator hsep.right] at hd
      · exact hsep.ne hd.symm
    · have hdigits : IsDigits whole := fun c hc => (hwhole c hc).resolve_right fun heq => hmem (heq ▸ hc)
      have hnormal := normalise_pair hsep.right hdigits hfrac
      rw [if_neg (by omega), if_pos (by omega)] at hnormal
      rw [List.filter_eq_self.mpr hdigits]
      obtain ⟨c, hc, -⟩ := hdigit
      exact (readPrice_decimal hnormal (hdigits.not_mem rfl)).mpr
        ⟨⟨List.ne_nil_of_mem hc, hdigits, hfrac⟩, hlen, rfl⟩
  | @triple sep first t hsep hfirst ht hlen =>
    have hnormal := normalise_pair hsep hfirst ht
    rw [if_pos hlen] at hnormal
    refine (readPrice_digits hnormal (isDigits_append.mpr ⟨hfirst, ht⟩)).mpr ⟨fun hnil => ?_, rfl⟩
    simp [(List.append_eq_nil_iff.mp hnil).2] at hlen
  | many hsep htext hmany hdigit =>
    exact (readPrice_digits (normalise_many hsep htext hmany) isDigits_filter).mpr
      ⟨filter_ne_nil.mpr hdigit, rfl⟩

/-- What is read is taken for what it is read as. -/
theorem taken_of_readPrice (hparts : ∀ c ∈ text, isAmountPart c) (h : readPrice text = some n) :
    Taken text n := by
  cases Bank.shape hparts with
  | bare hs =>
    obtain ⟨hne, rfl⟩ := (readPrice_digits (normalise_bare hs) hs).mp h
    exact .bare hne hs
  | @one sep first rest hsep hdigits hne =>
    have hnot := Bank.isDigit_of_isSeparator hsep
    obtain ⟨t, rest, rfl⟩ := List.exists_cons_of_ne_nil hne
    by_cases hrest : rest = []
    · subst hrest
      obtain ⟨hfirst, ht⟩ : IsDigits first ∧ IsDigits t := by simpa [isDigits_append] using hdigits
      rw [show [sep].intercalate [first, t] = first ++ sep :: t by simp [List.intercalate_cons_cons]]
        at h ⊢
      have hnormal := normalise_pair hsep hfirst ht
      split_ifs at hnormal with hthree htwo
      · obtain ⟨-, rfl⟩ := (readPrice_digits hnormal (isDigits_append.mpr ⟨hfirst, ht⟩)).mp h
        exact .triple hsep hfirst ht hthree
      · obtain ⟨⟨hne, -, -⟩, hlen, rfl⟩ := (readPrice_decimal hnormal (hfirst.not_mem rfl)).mp h
        obtain ⟨other, hother⟩ := Bank.exists_other hsep
        obtain ⟨c, hc⟩ := List.exists_mem_of_ne_nil _ hne
        have := @Taken.decimal other sep first t hother.symm (fun c hc => .inl (hfirst c hc))
          ⟨c, hc, hfirst c hc⟩ ht hlen
        rwa [List.filter_eq_self.mpr hfirst] at this
      · simp [readPrice, hnormal] at h
    · have hcount : 2 ≤ ([sep].intercalate (first :: t :: rest)).count sep := by
        rw [count_intercalate hnot hdigits, List.length_cons]
        have := List.length_pos_of_ne_nil hrest
        omega
      have htext : ∀ c ∈ [sep].intercalate (first :: t :: rest), c.isDigit ∨ c = sep := fun c hc =>
        intercalate_of_isDigits hdigits hc
      obtain ⟨hne, rfl⟩ := (readPrice_digits (normalise_many hsep htext hcount) isDigits_filter).mp h
      exact .many hsep htext hcount (filter_ne_nil.mp hne)
  | @both sep dec whole frac hsep hmem hwhole hfrac =>
    obtain ⟨hdec, hdigit, hlen, rfl⟩ := (readPrice_both hsep hmem hwhole hfrac).mp h
    refine .decimal hsep (fun c hc => ?_) hdigit hfrac hlen
    rcases hsep.part.mp (hwhole c hc) with hd | hd | rfl
    · exact .inl hd
    · exact .inr hd
    · exact absurd hc hdec

end Read

/-- A text that is taken for some price. -/
def Readable (text : List Char) : Prop := ∃ n, Taken text n

theorem menuText_parts (raw : String) : ∀ c ∈ menuText raw, isAmountPart c := fun _ hc =>
  (List.mem_filter.mp hc).2

theorem parseMenuPrice_eq_some {raw v : String} :
    parseMenuPrice (some raw) = some v ↔ ∃ n, v = toString n ∧ Taken (menuText raw) n := by
  have hne : ∀ {n}, Taken (menuText raw) n → menuText raw ≠ [] := by
    intro n h hnil
    rw [hnil] at h
    have hread := h.readPrice
    rw [(readPrice_digits (normalise_bare (by simp [IsDigits])) (by simp [IsDigits]))] at hread
    exact hread.1 rfl
  unfold parseMenuPrice
  dsimp only
  constructor
  · intro h
    split_ifs at h
    obtain ⟨n, hn, rfl⟩ := Option.map_eq_some_iff.mp h
    exact ⟨n, rfl, taken_of_readPrice (menuText_parts raw) hn⟩
  · rintro ⟨n, rfl, h⟩
    rw [if_neg (hne h), h.readPrice, Option.map_some]

/-! ## Prices that are guessed -/

/-- What is returned is the price that the one number of the text, written in one piece, is a standard
rendering of. -/
def NeverGuesses (raw : String) : Prop :=
  ∀ v, parseMenuPrice (some raw) = some v → ∃ n, v = toString n ∧ Bank.WellFormed (span raw.toList) n

/-- A text that is taken for a price and whose digits do not write it. -/
inductive Misread (raw : String) : Prop where
  /-- Another character stands between its digits. -/
  | glued {c : Char} (hread : Readable (menuText raw)) (hc : c ∈ span raw.toList)
      (hother : isAmountPart c = false) : Misread raw
  /-- Two decimals at most, and before them no groups under the other separator. -/
  | ragged {sep dec : Char} {whole frac : List Char} (hread : Readable (menuText raw))
      (hspan : span raw.toList = whole ++ dec :: frac) (hsep : Bank.Separators sep dec) (hmem : sep ∈ whole)
      (hwhole : ∀ c ∈ whole, isAmountPart c) (hfrac : IsDigits frac) (hlen : frac.length ≤ 2)
      (hbad : ∀ digits, ¬Whole sep digits whole) : Misread raw
  /-- Separators of one kind that neither group by threes nor leave one or two decimals. -/
  | uneven {sep : Char} {first : List Char} {rest : List (List Char)} (hread : Readable (menuText raw))
      (hspan : span raw.toList = [sep].intercalate (first :: rest)) (hsep : isSeparator sep)
      (hdigits : IsDigits (first :: rest).flatten) (hne : rest ≠ [])
      (hbad : ¬(first.length ≤ 3 ∧ ∀ g ∈ rest, g.length = 3)) (hdec : ∀ t, rest = [t] → 2 < t.length) :
      Misread raw
  /-- A decimal that is not zero, with the same separator once more before or behind it. -/
  | strayed {sep : Char} {whole frac : List Char} (hsep : isSeparator sep)
      (htext : ∀ c ∈ menuText raw, c.isDigit ∨ c = sep) (hstray : menuText raw ≠ span raw.toList)
      (hspan : span raw.toList = whole ++ sep :: frac) (hne : whole ≠ []) (hwhole : IsDigits whole)
      (hfrac : IsDigits frac) (hlen : 1 ≤ frac.length ∧ frac.length ≤ 2)
      (hpos : 0 < value whole * 100 + hundredths frac) : Misread raw

section Guessed

variable {raw : String} {sep dec : Char} {whole frac digits : List Char} {n : Nat}

theorem wellFormed_bare (hne : s ≠ []) (h : IsDigits s) : Bank.WellFormed s (value s * 100) :=
  ⟨'.', ',', .inl ⟨rfl, rfl⟩, s, s, ⟨h, .inl ⟨hne, rfl⟩⟩, .inl ⟨rfl, rfl⟩⟩

theorem wellFormed_whole (hsep : isSeparator sep) (h : Whole sep digits whole) :
    Bank.WellFormed whole (value digits * 100) := by
  obtain ⟨dec, hdec⟩ := Bank.exists_other hsep
  exact ⟨sep, dec, hdec, digits, whole, h, .inl ⟨rfl, rfl⟩⟩

theorem wellFormed_decimal (hsep : Bank.Separators sep dec) (h : Whole sep digits whole)
    (hfrac : IsDigits frac) (hlen : 1 ≤ frac.length ∧ frac.length ≤ 2) :
    Bank.WellFormed (whole ++ dec :: frac) (value digits * 100 + hundredths frac) :=
  ⟨sep, dec, hsep, digits, whole, h, .inr ⟨frac, hfrac, hlen, rfl, rfl⟩⟩

theorem Whole.bare (hne : s ≠ []) (h : IsDigits s) : Whole sep s s := ⟨h, .inl ⟨hne, rfl⟩⟩

/-- The digits of a text are left, and when nothing else stands between them what goes from the first to
the last is left as it is. -/
theorem menuText_span (hdigit : ∃ c ∈ raw.toList, c.isDigit)
    (hparts : ∀ c ∈ span raw.toList, isAmountPart c) :
    Solid (span raw.toList) ∧ ∃ a b, menuText raw = a ++ span raw.toList ++ b ∧
      (∀ c ∈ a, isSeparator c) ∧ ∀ c ∈ b, isSeparator c := by
  obtain ⟨a, b, hraw, hsolid, ha, hb⟩ := exists_span hdigit
  refine ⟨hsolid, (withoutNoise 0 a).filter isAmountPart, (withoutNoise 0 b).filter isAmountPart, ?_, ?_, ?_⟩
  · obtain ⟨d, hd, hdigit⟩ := hsolid.1
    obtain ⟨core, hcore⟩ : ∃ core, span raw.toList = d :: core := by
      cases hspan : span raw.toList with
      | nil => simp [hspan] at hd
      | cons x core => exact ⟨core, by rw [hspan] at hd; rw [← Option.some.inj hd]⟩
    rw [hcore] at hraw hparts ⊢
    obtain ⟨-, hrest⟩ := List.forall_mem_cons.mp hparts
    have hself : (d :: core).filter isAmountPart = d :: core := List.filter_eq_self.mpr hparts
    rw [menuText_eq, hraw, List.append_assoc, List.cons_append,
      withoutNoise_apart (apart_of_isDigit hdigit) (Nat.zero_le _),
      withoutNoise_noStart fun c hc => noStart_of_isAmountPart (hrest c hc), List.filter_append,
      ← List.cons_append, List.filter_append, hself, List.append_assoc]
  · intro c hc
    obtain ⟨hc, hpart⟩ := List.mem_filter.mp hc
    exact isSeparator_iff.mpr ((isAmountPart_iff.mp hpart).resolve_left
      (by simp [ha c (mem_of_mem_withoutNoise hc)]))
  · intro c hc
    obtain ⟨hc, hpart⟩ := List.mem_filter.mp hc
    exact isSeparator_iff.mpr ((isAmountPart_iff.mp hpart).resolve_left
      (by simp [hb c (mem_of_mem_withoutNoise hc)]))

theorem exists_digit_of_menuText (h : ∃ c ∈ menuText raw, c.isDigit) : ∃ c ∈ raw.toList, c.isDigit := by
  obtain ⟨c, hc, hdigit⟩ := h
  rw [menuText_eq] at hc
  exact ⟨c, mem_of_mem_withoutNoise (List.mem_filter.mp hc).1, hdigit⟩

theorem Taken.exists_digit (h : Taken text n) : ∃ c ∈ text, c.isDigit := by
  cases h with
  | bare hne h =>
    obtain ⟨c, hc⟩ := List.exists_mem_of_ne_nil _ hne
    exact ⟨c, hc, h c hc⟩
  | decimal hsep hwhole hdigit hfrac hlen =>
    obtain ⟨c, hc, hd⟩ := hdigit
    exact ⟨c, List.mem_append_left _ hc, hd⟩
  | @triple sep first t hsep hfirst ht hlen =>
    obtain ⟨c, hc⟩ := List.exists_mem_of_length_pos (l := t) (by omega)
    exact ⟨c, by simp [hc], ht c hc⟩
  | many hsep htext hmany hdigit => exact hdigit

/-- Digits with separators of one kind between them group by threes, or leave one or two decimals, or do
neither. -/
theorem one_kind_cases (hsep : isSeparator sep) (hsolid : Solid s) (htext : ∀ c ∈ s, c.isDigit ∨ c = sep) :
    (∃ digits, Whole sep digits s) ∨
      (∃ whole frac, s = whole ++ sep :: frac ∧ whole ≠ [] ∧ IsDigits whole ∧ IsDigits frac ∧
        1 ≤ frac.length ∧ frac.length ≤ 2) ∨
      ∃ first rest, s = [sep].intercalate (first :: rest) ∧ IsDigits (first :: rest).flatten ∧ rest ≠ [] ∧
        ¬(first.length ≤ 3 ∧ ∀ g ∈ rest, g.length = 3) ∧ ∀ t, rest = [t] → 2 < t.length := by
  have hnot := Bank.isDigit_of_isSeparator hsep
  obtain ⟨⟨c, hc, hdigit⟩, d, hd, hdigit'⟩ := hsolid
  obtain ⟨first, rest, rfl, hdigits⟩ := Bank.exists_groups htext
  by_cases hrest : rest = []
  · subst hrest
    have hself : [sep].intercalate [first] = first := by simp
    rw [hself] at hc ⊢
    exact .inl ⟨first, Whole.bare (List.ne_nil_of_mem (List.mem_of_head? hc)) (by simpa using hdigits)⟩
  have hfirst : first ≠ [] := by
    rintro rfl
    obtain ⟨g, gs, rfl⟩ := List.exists_cons_of_ne_nil hrest
    obtain rfl : sep = c := by simpa [List.intercalate_cons_cons] using hc
    simp [hnot] at hdigit
  by_cases hgroups : first.length ≤ 3 ∧ ∀ g ∈ rest, g.length = 3
  · exact .inl ⟨_, hdigits, .inr ⟨first, rest, ⟨List.length_pos_of_ne_nil hfirst, hgroups.1⟩, hgroups.2, rfl,
      rfl⟩⟩
  by_cases hdec : ∀ t, rest = [t] → 2 < t.length
  · exact .inr (.inr ⟨first, rest, rfl, hdigits, hrest, hgroups, hdec⟩)
  push Not at hdec
  obtain ⟨t, rfl, hlen⟩ := hdec
  have hpair : [sep].intercalate [first, t] = first ++ sep :: t := by simp [List.intercalate_cons_cons]
  obtain ⟨hfirstDigits, ht⟩ : IsDigits first ∧ IsDigits t := by simpa [isDigits_append] using hdigits
  refine .inr (.inl ⟨first, t, hpair, hfirst, hfirstDigits, ht, ?_, hlen⟩)
  rw [hpair] at hd
  rcases Nat.eq_zero_or_pos t.length with hzero | hpos
  · -- The last digit would be the separator.
    rw [List.eq_nil_of_length_eq_zero hzero] at hd
    obtain rfl : sep = d := by simpa using hd
    simp [hnot] at hdigit'
  · exact hpos

/-- All digits of a decimal of zero are zeros. -/
theorem value_eq_zero (h : value whole * 100 + hundredths frac = 0) : value (whole ++ frac) = 0 := by
  obtain ⟨hwhole, hfrac⟩ : value whole = 0 ∧ hundredths frac = 0 := by omega
  rw [hundredths_eq] at hfrac
  have hzero : value frac = 0 := (Nat.mul_eq_zero.mp hfrac).resolve_right (by positivity)
  rw [value_append, hzero, hwhole, Nat.zero_mul]

theorem decimal_cases (hread : Readable (menuText raw))
    (hspan : span (whole ++ dec :: frac) = span raw.toList) (hsep : Bank.Separators sep dec)
    (hwhole : ∀ c ∈ whole, c.isDigit ∨ c = sep) (hdigit : ∃ c ∈ whole, c.isDigit) (hfrac : IsDigits frac)
    (hlen : 1 ≤ frac.length ∧ frac.length ≤ 2) :
    Bank.WellFormed (span raw.toList) (value (whole.filter Char.isDigit) * 100 + hundredths frac) ∨
      Misread raw := by
  obtain ⟨lead, d, w, rfl, hd, hlead⟩ := exists_first_digit hdigit
  have hcore : span raw.toList = d :: w ++ dec :: frac := by
    have hsolid : Solid (d :: w ++ dec :: frac) := by
      have hne : frac ≠ [] := List.ne_nil_of_length_pos (by omega)
      have := @solid_append (w ++ [dec]) d frac hd hne hfrac
      simpa using this
    have := @span_eq lead [] _ hsolid hlead (by simp)
    rw [← hspan, ← this]
    simp
  have hfilter : (lead ++ d :: w).filter Char.isDigit = (d :: w).filter Char.isDigit := by
    rw [List.filter_append, List.filter_eq_nil_iff.mpr fun c hc => by simp [hlead c hc], List.nil_append]
  have hw : ∀ c ∈ d :: w, c.isDigit ∨ c = sep := fun c hc => hwhole c (List.mem_append_right _ hc)
  rw [hfilter, hcore]
  by_cases hmem : sep ∈ d :: w
  · by_cases hgroups : ∃ digits, Whole sep digits (d :: w)
    · obtain ⟨digits, hgroups⟩ := hgroups
      rw [hgroups.filter_isDigit (Bank.isDigit_of_isSeparator hsep.left)]
      exact .inl (wellFormed_decimal hsep hgroups hfrac hlen)
    · push Not at hgroups
      exact .inr (.ragged hread hcore hsep hmem (fun c hc => hsep.part.mpr ((hw c hc).imp id .inl)) hfrac
        hlen.2 hgroups)
  · have hdigits : IsDigits (d :: w) := fun c hc => (hw c hc).resolve_right fun heq => hmem (heq ▸ hc)
    rw [List.filter_eq_self.mpr hdigits]
    exact .inl (wellFormed_decimal hsep (Whole.bare (List.cons_ne_nil _ _) hdigits) hfrac hlen)

theorem triple_cases (hread : Readable (menuText raw))
    (hspan : span (first ++ sep :: t) = span raw.toList) (hsep : isSeparator sep) (hfirst : IsDigits first)
    (ht : IsDigits t) (hlen : t.length = 3) :
    Bank.WellFormed (span raw.toList) (value (first ++ t) * 100) ∨ Misread raw := by
  have hnot := Bank.isDigit_of_isSeparator hsep
  have hne : t ≠ [] := List.ne_nil_of_length_pos (by omega)
  cases first with
  | nil =>
    have hcore := @span_eq [sep] [] t (solid_of_isDigits hne ht) (by simpa using hnot) (by simp)
    rw [List.append_nil] at hcore
    rw [← hspan]
    change Bank.WellFormed (span ([sep] ++ t)) _ ∨ _
    rw [hcore]
    exact .inl (wellFormed_bare hne ht)
  | cons d first =>
    have hsolid : Solid (d :: first ++ sep :: t) := by
      have := @solid_append (first ++ [sep]) d t (hfirst d List.mem_cons_self) hne ht
      simpa using this
    rw [span_solid hsolid] at hspan
    have hgroups : d :: first ++ sep :: t = [sep].intercalate [d :: first, t] := by
      simp [List.intercalate_cons_cons]
    have hdigits : IsDigits [d :: first, t].flatten := by
      simpa [isDigits_append] using isDigits_append.mpr ⟨hfirst, ht⟩
    by_cases hshort : (d :: first).length ≤ 3
    · left
      have hwhole : Whole sep (d :: first ++ t) (d :: first ++ sep :: t) :=
        ⟨isDigits_append.mpr ⟨hfirst, ht⟩, .inr ⟨d :: first, [t], ⟨by simp, hshort⟩, by simpa using hlen,
          by simp, hgroups⟩⟩
      rw [← hspan]
      exact wellFormed_whole hsep hwhole
    · refine .inr (.uneven hread (hspan.symm.trans hgroups) hsep hdigits (by simp) (fun h => hshort h.1) ?_)
      rintro t' ht'
      rw [← (List.cons.inj ht').1]
      omega

theorem many_cases (hread : Readable (menuText raw)) (hsolid : Solid (span raw.toList))
    (hspan : (menuText raw).filter Char.isDigit = (span raw.toList).filter Char.isDigit)
    (hcore : ∀ c ∈ span raw.toList, c.isDigit ∨ c = sep) (hsep : isSeparator sep)
    (hchars : ∀ c ∈ menuText raw, c.isDigit ∨ c = sep) (hmany : 2 ≤ (menuText raw).count sep) :
    Bank.WellFormed (span raw.toList) (value ((menuText raw).filter Char.isDigit) * 100) ∨ Misread raw := by
  have hnot := Bank.isDigit_of_isSeparator hsep
  rw [hspan]
  obtain ⟨digits, hwhole⟩ | ⟨whole, frac, heq, hne, hwhole, hfrac, hlen⟩ |
    ⟨first, rest, heq, hdigits, hrest, hbad, hdec⟩ := one_kind_cases hsep hsolid hcore
  · rw [hwhole.filter_isDigit hnot]
    exact .inl (wellFormed_whole hsep hwhole)
  · rcases Nat.eq_zero_or_pos (value whole * 100 + hundredths frac) with hzero | hpos
    · left
      obtain ⟨other, hother⟩ := Bank.exists_other hsep
      have hdecimal := wellFormed_decimal hother.symm (Whole.bare hne hwhole) hfrac hlen
      have hself : (whole ++ sep :: frac).filter Char.isDigit = whole ++ frac := by
        rw [List.filter_append, List.filter_cons_of_neg (by simp [hnot]), List.filter_eq_self.mpr hwhole,
          List.filter_eq_self.mpr hfrac]
      rw [heq, hself, value_eq_zero hzero, Nat.zero_mul]
      rwa [hzero] at hdecimal
    · refine .inr (.strayed hsep hchars (fun hsame => ?_) heq hne hwhole hfrac hlen hpos)
      rw [hsame, heq, List.count_append, List.count_cons_self,
        List.count_eq_zero.mpr (hwhole.not_mem hnot), List.count_eq_zero.mpr (hfrac.not_mem hnot)] at hmany
      omega
  · exact .inr (.uneven hread heq hsep hdigits hrest hbad hdec)

/-- What is taken for a price is the one that the number is, or the text is misread. -/
theorem Taken.cases (h : Taken (menuText raw) n) : Bank.WellFormed (span raw.toList) n ∨ Misread raw := by
  have hread : Readable (menuText raw) := ⟨n, h⟩
  by_cases hparts : ∀ c ∈ span raw.toList, isAmountPart c
  swap
  · push Not at hparts
    obtain ⟨c, hc, hother⟩ := hparts
    exact .inr (.glued hread hc (by simpa using hother))
  obtain ⟨hsolid, a, b, htext, ha, hb⟩ := menuText_span (exists_digit_of_menuText h.exists_digit) hparts
  have ha' : ∀ c ∈ a, c.isDigit = false := fun c hc => Bank.isDigit_of_isSeparator (ha c hc)
  have hb' : ∀ c ∈ b, c.isDigit = false := fun c hc => Bank.isDigit_of_isSeparator (hb c hc)
  have hspan : span (menuText raw) = span raw.toList := by
    conv_lhs => rw [htext]
    exact span_eq hsolid ha' hb'
  generalize hf : menuText raw = text at h hspan
  cases h with
  | bare hne hdigits =>
    rw [span_solid (solid_of_isDigits hne hdigits)] at hspan
    rw [← hspan]
    exact .inl (wellFormed_bare hne hdigits)
  | decimal hsep hwhole hdigit hfrac hlen => exact decimal_cases hread hspan hsep hwhole hdigit hfrac hlen
  | triple hsep hfirst ht hlen => exact triple_cases hread hspan hsep hfirst ht hlen
  | @many sep text hsep hchars hmany hdigit =>
    subst hf
    have hfilter : (menuText raw).filter Char.isDigit = (span raw.toList).filter Char.isDigit := by
      have hnone : ∀ {l : List Char}, (∀ c ∈ l, c.isDigit = false) → l.filter Char.isDigit = [] := fun h =>
        List.filter_eq_nil_iff.mpr fun c hc => by simp [h c hc]
      conv_lhs => rw [htext]
      rw [List.filter_append, List.filter_append, hnone ha', hnone hb', List.nil_append, List.append_nil]
    have hcore : ∀ c ∈ span raw.toList, c.isDigit ∨ c = sep := fun c hc => hchars c (by
      rw [htext]
      exact List.mem_append_left _ (List.mem_append_right _ hc))
    exact many_cases hread hsolid hfilter hcore hsep hchars hmany

/-- The separators of a strayed decimal are all dropped. -/
theorem taken_of_strayed (hsep : isSeparator sep) (htext : ∀ c ∈ menuText raw, c.isDigit ∨ c = sep)
    (hstray : menuText raw ≠ span raw.toList) (hspan : span raw.toList = whole ++ sep :: frac)
    (hne : whole ≠ []) (hwhole : IsDigits whole) (hfrac : IsDigits frac) :
    Taken (menuText raw) (value (whole ++ frac) * 100) := by
  have hnot := Bank.isDigit_of_isSeparator hsep
  have hparts : ∀ c ∈ span raw.toList, isAmountPart c := by
    rw [hspan]
    exact List.forall_mem_append.mpr ⟨fun c hc => isAmountPart_iff.mpr (.inl (hwhole c hc)),
      List.forall_mem_cons.mpr ⟨isAmountPart_iff.mpr (.inr (isSeparator_iff.mp hsep)),
        fun c hc => isAmountPart_iff.mpr (.inl (hfrac c hc))⟩⟩
  obtain ⟨c, hc⟩ := List.exists_mem_of_ne_nil _ hne
  have hmem : ∃ c ∈ raw.toList, c.isDigit := by
    refine ⟨c, ?_, hwhole c hc⟩
    have hin : c ∈ span raw.toList := by simp [hspan, hc]
    exact List.dropWhile_sublist _ |>.subset (List.rdropWhile_prefix _ _ |>.subset hin)
  obtain ⟨-, a, b, hsplit, ha, hb⟩ := menuText_span hmem hparts
  have hall : ∀ {l : List Char}, (∀ c ∈ l, isSeparator c) → (∀ c ∈ l, c ∈ menuText raw) → ∀ c ∈ l, c = sep := by
    intro l hl hin c hc
    exact (htext c (hin c hc)).resolve_left (by simp [Bank.isDigit_of_isSeparator (hl c hc)])
  have ha' := hall ha fun c hc => by simp [hsplit, hc]
  have hb' := hall hb fun c hc => by simp [hsplit, hc]
  have hcount : 2 ≤ (menuText raw).count sep := by
    have hsome : 0 < (a ++ b).length := by
      refine List.length_pos_of_ne_nil fun hnil => hstray ?_
      obtain ⟨rfl, rfl⟩ := List.append_eq_nil_iff.mp hnil
      simpa using hsplit
    have hacount : a.count sep = a.length := List.count_eq_length.mpr fun c hc => (ha' c hc).symm
    have hbcount : b.count sep = b.length := List.count_eq_length.mpr fun c hc => (hb' c hc).symm
    rw [hsplit, hspan]
    simp only [List.count_append, List.count_cons_self, List.length_append, hacount, hbcount] at hsome ⊢
    omega
  have hfilter : (menuText raw).filter Char.isDigit = whole ++ frac := by
    have hnone : ∀ {l : List Char}, (∀ c ∈ l, isSeparator c) → l.filter Char.isDigit = [] := fun h =>
      List.filter_eq_nil_iff.mpr fun c hc => by simp [Bank.isDigit_of_isSeparator (h c hc)]
    rw [hsplit, hspan, List.filter_append, List.filter_append, List.filter_append,
      List.filter_cons_of_neg (by simp [hnot]), List.filter_eq_self.mpr hwhole,
      List.filter_eq_self.mpr hfrac, hnone ha, hnone hb, List.nil_append, List.append_nil]
  have hdigit : ∃ c ∈ menuText raw, c.isDigit := ⟨c, by simp [hsplit, hspan, hc], hwhole c hc⟩
  have := Taken.many hsep htext hcount hdigit
  rwa [hfilter] at this

/-- A misread text is guessed. -/
theorem Misread.guessed (h : Misread raw) : ¬NeverGuesses raw := by
  intro hnever
  have hsome : Readable (menuText raw) → ∃ n, Bank.WellFormed (span raw.toList) n := by
    rintro ⟨n, htaken⟩
    obtain ⟨m, -, hwell⟩ := hnever _ (parseMenuPrice_eq_some.mpr ⟨n, rfl, htaken⟩)
    exact ⟨m, hwell⟩
  cases h with
  | glued hread hc hother =>
    obtain ⟨n, hwell⟩ := hsome hread
    simp [hwell.parts _ hc] at hother
  | ragged hread hspan hsep hmem hwhole hfrac hlen hbad =>
    obtain ⟨n, hwell⟩ := hsome hread
    rw [hspan] at hwell
    exact (Bank.Misread.ragged hsep hmem hwhole hfrac hlen (.inr hbad)).not_wellFormed hwell
  | uneven hread hspan hsep hdigits hne hbad hdec =>
    obtain ⟨n, hwell⟩ := hsome hread
    rw [hspan] at hwell
    exact Bank.not_wellFormed_uneven hsep hdigits hne hbad hdec hwell
  | @strayed sep whole frac hsep htext hstray hspan hne hwhole hfrac hlen hpos =>
    have htaken := taken_of_strayed hsep htext hstray hspan hne hwhole hfrac
    obtain ⟨m, hm, hwell⟩ := hnever _ (parseMenuPrice_eq_some.mpr ⟨_, rfl, htaken⟩)
    obtain ⟨other, hother⟩ := Bank.exists_other hsep
    have hdecimal := wellFormed_decimal hother.symm (Whole.bare hne hwhole) hfrac hlen
    rw [hspan] at hwell
    obtain rfl := hwell.unique hdecimal
    have hvalue : value (whole ++ frac) * 100 = value whole * 100 + hundredths frac := by
      simpa [value_toDigits] using congrArg value (congrArg String.toList hm)
    -- A hundred times the digits is the decimal only when both are zero.
    rw [value_append, hundredths_eq] at hvalue
    rw [hundredths_eq] at hpos
    rcases (show frac.length = 1 ∨ frac.length = 2 by omega) with hone | htwo
    · rw [hone] at hvalue hpos
      omega
    · rw [htwo] at hvalue hpos
      omega

/-- A text is guessed exactly when it is misread. -/
theorem neverGuesses_iff : NeverGuesses raw ↔ ¬Misread raw := by
  constructor
  · exact fun hnever hmisread => hmisread.guessed hnever
  · intro hnot v hv
    obtain ⟨n, rfl, htaken⟩ := parseMenuPrice_eq_some.mp hv
    exact ⟨n, rfl, htaken.cases.resolve_right hnot⟩

end Guessed

/-! ## Standard renderings -/

/-- The marks that `CURRENCY_NOISE` lists, in lower case. -/
def marks : List (List Char) :=
  [['b', 's'], ['b', 's', '.'], ['b', 's', 's'], ['b', 's', 's', '.'], ['v', 'e', 's'], ['u', 's', 'd'],
    ['e', 'u', 'r'], ['$'], ['€'], ['£']]

/-- One of the marks, in any case. -/
def IsMark (mark : List Char) : Prop := mark.map Char.toLower ∈ marks

/-- «Bss.» in any case. -/
def IsBss (mark : List Char) : Prop := mark.map Char.toLower = ['b', 's', 's', '.']

/-- A number between what stands before and behind it, with blanks wherever there may be. -/
def Shown (pre num post : List Char) (raw : String) : Prop :=
  ∃ lead mid mid' trail, (∀ c ∈ lead ++ mid ++ mid' ++ trail, isSpace c) ∧
    raw.toList = lead ++ pre ++ mid ++ num ++ mid' ++ post ++ trail

/-- A standard rendering, alone or with a mark before or behind it, is read as what it is. -/
def ReadsStandard (raw : String) : Prop :=
  ∀ pre num post n, Bank.WellFormed num n → Shown pre num post raw →
    (pre = [] ∧ post = [] ∨ IsMark pre ∧ post = [] ∨ pre = [] ∧ IsMark post) →
      parseMenuPrice (some raw) = some (toString n)

/-- A number that a dot before it makes unreadable: other than three digits, or with commas that
group. -/
def RefusedBefore (num : List Char) : Prop :=
  IsDigits num ∧ num.length ≠ 3 ∨ ∃ a b, num = a ++ ',' :: b ∧ 2 < b.length

/-- A number that a dot behind it makes unreadable. -/
def RefusedAfter (num : List Char) : Prop := IsDigits num ∨ ',' ∈ num

/-- A standard rendering with «Bss.», of which the dot is left, in a place where it cannot be read. -/
def Refused (raw : String) : Prop :=
  ∃ pre num post n, Bank.WellFormed num n ∧ Shown pre num post raw ∧
    (IsBss pre ∧ post = [] ∧ RefusedBefore num ∨ pre = [] ∧ IsBss post ∧ RefusedAfter num)

section Standard

variable {raw : String} {pre num post mark : List Char} {n : Nat}

instance : Decidable (IsBss mark) := inferInstanceAs (Decidable (_ = _))

theorem IsBss.isMark (h : IsBss mark) : IsMark mark := by
  unfold IsMark
  rw [h]
  decide

/-- What is no letter is the lower case of itself only. -/
theorem eq_of_toLower (hd : d.toNat < 97 ∨ 122 < d.toNat) (h : c.toLower = d) : c = d := by
  unfold Char.toLower at h
  split_ifs at h with hupper
  · have hlo : 65 ≤ c.val.toNat := by simpa [UInt32.le_iff_toNat_le] using hupper.1
    have hhi : c.val.toNat ≤ 90 := by simpa [UInt32.le_iff_toNat_le] using hupper.2
    have hval : (c.val + 32).toNat = d.toNat := by rw [← h]; rfl
    rw [UInt32.toNat_add, show (32 : UInt32).toNat = 32 from rfl] at hval
    omega
  · exact h

/-- A letter is neither a digit nor a separator. -/
theorem not_isAmountPart_of_toLower (h : c.toLower ∈ ['b', 's', 'v', 'e', 'u', 'd', 'r', '$', '€', '£']) :
    isAmountPart c = false := by
  rw [← Bool.not_eq_true]
  intro hpart
  have hself : c.toLower = c := by
    rcases isAmountPart_iff.mp hpart with hdigit | rfl | rfl
    · exact Bank.toLower_of_isDigit hdigit
    · rfl
    · rfl
  have hnone : ∀ x ∈ ['b', 's', 'v', 'e', 'u', 'd', 'r', '$', '€', '£'], isAmountPart x = false :=
    List.all_iff_forall_prop.mp (by decide)
  rw [hself] at h
  simp [hnone c h] at hpart

theorem noStart_of_s (h : c.toLower = 's') : NoStart c := by
  unfold NoStart
  rw [h]
  decide

/-- Of «Bss» the first two letters are taken for the mark. -/
theorem withoutNoise_bs (hc : c.toLower = 'b') (hd : d.toLower = 's') (hs : s.head? ≠ some '.') :
    withoutNoise 0 (c :: d :: s) = withoutNoise 0 s := by
  have hlen : noiseLength (c :: d :: s) = 2 := by
    have hdot : (c :: d :: s)[2]? ≠ some '.' := by rwa [List.head?_eq_getElem?] at hs
    unfold noiseLength
    rw [if_pos (by simp [startsWithWord, hc, hd]), if_neg hdot]
  rw [withoutNoise, hlen]
  rfl

/-- Of the marks only «Bss.» leaves something. -/
theorem mark_left (h : IsMark mark) : (withoutNoise 0 mark).filter isAmountPart =
    if IsBss mark then ['.'] else [] := by
  have hlower : ∀ {c x : Char}, c.toLower = x → x ∈ ['b', 's', 'v', 'e', 'u', 'd', 'r', '$', '€', '£'] →
      isAmountPart c = false := fun h hx => not_isAmountPart_of_toLower (h ▸ hx)
  unfold IsMark marks at h
  simp only [List.mem_cons, List.not_mem_nil, or_false, List.map_eq_cons_iff, List.map_eq_nil_iff] at h
  rcases h with ⟨b, _, rfl, hb, s, _, rfl, hs, rfl⟩ | ⟨b, _, rfl, hb, s, _, rfl, hs, p, _, rfl, hp, rfl⟩ |
    ⟨b, _, rfl, hb, s, _, rfl, hs, t, _, rfl, ht, rfl⟩ |
    ⟨b, _, rfl, hb, s, _, rfl, hs, t, _, rfl, ht, p, _, rfl, hp, rfl⟩ |
    ⟨v, _, rfl, hv, e, _, rfl, he, s, _, rfl, hs, rfl⟩ | ⟨u, _, rfl, hu, s, _, rfl, hs, d, _, rfl, hd, rfl⟩ |
    ⟨e, _, rfl, he, u, _, rfl, hu, r, _, rfl, hr, rfl⟩ | ⟨c, _, rfl, hc, rfl⟩ | ⟨c, _, rfl, hc, rfl⟩ |
    ⟨c, _, rfl, hc, rfl⟩
  · simp [withoutNoise, noiseLength, startsWithWord, IsBss, hb, hs]
  · obtain rfl := eq_of_toLower (.inl (by decide)) hp
    simp [withoutNoise, noiseLength, startsWithWord, IsBss, hb, hs]
  · have htdot : t ≠ '.' := by
      rintro rfl
      exact absurd ht (by decide)
    rw [withoutNoise_bs hb hs (by simpa using htdot), withoutNoise_cons (noStart_of_s ht)]
    simp [withoutNoise, IsBss, hlower ht (by decide)]
  · obtain rfl := eq_of_toLower (.inl (by decide)) hp
    have htdot : t ≠ '.' := by
      rintro rfl
      exact absurd ht (by decide)
    rw [withoutNoise_bs hb hs (by simpa using htdot), withoutNoise_cons (noStart_of_s ht),
      withoutNoise_cons (noStart_of_isAmountPart rfl), if_pos (by simp [IsBss, hb, hs, ht])]
    rw [withoutNoise, List.filter_cons_of_neg (by simp [hlower ht (by decide)])]
    rfl
  · simp [withoutNoise, noiseLength, startsWithWord, IsBss, hv, he, hs]
  · simp [withoutNoise, noiseLength, startsWithWord, IsBss, hu, hs, hd]
  · simp [withoutNoise, noiseLength, startsWithWord, IsBss, he, hu, hr]
  · obtain rfl := eq_of_toLower (.inl (by decide)) hc
    decide
  · obtain rfl := eq_of_toLower (.inr (by decide)) hc
    decide
  · obtain rfl := eq_of_toLower (.inr (by decide)) hc
    decide

theorem isDigit_of_mark (h : IsMark mark) : ∀ c ∈ mark, c.isDigit = false := by
  have hnone : ∀ m ∈ marks, ∀ x ∈ m, x.isDigit = false := by
    intro m hm
    have hall : ∀ m ∈ marks, m.all (fun x => x.isDigit = false) = true := by decide
    exact List.all_iff_forall_prop.mp (hall m hm)
  intro c hc
  rw [← Bool.not_eq_true]
  intro hdigit
  have := hnone _ h _ (List.mem_map_of_mem hc)
  simp [Bank.toLower_of_isDigit hdigit, hdigit] at this

theorem isDigit_of_isSpace (h : isSpace c) : c.isDigit = false := by
  rw [← Bool.not_eq_true]
  intro hdigit
  simp [Mercantil.isSpace_of_isDigit hdigit] at h

/-- A rendering goes from a digit to a digit. -/
theorem solid_of_wellFormed (h : Bank.WellFormed num n) : Solid num := by
  obtain ⟨sep, dec, hsep, digits, whole, hwhole, htext⟩ := h
  obtain ⟨c, cs, rfl, hc⟩ := hwhole.head
  rcases htext with ⟨rfl, -⟩ | ⟨frac, hfrac, hlen, rfl, -⟩
  · rcases hwhole.cases with hbare | ⟨first, rest, hne, -, hthree, rfl, hgroups⟩
    · exact solid_of_isDigits (List.cons_ne_nil _ _) (hbare ▸ hwhole.1)
    · obtain ⟨a, g, ha, hg⟩ := intercalate_last sep first hne
      have hlast : g ≠ [] := List.ne_nil_of_length_pos (by simp [hthree g hg])
      have hdigits : IsDigits g := fun c hc => hwhole.1 c (List.mem_flatten.mpr ⟨g, by simp [hg], hc⟩)
      rw [ha] at hgroups
      cases a with
      | nil =>
        obtain rfl : c = sep := (List.cons.inj hgroups).1
        simp [Bank.isDigit_of_isSeparator hsep.left] at hc
      | cons x a =>
        obtain ⟨rfl, hcs⟩ := List.cons.inj hgroups
        have := @solid_append (a ++ [sep]) c g hc hlast hdigits
        rw [hcs]
        simpa using this
  · have hne : frac ≠ [] := List.ne_nil_of_length_pos (by omega)
    have := @solid_append (cs ++ [dec]) c frac hc hne hfrac
    simpa using this

/-- A number between texts without digits is what goes from the first digit to the last. -/
theorem Shown.span (h : Shown pre num post raw) (hnum : Bank.WellFormed num n)
    (hpre : ∀ c ∈ pre, c.isDigit = false) (hpost : ∀ c ∈ post, c.isDigit = false) :
    span raw.toList = num := by
  obtain ⟨lead, mid, mid', trail, hblank, hraw⟩ := h
  simp only [List.forall_mem_append] at hblank
  obtain ⟨⟨⟨hlead, hmid⟩, hmid'⟩, htrail⟩ := hblank
  have hspace : ∀ {l : List Char}, (∀ c ∈ l, isSpace c) → ∀ c ∈ l, c.isDigit = false := fun h c hc =>
    isDigit_of_isSpace (h c hc)
  have := @span_eq (lead ++ pre ++ mid) (mid' ++ post ++ trail) num (solid_of_wellFormed hnum)
    (by simp only [List.forall_mem_append]; exact ⟨⟨hspace hlead, hpre⟩, hspace hmid⟩)
    (by simp only [List.forall_mem_append]; exact ⟨⟨hspace hmid', hpost⟩, hspace htrail⟩)
  rw [hraw]
  simpa using this

/-- Of a number with something around it the number is left, and what is left of that. -/
theorem Shown.menuText (h : Shown pre num post raw) (hnum : Bank.WellFormed num n) :
    menuText raw = (withoutNoise 0 pre).filter isAmountPart ++ num ++
      (withoutNoise 0 post).filter isAmountPart := by
  obtain ⟨lead, mid, mid', trail, hblank, hraw⟩ := h
  simp only [List.forall_mem_append] at hblank
  obtain ⟨⟨⟨hlead, hmid⟩, hmid'⟩, htrail⟩ := hblank
  have hnoStart : ∀ {l : List Char}, (∀ c ∈ l, isSpace c) → ∀ c ∈ l, NoStart c := fun h c hc =>
    (apart_of_isSpace (h c hc)).noStart
  have hparts := hnum.parts
  have hself : num.filter isAmountPart = num := List.filter_eq_self.mpr hparts
  obtain ⟨⟨d, hd, hdigit⟩, -⟩ := solid_of_wellFormed hnum
  obtain ⟨rest, rfl⟩ : ∃ rest, num = d :: rest := by
    cases num with
    | nil => simp at hd
    | cons x rest => exact ⟨rest, by rw [← Option.some.inj hd]⟩
  obtain ⟨-, hrest⟩ := List.forall_mem_cons.mp hparts
  have hsplit : raw.toList = lead ++ ((pre ++ mid) ++ d :: (rest ++ (mid' ++ (post ++ trail)))) := by
    rw [hraw]
    simp
  rw [menuText_eq, hsplit, withoutNoise_noStart (hnoStart hlead),
    withoutNoise_apart (apart_of_isDigit hdigit) (Nat.zero_le _), withoutNoise_blanks hmid,
    withoutNoise_noStart fun c hc => noStart_of_isAmountPart (hrest c hc),
    withoutNoise_noStart (hnoStart hmid'), withoutNoise_blanks htrail]
  rw [← List.cons_append]
  simp only [List.filter_append, filter_blanks hlead, filter_blanks hmid, filter_blanks hmid',
    filter_blanks htrail, hself, List.append_nil, List.nil_append, List.append_assoc]

/-- A rendering is taken for what it renders. -/
theorem taken_of_wellFormed (h : Bank.WellFormed num n) : Taken num n := by
  obtain ⟨sep, dec, hsep, digits, whole, hwhole, htext⟩ := h
  have hnot := Bank.isDigit_of_isSeparator hsep.left
  obtain ⟨c, cs, hhead, hc⟩ := hwhole.head
  have hdigit : ∃ c ∈ whole, c.isDigit := ⟨c, by simp [hhead], hc⟩
  rcases htext with ⟨rfl, rfl⟩ | ⟨frac, hfrac, hlen, rfl, rfl⟩
  · rcases hwhole.cases with rfl | ⟨first, rest, hne, -, hthree, rfl, rfl⟩
    · exact .bare (by simp [hhead]) hwhole.1
    · obtain ⟨t, rest, rfl⟩ := List.exists_cons_of_ne_nil hne
      by_cases hrest : rest = []
      · subst hrest
        obtain ⟨hfirst, ht⟩ : IsDigits first ∧ IsDigits t := by simpa [isDigits_append] using hwhole.1
        have := Taken.triple hsep.left hfirst ht (hthree t List.mem_cons_self)
        simpa [List.intercalate_cons_cons] using this
      · have hcount : 2 ≤ ([sep].intercalate (first :: t :: rest)).count sep := by
          rw [count_intercalate hnot hwhole.1, List.length_cons]
          have := List.length_pos_of_ne_nil hrest
          omega
        have := Taken.many hsep.left hwhole.chars hcount hdigit
        rwa [hwhole.filter_isDigit hnot] at this
  · have := Taken.decimal hsep hwhole.chars hdigit hfrac hlen
    rwa [hwhole.filter_isDigit hnot] at this

/-- A text with both separators is taken for a price only as a decimal. -/
theorem Taken.decimal_of_both (h : Taken text n) (hdot : '.' ∈ text) (hcomma : ',' ∈ text) :
    ∃ sep dec whole frac, Bank.Separators sep dec ∧ text = whole ++ dec :: frac ∧
      (∀ c ∈ whole, c.isDigit ∨ c = sep) ∧ (∃ c ∈ whole, c.isDigit) ∧ IsDigits frac ∧
      1 ≤ frac.length ∧ frac.length ≤ 2 := by
  have hone : ∀ sep, ¬∀ c ∈ text, c.isDigit ∨ c = sep := by
    intro sep hall
    obtain rfl := (hall _ hdot).resolve_left (by decide)
    exact absurd ((hall _ hcomma).resolve_left (by decide)) (by decide)
  cases h with
  | bare hne hdigits => exact absurd (fun c hc => .inl (hdigits c hc)) (hone '.')
  | @decimal sep dec whole frac hsep hwhole hdigit hfrac hlen =>
    exact ⟨sep, dec, whole, frac, hsep, rfl, hwhole, hdigit, hfrac, hlen⟩
  | @triple sep first t hsep hfirst ht hlen =>
    refine absurd (List.forall_mem_append.mpr ⟨fun c hc => .inl (hfirst c hc), ?_⟩) (hone sep)
    exact List.forall_mem_cons.mpr ⟨.inr rfl, fun c hc => .inl (ht c hc)⟩
  | @many sep text hsep htext hmany hdigit => exact absurd htext (hone sep)

/-- Digits behind one separator are a group of three or nothing that can be read. -/
theorem not_readable_dot_digits (hnum : IsDigits num) (hlen : num.length ≠ 3) : ¬Readable ('.' :: num) := by
  rintro ⟨m, htaken⟩
  have hnormal := @normalise_pair '.' [] num rfl (by simp [IsDigits]) hnum
  rw [if_neg hlen] at hnormal
  have hread := htaken.readPrice
  split_ifs at hnormal
  · exact ((readPrice_decimal hnormal (by simp)).mp hread).1.1 rfl
  · rw [readPrice, show normalise ('.' :: num) = none from hnormal] at hread
    simp at hread

theorem RefusedBefore.not_readable (h : RefusedBefore num) : ¬Readable ('.' :: num) := by
  obtain ⟨hdigits, hlen⟩ | ⟨a, b, rfl, hlen⟩ := h
  · exact not_readable_dot_digits hdigits hlen
  rintro ⟨m, htaken⟩
  obtain ⟨sep, dec, whole, frac, hsep, htext, hwhole, ⟨c, hc, -⟩, hfrac, -, hfraclen⟩ :=
    htaken.decimal_of_both (by simp) (by simp)
  have hdec : dec ∉ whole := by
    intro hmem
    rcases hwhole dec hmem with hd | hd
    · simp [Bank.isDigit_of_isSeparator hsep.right] at hd
    · exact hsep.ne hd.symm
  rcases hsep with ⟨rfl, rfl⟩ | ⟨rfl, rfl⟩
  · -- The comma stands once, so what is behind it is the fraction.
    have hcount := congrArg (List.count ',') htext
    simp only [List.count_append, List.count_cons_self, List.count_eq_zero.mpr hdec,
      List.count_eq_zero.mpr (hfrac.not_mem (c := ',') rfl), ← List.cons_append] at hcount
    have ha : ',' ∉ '.' :: a := List.count_eq_zero.mp (by omega)
    obtain ⟨-, rfl⟩ := append_cons_inj ha hdec htext
    omega
  · -- The dot in front is in the whole part, or there is none.
    cases whole with
    | nil => simp at hc
    | cons x whole =>
      obtain rfl : '.' = x := (List.cons.inj htext).1
      exact hdec List.mem_cons_self

/-- A dot before a number. -/
theorem readable_before (hnum : Bank.WellFormed num n) : Readable ('.' :: num) ↔ ¬RefusedBefore num := by
  refine ⟨fun hread href => href.not_readable hread, fun href => ?_⟩
  have hone : (∀ c ∈ num, c.isDigit ∨ c = '.') → Readable ('.' :: num) := by
    intro hall
    obtain ⟨⟨d, hd, hdigit⟩, -⟩ := solid_of_wellFormed hnum
    by_cases hdot : '.' ∈ num
    · have hcount : 2 ≤ ('.' :: num).count '.' := by
        rw [List.count_cons_self]
        have := List.count_pos_iff.mpr hdot
        omega
      exact ⟨_, .many rfl (List.forall_mem_cons.mpr ⟨.inr rfl, hall⟩) hcount
        ⟨d, List.mem_cons_of_mem _ (List.mem_of_head? hd), hdigit⟩⟩
    · have hdigits : IsDigits num := fun c hc => (hall c hc).resolve_right fun heq => hdot (heq ▸ hc)
      have hlen : num.length = 3 := by
        by_contra hlen
        exact href (.inl ⟨hdigits, hlen⟩)
      exact ⟨_, @Taken.triple '.' [] num rfl (by simp [IsDigits]) hdigits hlen⟩
  obtain ⟨sep, dec, hsep, digits, whole, hwhole, htext⟩ := hnum
  rcases hsep with ⟨rfl, rfl⟩ | ⟨rfl, rfl⟩
  · rcases htext with ⟨rfl, -⟩ | ⟨frac, hfrac, hlen, rfl, -⟩
    · exact hone hwhole.chars
    · obtain ⟨c, cs, hhead, hc⟩ := hwhole.head
      exact ⟨_, @Taken.decimal _ _ ('.' :: whole) frac (.inl ⟨rfl, rfl⟩)
        (List.forall_mem_cons.mpr ⟨.inr rfl, hwhole.chars⟩) ⟨c, by simp [hhead], hc⟩ hfrac hlen⟩
  · rcases hwhole.cases with rfl | ⟨first, rest, hne, -, hthree, -, hgroups⟩
    · rcases htext with ⟨rfl, -⟩ | ⟨frac, hfrac, hlen, rfl, -⟩
      · exact hone fun c hc => .inl (hwhole.1 c hc)
      · exact hone (List.forall_mem_append.mpr ⟨fun c hc => .inl (hwhole.1 c hc),
          List.forall_mem_cons.mpr ⟨.inr rfl, fun c hc => .inl (hfrac c hc)⟩⟩)
    · -- Commas that group.
      obtain ⟨a, g, ha, hg⟩ := intercalate_last ',' first hne
      have hlen := hthree g hg
      refine absurd (.inr ?_) href
      rcases htext with ⟨rfl, -⟩ | ⟨frac, -, -, rfl, -⟩
      · exact ⟨a, g, hgroups.trans ha, by omega⟩
      · refine ⟨a, g ++ '.' :: frac, by simp [hgroups, ha], ?_⟩
        rw [List.length_append]
        omega

theorem RefusedAfter.not_readable (h : RefusedAfter num) : ¬Readable (num ++ ['.']) := by
  rintro ⟨m, htaken⟩
  rcases h with hdigits | hcomma
  · have hnormal := @normalise_pair '.' num [] rfl hdigits (by simp [IsDigits])
    rw [if_neg (by simp), if_neg (by simp)] at hnormal
    have hread := htaken.readPrice
    rw [readPrice, hnormal] at hread
    simp at hread
  · obtain ⟨sep, dec, whole, frac, -, htext, -, -, hfrac, hpos, -⟩ :=
      htaken.decimal_of_both (by simp) (by simp [hcomma])
    -- The last digit would be the dot.
    obtain ⟨init, d, rfl⟩ := (List.eq_nil_or_concat frac).resolve_left (List.ne_nil_of_length_pos hpos)
    rw [show whole ++ dec :: init.concat d = (whole ++ dec :: init) ++ [d] by simp] at htext
    obtain rfl : '.' = d := (List.cons.inj (List.append_inj' htext rfl).2).1
    exact hfrac.not_mem (c := '.') rfl (by simp)

/-- A dot behind a number. -/
theorem readable_after (hnum : Bank.WellFormed num n) :
    Readable (num ++ ['.']) ↔ ¬RefusedAfter num := by
  refine ⟨fun hread href => href.not_readable hread, fun href => ?_⟩
  obtain ⟨hnot, hcomma⟩ := not_or.mp href
  have hall : ∀ c ∈ num, c.isDigit ∨ c = '.' := by
    intro c hc
    rcases isAmountPart_iff.mp (hnum.parts c hc) with hdigit | rfl | rfl
    · exact .inl hdigit
    · exact .inr rfl
    · exact absurd hc hcomma
  have hdot : '.' ∈ num := by
    by_contra hdot
    exact hnot fun c hc => (hall c hc).resolve_right fun heq => hdot (heq ▸ hc)
  obtain ⟨⟨d, hd, hdigit⟩, -⟩ := solid_of_wellFormed hnum
  have hcount : 2 ≤ (num ++ ['.']).count '.' := by
    rw [List.count_append]
    have := List.count_pos_iff.mpr hdot
    simpa using this
  exact ⟨_, .many rfl (List.forall_mem_append.mpr ⟨hall, by simp⟩) hcount
    ⟨d, List.mem_append_left _ (List.mem_of_head? hd), hdigit⟩⟩

/-- What a mark before a number, or behind it, leaves of the text. -/
theorem Shown.menuText_before (h : Shown pre num [] raw) (hnum : Bank.WellFormed num n) (hpre : IsMark pre) :
    MenuPrice.menuText raw = if IsBss pre then '.' :: num else num := by
  rw [h.menuText hnum, mark_left hpre]
  split <;> simp [withoutNoise]

theorem Shown.menuText_after (h : Shown [] num post raw) (hnum : Bank.WellFormed num n) (hpost : IsMark post) :
    MenuPrice.menuText raw = if IsBss post then num ++ ['.'] else num := by
  rw [h.menuText hnum, mark_left hpost]
  split <;> simp [withoutNoise]

/-- A rendering with or without a mark can be read, except when it is refused. -/
theorem Shown.readable (h : Shown pre num post raw) (hnum : Bank.WellFormed num n) (hnot : ¬Refused raw)
    (hcase : pre = [] ∧ post = [] ∨ IsMark pre ∧ post = [] ∨ pre = [] ∧ IsMark post) :
    Readable (MenuPrice.menuText raw) ∧ MenuPrice.span raw.toList = num := by
  have hself : Readable num := ⟨n, taken_of_wellFormed hnum⟩
  rcases hcase with ⟨rfl, rfl⟩ | ⟨hmark, rfl⟩ | ⟨rfl, hmark⟩
  · refine ⟨?_, h.span hnum (by simp) (by simp)⟩
    rw [h.menuText hnum]
    simpa [withoutNoise] using hself
  · refine ⟨?_, h.span hnum (isDigit_of_mark hmark) (by simp)⟩
    rw [h.menuText_before hnum hmark]
    split_ifs with hbss
    · exact (readable_before hnum).mpr fun href => hnot ⟨pre, num, [], n, hnum, h, .inl ⟨hbss, rfl, href⟩⟩
    · exact hself
  · refine ⟨?_, h.span hnum (by simp) (isDigit_of_mark hmark)⟩
    rw [h.menuText_after hnum hmark]
    split_ifs with hbss
    · exact (readable_after hnum).mpr fun href => hnot ⟨[], num, post, n, hnum, h, .inr ⟨rfl, hbss, href⟩⟩
    · exact hself

/-- What is refused is not read. -/
theorem Refused.not_readsStandard (h : Refused raw) : ¬ReadsStandard raw := by
  obtain ⟨pre, num, post, n, hnum, hshown, ⟨hbss, rfl, href⟩ | ⟨rfl, hbss, href⟩⟩ := h
  · intro hreads
    have hread := hreads _ _ _ _ hnum hshown (.inr (.inl ⟨hbss.isMark, rfl⟩))
    obtain ⟨m, -, htaken⟩ := parseMenuPrice_eq_some.mp hread
    rw [hshown.menuText_before hnum hbss.isMark, if_pos hbss] at htaken
    exact (readable_before hnum).mp ⟨m, htaken⟩ href
  · intro hreads
    have hread := hreads _ _ _ _ hnum hshown (.inr (.inr ⟨rfl, hbss.isMark⟩))
    obtain ⟨m, -, htaken⟩ := parseMenuPrice_eq_some.mp hread
    rw [hshown.menuText_after hnum hbss.isMark, if_pos hbss] at htaken
    exact (readable_after hnum).mp ⟨m, htaken⟩ href

/-- Where nothing is guessed every standard rendering is read, except the refused ones. -/
theorem readsStandard_iff (hnever : NeverGuesses raw) : ReadsStandard raw ↔ ¬Refused raw := by
  refine ⟨fun hreads href => href.not_readsStandard hreads, fun hnot => ?_⟩
  intro pre num post n hnum hshown hcase
  obtain ⟨⟨m, htaken⟩, hspan⟩ := hshown.readable hnum hnot hcase
  have hread := parseMenuPrice_eq_some.mpr ⟨m, rfl, htaken⟩
  obtain ⟨k, hk, hwell⟩ := hnever _ hread
  rw [hspan] at hwell
  rw [hread, hk, hwell.unique hnum]

end Standard

/-- A price is never guessed and every standard rendering is read, for the texts that are neither misread
nor refused. -/
theorem menuPrice_iff (raw : String) :
    NeverGuesses raw ∧ ReadsStandard raw ↔ ¬Misread raw ∧ ¬Refused raw := by
  rw [← neverGuesses_iff]
  exact and_congr_right readsStandard_iff

/-- «2 x 12,50» is taken for 212,50. -/
theorem two_numbers_glued : parseMenuPrice (some "2 x 12,50") = some "21250" ∧
    ¬(NeverGuesses "2 x 12,50" ∧ ReadsStandard "2 x 12,50") := by
  have hread : parseMenuPrice (some "2 x 12,50") = some "21250" := by decide +kernel
  refine ⟨hread, ?_⟩
  rintro ⟨hnever, -⟩
  obtain ⟨n, -, hwell⟩ := hnever _ hread
  have hspan : ' ' ∈ span "2 x 12,50".toList := by decide +kernel
  exact absurd (hwell.parts _ hspan) (by decide)

end Splite.MenuPrice
