import Splite.Lib.Decimal
import Splite.Lib.Except
import Splite.Mercantil.Matcher

/-!
# The amount of a movement (`parseAmount` of `services/bankMovementNormalizer.js`)

* `parseAmount_eq_ok`: a text is taken for an amount when it `Reads` as one.
* `reads_of_wellFormed`, `Reads.cases`: every well-formed amount is read as what it is, and what else is
  read is one of the three kinds of `Misread`.
* `parseAmount_standard`: the renderings of two countries, and the debits among them.
* `neverGuessed_iff`: which texts are taken for an amount that they do not write.
-/

namespace Splite.Bank

open Mercantil (isSpace trimmed filter_trimmed)
open Decimal

/-- The reasons of `parseAmount`. -/
inductive AmountReason where
  | amount
  | amountPrecision
  | debit
  deriving DecidableEq, Repr

/-- `.trim().replace(/\s/g, '')`. -/
def unspaced (raw : String) : List Char := (trimmed raw.toList).filter fun c => !isSpace c

/-- The text starts with `word`, which is in lower case, in any case. -/
def startsWithWord (s word : List Char) : Bool := (s.take word.length).map Char.toLower = word

/-- `.replace(/^c/i, '')`. -/
def dropOne (c : Char) : List Char → List Char
  | [] => []
  | d :: s => if d.toLower = c then s else d :: s

/-- `.replace(/^(bs\.?s?|ves|bs)/i, '')`. -/
def dropCurrency (s : List Char) : List Char :=
  if startsWithWord s ['b', 's'] then dropOne 's' (dropOne '.' (s.drop 2))
  else if startsWithWord s ['v', 'e', 's'] then s.drop 3
  else s

/-- `/^\(.*\)$/.test(s)`: no line break is left in `s`. -/
def inParens (s : List Char) : Bool := s.head? = some '(' ∧ s.tail.getLast? = some ')'

/-- Whether the amount is `negative`, and the amount without what says so. -/
def unsign (s : List Char) : Bool × List Char :=
  let (negative, s) := if inParens s then (true, s.tail.dropLast) else (false, s)
  let (negative, s) := if s.head? = some '-' then (true, s.tail) else (negative, s)
  if s.getLast? = some '-' then (true, s.dropLast) else (negative, s)

def isSeparator (c : Char) : Bool := c = '.' ∨ c = ','

/-- `[0-9.,]`. -/
def isAmountPart (c : Char) : Bool := c.isDigit ∨ isSeparator c

/-- `s.lastIndexOf(c)`. -/
def lastIndexOf (s : List Char) (c : Char) : Int :=
  if c ∈ s then s.length - 1 - s.reverse.idxOf c else -1

/-- The `whole` and the `frac` of an amount, told from its separators. -/
def separate (s : List Char) : Except AmountReason (List Char × List Char) :=
  let lastDot := lastIndexOf s '.'
  let lastComma := lastIndexOf s ','
  if 0 ≤ lastDot ∧ 0 ≤ lastComma then
    let decimalAt := (max lastDot lastComma).toNat
    let whole := (s.take decimalAt).filter fun c => !isSeparator c
    let frac := s.drop (decimalAt + 1)
    if frac.any isSeparator then .error .amount else .ok (whole, frac)
  else if 0 ≤ lastDot ∨ 0 ≤ lastComma then
    let sep := if 0 ≤ lastDot then '.' else ','
    let parts := s.splitOn sep
    let tailPart := parts.getLastD []
    if parts.length = 2 ∧ 1 ≤ tailPart.length ∧ tailPart.length ≤ 2 then .ok (parts.headD [], tailPart)
    else if parts.tail.all fun p => p.length = 3 then .ok (parts.flatten, [])
    else .error .amount
  else .ok (s, [])

/-- `(whole || '0') + frac.padEnd(2, '0')`. -/
def minorDigits (whole frac : List Char) : List Char :=
  (if whole = [] then ['0'] else whole) ++ (frac ++ List.replicate (2 - frac.length) '0')

/-- `parseAmount(raw)`, the céntimos. -/
def parseAmount (raw : Option String) : Except AmountReason Nat :=
  match raw with
  | none => .error .amount
  | some raw => do
    let (negative, s) := unsign (dropCurrency (unspaced raw))
    let s := dropOne '+' s
    Except.require (s ≠ [] ∧ s.all isAmountPart ∧ s.any Char.isDigit) .amount
    let (whole, frac) ← separate s
    Except.require (frac.length ≤ 2) .amountPrecision
    Except.require (whole.all Char.isDigit ∧ frac.all Char.isDigit) .amount
    let minor := value (minorDigits whole frac)
    Except.require (negative = false) .debit
    Except.require (0 < minor) .amount
    return minor

example : parseAmount (some "Bs. 1.234,56") = .ok 123456 := by decide +kernel

example : parseAmount (some "(1,234.56)") = .error .debit := by decide +kernel

/-! ## The separators -/

variable {s t whole frac : List Char} {c d sep dec : Char}

theorem isSeparator_iff : isSeparator c ↔ c = '.' ∨ c = ',' := by simp [isSeparator]

theorem isAmountPart_iff : isAmountPart c ↔ c.isDigit ∨ c = '.' ∨ c = ',' := by
  simp [isAmountPart, isSeparator_iff]

theorem isSeparator_of_isDigit (h : c.isDigit) : isSeparator c = false := by
  rw [← Bool.not_eq_true, isSeparator_iff]
  rintro (rfl | rfl) <;> exact absurd h (by decide)

theorem isDigit_of_isSeparator (h : isSeparator c) : c.isDigit = false := by
  rw [← Bool.not_eq_true]
  intro hdigit
  simp [isSeparator_of_isDigit hdigit] at h

theorem exists_last (h : c ∈ s) : ∃ a b, s = a ++ c :: b ∧ c ∉ b := by
  obtain ⟨a, b, hs, hc⟩ := List.eq_append_cons_of_mem (List.mem_reverse.mpr h)
  refine ⟨b.reverse, a.reverse, ?_, by simpa using hc⟩
  rw [← List.reverse_reverse s, hs]
  simp

theorem lastIndexOf_append (h : c ∉ t) : lastIndexOf (s ++ c :: t) c = s.length := by
  have hmem : c ∈ s ++ c :: t := by simp
  have hidx : (s ++ c :: t).reverse.idxOf c = t.length := by
    rw [List.reverse_append, List.reverse_cons, List.append_assoc,
      List.idxOf_append_of_notMem (by simpa using h), List.length_reverse]
    simp
  rw [lastIndexOf, if_pos hmem, hidx, List.length_append, List.length_cons]
  push_cast
  omega

theorem lastIndexOf_nonneg : 0 ≤ lastIndexOf s c ↔ c ∈ s := by
  constructor
  · intro h
    by_contra hnot
    rw [lastIndexOf, if_neg hnot] at h
    omega
  · intro h
    obtain ⟨a, b, rfl, hb⟩ := exists_last h
    rw [lastIndexOf_append hb]
    omega

/-- The last place of what stands only before `d` is before that of `d`. -/
theorem lastIndexOf_lt (hs : c ∈ s) (hne : c ≠ d) (ht : c ∉ t) :
    lastIndexOf (s ++ d :: t) c < s.length := by
  obtain ⟨a, b, rfl, hb⟩ := exists_last hs
  rw [List.append_assoc, List.cons_append, lastIndexOf_append (by simp [hb, hne, ht]),
    List.length_append, List.length_cons]
  omega

/-- The two separators of an amount, in one order or the other. -/
def Separators (sep dec : Char) : Prop := sep = '.' ∧ dec = ',' ∨ sep = ',' ∧ dec = '.'

theorem Separators.ne (h : Separators sep dec) : sep ≠ dec := by
  rcases h with ⟨rfl, rfl⟩ | ⟨rfl, rfl⟩ <;> decide

theorem Separators.unique {sep' : Char} (h : Separators sep dec) (h' : Separators sep' dec) :
    sep = sep' := by
  rcases h with ⟨rfl, rfl⟩ | ⟨rfl, rfl⟩ <;> rcases h' with ⟨rfl, h⟩ | ⟨rfl, h⟩ <;> simp_all

theorem Separators.left (h : Separators sep dec) : isSeparator sep := by
  rcases h with ⟨rfl, -⟩ | ⟨rfl, -⟩ <;> rfl

theorem Separators.right (h : Separators sep dec) : isSeparator dec := by
  rcases h with ⟨-, rfl⟩ | ⟨-, rfl⟩ <;> rfl

/-- What the separators of a text of digits and separators can be. -/
inductive Shape : List Char → Prop where
  | bare {s : List Char} (hs : IsDigits s) : Shape s
  | one {sep : Char} {first : List Char} {rest : List (List Char)} (hsep : isSeparator sep)
      (hdigits : IsDigits (first :: rest).flatten) (hrest : rest ≠ []) :
      Shape ([sep].intercalate (first :: rest))
  | both {sep dec : Char} {whole frac : List Char} (hsep : Separators sep dec) (hmem : sep ∈ whole)
      (hwhole : ∀ c ∈ whole, isAmountPart c) (hfrac : IsDigits frac) : Shape (whole ++ dec :: frac)

/-- Digits and one separator are groups of digits. -/
theorem exists_groups (h : ∀ c ∈ s, c.isDigit ∨ c = sep) :
    ∃ first rest, s = [sep].intercalate (first :: rest) ∧ IsDigits (first :: rest).flatten := by
  induction s with
  | nil => exact ⟨[], [], by simp, by simp [IsDigits]⟩
  | cons c s ih =>
    obtain ⟨hc, hs⟩ := List.forall_mem_cons.mp h
    obtain ⟨first, rest, rfl, hdigits⟩ := ih hs
    rcases hc with hc | rfl
    · refine ⟨c :: first, rest, ?_, ?_⟩
      · cases rest <;> simp [List.intercalate_cons_cons]
      · exact List.forall_mem_cons.mpr ⟨hc, hdigits⟩
    · exact ⟨[], first :: rest, by simp [List.intercalate_cons_cons], hdigits⟩

theorem exists_other (h : isSeparator sep) : ∃ other, Separators sep other := by
  rcases isSeparator_iff.mp h with rfl | rfl
  · exact ⟨',', .inl ⟨rfl, rfl⟩⟩
  · exact ⟨'.', .inr ⟨rfl, rfl⟩⟩

theorem Separators.symm (h : Separators sep dec) : Separators dec sep :=
  (Or.symm h).imp And.symm And.symm

theorem Separators.part (h : Separators sep dec) : isAmountPart c ↔ c.isDigit ∨ c = sep ∨ c = dec := by
  rw [isAmountPart_iff]
  rcases h with ⟨rfl, rfl⟩ | ⟨rfl, rfl⟩
  · exact Iff.rfl
  · rw [or_comm (a := c = '.')]

theorem shape_of_one (hsep : Separators sep dec) (h : ∀ c ∈ s, isAmountPart c) (hdec : dec ∉ s) :
    Shape s := by
  have hone : ∀ c ∈ s, c.isDigit ∨ c = sep := by
    intro c hc
    rcases hsep.part.mp (h c hc) with hdigit | rfl | rfl
    · exact .inl hdigit
    · exact .inr rfl
    · exact absurd hc hdec
  obtain ⟨first, rest, rfl, hdigits⟩ := exists_groups hone
  by_cases hrest : rest = []
  · subst hrest
    exact .bare (by simpa using hdigits)
  · exact .one hsep.left hdigits hrest

theorem shape_of_both (hsep : Separators sep dec) (h : ∀ c ∈ s, isAmountPart c) (hs : sep ∈ s)
    (hd : dec ∈ s) : Shape s := by
  obtain ⟨a, b, rfl, hb⟩ := exists_last hd
  obtain ⟨ha, hdecb⟩ := List.forall_mem_append.mp h
  obtain ⟨-, hparts⟩ := List.forall_mem_cons.mp hdecb
  by_cases hsepb : sep ∈ b
  · -- The other separator comes later.
    obtain ⟨a', b', rfl, hb'⟩ := exists_last hsepb
    rw [show a ++ dec :: (a' ++ sep :: b') = (a ++ dec :: a') ++ sep :: b' by simp] at h ⊢
    obtain ⟨hwhole, hfrac⟩ := List.forall_mem_append.mp h
    refine .both hsep.symm (by simp) hwhole fun c hc => ?_
    rcases hsep.part.mp (hfrac c (List.mem_cons_of_mem _ hc)) with hdigit | rfl | rfl
    · exact hdigit
    · exact absurd hc hb'
    · exact absurd (by simp [hc]) hb
  · refine .both hsep ?_ ha fun c hc => ?_
    · simpa [hsep.ne, hsepb] using hs
    · rcases hsep.part.mp (hparts c hc) with hdigit | rfl | rfl
      · exact hdigit
      · exact absurd hc hsepb
      · exact absurd hc hb

/-- Every text of digits and separators has one of the three shapes. -/
theorem shape (h : ∀ c ∈ s, isAmountPart c) : Shape s := by
  by_cases hdot : '.' ∈ s
  · by_cases hcomma : ',' ∈ s
    · exact shape_of_both (.inl ⟨rfl, rfl⟩) h hdot hcomma
    · exact shape_of_one (.inl ⟨rfl, rfl⟩) h hcomma
  · exact shape_of_one (.inr ⟨rfl, rfl⟩) h hdot

/-! ## What the separators are taken for -/

theorem separate_bare (h : IsDigits s) : separate s = .ok (s, []) := by
  have hnot : ∀ {c}, isSeparator c → ¬0 ≤ lastIndexOf s c := fun hc hmem =>
    h.not_mem (isDigit_of_isSeparator hc) (lastIndexOf_nonneg.mp hmem)
  have hdot := hnot (c := '.') rfl
  have hcomma := hnot (c := ',') rfl
  simp [separate, hdot, hcomma]

theorem separate_one {first : List Char} {rest : List (List Char)} (hsep : isSeparator sep)
    (hdigits : IsDigits (first :: rest).flatten) (hrest : rest ≠ []) :
    separate ([sep].intercalate (first :: rest)) =
      if rest.length = 1 ∧ 1 ≤ (rest.getLastD []).length ∧ (rest.getLastD []).length ≤ 2 then
        .ok (first, rest.getLastD [])
      else if rest.all fun p => p.length = 3 then .ok ((first :: rest).flatten, [])
      else .error .amount := by
  set s := [sep].intercalate (first :: rest) with hs
  have hmem : sep ∈ s := by
    obtain ⟨g, gs, rfl⟩ := List.exists_cons_of_ne_nil hrest
    rw [hs, List.intercalate_cons_cons]
    simp
  have hother : ∀ {c}, isSeparator c → c ≠ sep → ¬0 ≤ lastIndexOf s c := by
    intro c hc hne hpos
    rcases intercalate_of_isDigits hdigits (lastIndexOf_nonneg.mp hpos) with hdigit | rfl
    · simp [isSeparator_of_isDigit hdigit] at hc
    · exact hne rfl
  have hparts : s.splitOn sep = first :: rest :=
    splitOn_intercalate (isDigit_of_isSeparator hsep) hdigits (by simp)
  have hlast : (first :: rest).getLastD [] = rest.getLastD [] := by
    obtain ⟨g, gs, rfl⟩ := List.exists_cons_of_ne_nil hrest
    simp [List.getLastD]
  have hone := lastIndexOf_nonneg.mpr hmem
  have hlen : (first :: rest).length = 2 ↔ rest.length = 1 := by simp
  rcases isSeparator_iff.mp hsep with rfl | rfl
  · have hno := hother (c := ',') rfl (by decide)
    simp only [separate, hone, hno, and_false, if_false, or_false, if_true, hparts, hlast, hlen,
      List.headD_cons, List.tail_cons]
  · have hno := hother (c := '.') rfl (by decide)
    simp only [separate, hone, hno, false_and, if_false, false_or, if_true, hparts, hlast, hlen,
      List.headD_cons, List.tail_cons]

theorem separate_both (hsep : Separators sep dec) (hmem : sep ∈ whole) (hfrac : IsDigits frac) :
    separate (whole ++ dec :: frac) = .ok (whole.filter fun c => !isSeparator c, frac) := by
  have hnot : ∀ {c}, isSeparator c → c ∉ frac := fun hc => hfrac.not_mem (isDigit_of_isSeparator hc)
  have hdec := lastIndexOf_append (s := whole) (hnot hsep.right)
  have hlt := lastIndexOf_lt (d := dec) hmem hsep.ne (hnot hsep.left)
  have hle : 0 ≤ lastIndexOf (whole ++ dec :: frac) sep := lastIndexOf_nonneg.mpr (by simp [hmem])
  have hat : (max (lastIndexOf (whole ++ dec :: frac) '.') (lastIndexOf (whole ++ dec :: frac) ',')).toNat =
      whole.length := by
    rcases hsep with ⟨rfl, rfl⟩ | ⟨rfl, rfl⟩ <;> omega
  have hboth : 0 ≤ lastIndexOf (whole ++ dec :: frac) '.' ∧ 0 ≤ lastIndexOf (whole ++ dec :: frac) ',' := by
    rcases hsep with ⟨rfl, rfl⟩ | ⟨rfl, rfl⟩ <;> omega
  have hno : frac.any isSeparator = false := by
    rw [List.any_eq_false]
    intro c hc hc'
    exact hnot hc' hc
  have hdrop : (whole ++ dec :: frac).drop (whole.length + 1) = frac := by
    rw [List.drop_append]
    simp
  simp only [separate, if_pos hboth, hat, List.take_left, hdrop, hno]
  simp

/-! ## What is read -/

theorem value_minorDigits (h : frac.length ≤ 2) :
    value (minorDigits whole frac) = value whole * 100 + hundredths frac := by
  have hzero : value ['0'] = 0 := by decide
  have hlen : (frac ++ List.replicate (2 - frac.length) '0').length = 2 := by
    simp only [List.length_append, List.length_replicate]
    omega
  unfold minorDigits hundredths
  rw [value_append, hlen]
  split
  · rename_i hnil
    rw [hnil, hzero, value_nil, Nat.zero_mul, Nat.zero_mul]
  · rfl

theorem unsign_of_plain (hparen : '(' ∉ s) (hminus : '-' ∉ s) : unsign s = (false, s) := by
  have hhead : ∀ {c}, c ∉ s → s.head? ≠ some c := fun hc h => hc (List.mem_of_head? h)
  have hlast : s.getLast? ≠ some '-' := fun h => hminus (List.mem_of_getLast? h)
  simp [unsign, inParens, hhead hparen, hhead hminus, hlast]

/-- What carries no sign is left as it is. -/
theorem unsign_eq_false (h : (unsign s).1 = false) : (unsign s).2 = s := by
  unfold unsign at h ⊢
  by_cases hparen : inParens s
  · simp only [hparen, if_true] at h
    split_ifs at h
  · by_cases hminus : s.head? = some '-'
    · simp only [hparen] at h
      split_ifs at h
    · by_cases hlast : s.getLast? = some '-'
      · simp [hparen, hminus, hlast] at h
      · simp [hparen, hminus, hlast]

/-- The amount without blanks, currency and plus sign. -/
def body (raw : String) : List Char := dropOne '+' (dropCurrency (unspaced raw))

theorem unsign_of_body (h : ∀ c ∈ dropOne '+' s, isAmountPart c) : unsign s = (false, s) := by
  have hnot : ∀ {c}, isAmountPart c = false → c.toLower ≠ '+' → c ∉ s := by
    intro c hpart hplus hmem
    cases s with
    | nil => simp at hmem
    | cons d s =>
      by_cases hd : d.toLower = '+'
      · rw [dropOne, if_pos hd] at h
        rcases List.mem_cons.mp hmem with rfl | hmem
        · exact hplus hd
        · simp [h c hmem] at hpart
      · rw [dropOne, if_neg hd] at h
        simp [h c hmem] at hpart
  exact unsign_of_plain (hnot (by decide) (by decide)) (hnot (by decide) (by decide))

/-- `text` is taken for an amount of `n` céntimos. -/
def Reads (text : List Char) (n : Nat) : Prop :=
  (∀ c ∈ text, isAmountPart c) ∧ (∃ c ∈ text, c.isDigit) ∧
    ∃ whole frac, separate text = .ok (whole, frac) ∧ frac.length ≤ 2 ∧ IsDigits whole ∧
      IsDigits frac ∧ n = value whole * 100 + hundredths frac ∧ 0 < n

/-- A text that is read is an amount, or a debit when a sign was taken off it. -/
theorem parseAmount_of_reads {raw : String} {negative : Bool} {text : List Char} {n : Nat}
    (h : unsign (dropCurrency (unspaced raw)) = (negative, text)) (hreads : Reads (dropOne '+' text) n) :
    parseAmount (some raw) = if negative then .error .debit else .ok n := by
  obtain ⟨hparts, hdigit, whole, frac, hsep, hlen, hwhole, hfrac, rfl, hn⟩ := hreads
  have hne : dropOne '+' text ≠ [] := by
    obtain ⟨c, hc, -⟩ := hdigit
    exact List.ne_nil_of_mem hc
  have hpass : ∀ {c : Prop} [Decidable c] {err : AmountReason}, c → Except.require c err = .ok () :=
    fun hc => Except.require_eq_ok.mpr hc
  dsimp only [parseAmount]
  rw [h]
  dsimp only
  rw [hpass ⟨hne, by simpa using hparts, by simpa using hdigit⟩, Except.ok_bind, hsep, Except.ok_bind]
  dsimp only
  rw [hpass hlen, Except.ok_bind, hpass ⟨by simpa [IsDigits] using hwhole, by simpa [IsDigits] using hfrac⟩,
    Except.ok_bind, value_minorDigits hlen]
  cases negative with
  | true => rfl
  | false => rw [hpass rfl, Except.ok_bind, hpass hn, Except.ok_bind]; rfl

theorem parseAmount_eq_ok {raw : String} {n : Nat} :
    parseAmount (some raw) = .ok n ↔ Reads (body raw) n := by
  set s := dropCurrency (unspaced raw) with hs
  have hbody : body raw = dropOne '+' s := rfl
  constructor
  · simp only [parseAmount, ← hs, Except.bind_eq_ok, Except.require_eq_ok, List.all_eq_true,
      List.any_eq_true, Except.pure_eq_ok, Prod.exists]
    rintro ⟨-, ⟨-, hparts, hdigit⟩, whole, frac, hsep, -, hlen, -, hdigits, -, hpos, -, hn, rfl⟩
    rw [unsign_eq_false hpos] at hparts hdigit hsep
    rw [value_minorDigits hlen] at hn ⊢
    exact ⟨hparts, hdigit, whole, frac, hsep, hlen, hdigits.1, hdigits.2, rfl, hn⟩
  · intro hreads
    exact parseAmount_of_reads (unsign_of_body hreads.1) hreads

/-! ## Well-formed amounts -/

/-- `text` is a well-formed rendering of `n` céntimos, whichever of the separators is the decimal
one. -/
def WellFormed (text : List Char) (n : Nat) : Prop :=
  ∃ sep dec, Separators sep dec ∧ Renders sep dec n text

/-- Groups of three after the first are all of the whole part. -/
theorem separate_groups {first : List Char} {rest : List (List Char)} (hsep : isSeparator sep)
    (hdigits : IsDigits (first :: rest).flatten) (hne : rest ≠ []) (hrest : ∀ g ∈ rest, g.length = 3) :
    separate ([sep].intercalate (first :: rest)) = .ok ((first :: rest).flatten, []) := by
  have hlast : (rest.getLastD []).length = 3 := by
    obtain ⟨g, gs, rfl⟩ := List.exists_cons_of_ne_nil hne
    rw [List.getLastD_cons]
    exact hrest _ List.getLastD_mem_cons
  rw [separate_one hsep hdigits hne, if_neg (by omega), if_pos (by simpa using hrest)]

theorem mem_intercalate {first : List Char} {rest : List (List Char)} (hne : rest ≠ []) :
    sep ∈ [sep].intercalate (first :: rest) := by
  obtain ⟨g, gs, rfl⟩ := List.exists_cons_of_ne_nil hne
  simp [List.intercalate_cons_cons]

/-- What the separators of a well-formed amount are taken for is what they are. -/
theorem separate_whole {digits : List Char} (hsep : Separators sep dec) (h : Whole sep digits whole) :
    separate whole = .ok (digits, []) := by
  have hdigits := h.1
  rcases h.cases with rfl | ⟨first, rest, hne, -, hrest, rfl, rfl⟩
  · exact separate_bare hdigits
  · exact separate_groups hsep.left hdigits hne hrest

theorem separate_fraction {digits : List Char} (hsep : Separators sep dec) (h : Whole sep digits whole)
    (hfrac : IsDigits frac) (hlen : 1 ≤ frac.length ∧ frac.length ≤ 2) :
    separate (whole ++ dec :: frac) = .ok (digits, frac) := by
  have hdigits := h.1
  rcases h.cases with rfl | ⟨first, rest, hne, -, -, rfl, rfl⟩
  · have hboth : IsDigits [whole, frac].flatten := by
      simpa [isDigits_append] using ⟨hdigits, hfrac⟩
    have hone := separate_one hsep.right hboth (by simp)
    rw [if_pos (by simpa using hlen)] at hone
    simpa [List.intercalate_cons_cons] using hone
  · have hfilter : ([sep].intercalate (first :: rest)).filter (fun c => !isSeparator c) =
        (first :: rest).flatten := by
      rw [← filter_intercalate (isDigit_of_isSeparator hsep.left) hdigits]
      refine List.filter_congr fun c hc => ?_
      rcases h.chars c hc with hdigit | rfl
      · simp [hdigit, isSeparator_of_isDigit hdigit]
      · simp [hsep.left, isDigit_of_isSeparator hsep.left]
    rw [separate_both hsep (mem_intercalate hne) hfrac, hfilter]

/-- A well-formed amount is read as what it is. -/
theorem reads_of_wellFormed {text : List Char} {n : Nat} (h : WellFormed text n) (hn : 0 < n) :
    Reads text n := by
  obtain ⟨sep, dec, hsep, digits, whole, hwhole, htext⟩ := h
  obtain ⟨c, cs, hhead, hc⟩ := hwhole.head
  have hparts : ∀ c ∈ whole, isAmountPart c := fun c hc =>
    hsep.part.mpr ((hwhole.chars c hc).imp id .inl)
  have hdigit : ∃ c ∈ whole, c.isDigit := ⟨c, by simp [hhead], hc⟩
  rcases htext with ⟨rfl, rfl⟩ | ⟨frac, hfrac, hlen, rfl, rfl⟩
  · exact ⟨hparts, hdigit, digits, [], separate_whole hsep hwhole, by simp, hwhole.1, by simp [IsDigits],
      by simp, hn⟩
  · refine ⟨List.forall_mem_append.mpr ⟨hparts, List.forall_mem_cons.mpr
      ⟨hsep.part.mpr (.inr (.inr rfl)), fun c hc => hsep.part.mpr (.inl (hfrac c hc))⟩⟩, ?_, digits, frac,
      separate_fraction hsep hwhole hfrac hlen, hlen.2, hwhole.1, hfrac, rfl, hn⟩
    obtain ⟨c, hc, hc'⟩ := hdigit
    exact ⟨c, List.mem_append_left _ hc, hc'⟩

theorem WellFormed.parts {text : List Char} {n : Nat} (h : WellFormed text n) : ∀ c ∈ text, isAmountPart c := by
  obtain ⟨sep, dec, hsep, digits, whole, hwhole, htext⟩ := h
  have hparts : ∀ c ∈ whole, isAmountPart c := fun c hc =>
    hsep.part.mpr ((hwhole.chars c hc).imp id .inl)
  rcases htext with ⟨rfl, -⟩ | ⟨frac, hfrac, -, rfl, -⟩
  · exact hparts
  · exact List.forall_mem_append.mpr ⟨hparts, List.forall_mem_cons.mpr
      ⟨hsep.part.mpr (.inr (.inr rfl)), fun c hc => hsep.part.mpr (.inl (hfrac c hc))⟩⟩

/-- A text is a well-formed rendering of one amount at most. -/
theorem WellFormed.unique {text : List Char} {n m : Nat} (h : WellFormed text n) (h' : WellFormed text m) :
    n = m := by
  have hvalue : ∀ {n}, WellFormed text n → ∃ whole frac, separate text = .ok (whole, frac) ∧
      n = value whole * 100 + hundredths frac := by
    rintro n ⟨sep, dec, hsep, digits, whole, hwhole, ⟨rfl, rfl⟩ | ⟨frac, hfrac, hlen, rfl, rfl⟩⟩
    · exact ⟨digits, [], separate_whole hsep hwhole, by simp⟩
    · exact ⟨digits, frac, separate_fraction hsep hwhole hfrac hlen, rfl⟩
  obtain ⟨whole, frac, hok, rfl⟩ := hvalue h
  obtain ⟨whole', frac', hok', rfl⟩ := hvalue h'
  obtain ⟨rfl, rfl⟩ : whole = whole' ∧ frac = frac' := by simpa using hok.symm.trans hok'
  rfl

/-- Groups under one separator that are not of three, and no decimals either. -/
theorem not_wellFormed_uneven {first : List Char} {rest : List (List Char)} {n : Nat}
    (hsep : isSeparator sep) (hdigits : IsDigits (first :: rest).flatten) (hne : rest ≠ [])
    (hbad : ¬(first.length ≤ 3 ∧ ∀ g ∈ rest, g.length = 3)) (hdec : ∀ t, rest = [t] → 2 < t.length) :
    ¬WellFormed ([sep].intercalate (first :: rest)) n := by
  rintro ⟨sep', dec', hsep', digits, whole, hwhole, htext⟩
  have hnotDigit := isDigit_of_isSeparator hsep
  have hmem : sep ∈ [sep].intercalate (first :: rest) := mem_intercalate hne
  have hsplit := splitOn_intercalate hnotDigit hdigits (by simp)
  rcases htext with ⟨htext, -⟩ | ⟨frac, hfrac, hlen, htext, -⟩
  · rw [htext] at hmem hsplit
    obtain rfl : sep = sep' := (hwhole.chars sep hmem).resolve_left (by simp [hnotDigit])
    rcases hwhole.cases with rfl | ⟨first', rest', -, hshort, hthree, rfl, rfl⟩
    · exact hwhole.1.not_mem hnotDigit hmem
    · rw [splitOn_intercalate hnotDigit hwhole.1 (by simp), List.cons.injEq] at hsplit
      obtain ⟨rfl, rfl⟩ := hsplit
      exact hbad ⟨hshort, hthree⟩
  · have hchars : ∀ c ∈ whole ++ dec' :: frac, c.isDigit ∨ c = sep := fun c hc =>
      intercalate_of_isDigits hdigits (htext ▸ hc)
    obtain rfl : dec' = sep := (hchars dec' (by simp)).resolve_left
      (by simp [isDigit_of_isSeparator hsep'.right])
    -- The other separator is nowhere, so the whole part is bare.
    have hwholeDigits : IsDigits whole := fun c hc => (hwhole.chars c hc).elim id fun heq => by
      rcases hchars c (List.mem_append_left _ hc) with hdigit | hc'
      · exact hdigit
      · exact absurd (heq.symm.trans hc') hsep'.ne
    rw [htext, show whole ++ dec' :: frac = [dec'].intercalate [whole, frac] by
      simp [List.intercalate_cons_cons],
      splitOn_intercalate hnotDigit (by simpa [isDigits_append] using ⟨hwholeDigits, hfrac⟩) (by simp),
      List.cons.injEq] at hsplit
    have := hdec frac hsplit.2.symm
    omega

/-! ## Amounts that are misread -/

/-- A text of digits and separators that is taken for an amount and is not a well-formed one. -/
inductive Misread : List Char → Prop where
  /-- Both separators, and nothing after the last one, or before it no groups under the other. -/
  | ragged {sep dec : Char} {whole frac : List Char} (hsep : Separators sep dec) (hmem : sep ∈ whole)
      (hwhole : ∀ c ∈ whole, isAmountPart c) (hfrac : IsDigits frac) (hlen : frac.length ≤ 2)
      (h : frac = [] ∨ ∀ digits, ¬Whole sep digits whole) : Misread (whole ++ dec :: frac)
  /-- Decimals with nothing before their separator. -/
  | headless {dec : Char} {frac : List Char} (hdec : isSeparator dec) (hfrac : IsDigits frac)
      (hlen : 1 ≤ frac.length ∧ frac.length ≤ 2) : Misread (dec :: frac)
  /-- Groups of three after a first one that is empty, or longer than three. -/
  | overgrown {sep : Char} {first : List Char} {rest : List (List Char)} (hsep : isSeparator sep)
      (hdigits : IsDigits (first :: rest).flatten) (hne : rest ≠ []) (hrest : ∀ g ∈ rest, g.length = 3)
      (hfirst : first = [] ∨ 3 < first.length) : Misread ([sep].intercalate (first :: rest))

/-- What is read is a well-formed amount, or a misread one. -/
theorem Reads.cases {text : List Char} {n : Nat} (h : Reads text n) :
    WellFormed text n ∨ Misread text := by
  obtain ⟨hparts, ⟨c, hc, hdigit⟩, whole', frac', hseparate, hlen, -, -, hn, -⟩ := h
  cases shape hparts with
  | bare hs =>
    rw [separate_bare hs] at hseparate
    obtain ⟨rfl, rfl⟩ : whole' = text ∧ frac' = [] := by simpa [eq_comm] using hseparate
    exact .inl ⟨'.', ',', .inl ⟨rfl, rfl⟩, whole', whole', ⟨hs, .inl ⟨List.ne_nil_of_mem hc, rfl⟩⟩,
      .inl ⟨rfl, by simpa using hn⟩⟩
  | @one sep first rest hsep hdigits hne =>
    obtain ⟨other, hother⟩ := exists_other hsep
    rw [separate_one hsep hdigits hne] at hseparate
    split_ifs at hseparate with htail hrest
    · -- One separator, and one or two digits after it.
      obtain ⟨frac, rfl⟩ := List.length_eq_one_iff.mp htail.1
      obtain ⟨rfl, rfl⟩ : first = whole' ∧ frac = frac' := by simpa using hseparate
      obtain ⟨hfirst, hfrac⟩ : IsDigits first ∧ IsDigits frac := by
        simpa [isDigits_append] using hdigits
      have htext : [sep].intercalate [first, frac] = first ++ sep :: frac := by
        simp [List.intercalate_cons_cons]
      rw [htext]
      have hlen : 1 ≤ frac.length ∧ frac.length ≤ 2 := by simpa using htail.2
      by_cases hnil : first = []
      · rw [hnil]
        exact .inr (.headless hsep hfrac hlen)
      · exact .inl ⟨other, sep, hother.symm, first, first, ⟨hfirst, .inl ⟨hnil, rfl⟩⟩,
          .inr ⟨frac, hfrac, hlen, rfl, hn⟩⟩
    · have hrest' : ∀ g ∈ rest, g.length = 3 := by simpa using hrest
      obtain ⟨rfl, rfl⟩ : (first :: rest).flatten = whole' ∧ [] = frac' := by simpa using hseparate
      by_cases hfirst : first = [] ∨ 3 < first.length
      · exact .inr (.overgrown hsep hdigits hne hrest' hfirst)
      · rw [not_or] at hfirst
        have hpos := List.length_pos_iff.mpr hfirst.1
        exact .inl ⟨sep, other, hother, _, _, ⟨hdigits, .inr ⟨first, rest, by omega, hrest', rfl, rfl⟩⟩,
          .inl ⟨rfl, by simpa using hn⟩⟩
  | @both sep dec whole frac hsep hmem hwhole hfrac =>
    rw [separate_both hsep hmem hfrac] at hseparate
    obtain ⟨rfl, rfl⟩ : whole.filter (fun c => !isSeparator c) = whole' ∧ frac = frac' := by
      simpa using hseparate
    by_cases hbad : frac = [] ∨ ∀ digits, ¬Whole sep digits whole
    · exact .inr (.ragged hsep hmem hwhole hfrac hlen hbad)
    · rw [not_or, not_forall_not] at hbad
      obtain ⟨hne, digits, hdigits⟩ := hbad
      have hpos := List.length_pos_iff.mpr hne
      have hsame := separate_fraction hsep hdigits hfrac ⟨hpos, hlen⟩
      rw [separate_both hsep hmem hfrac] at hsame
      obtain ⟨rfl, -⟩ : whole.filter (fun c => !isSeparator c) = digits ∧ True := by simpa using hsame
      exact .inl ⟨sep, dec, hsep, _, whole, hdigits, .inr ⟨frac, hfrac, ⟨hpos, hlen⟩, rfl, hn⟩⟩

theorem Misread.not_wellFormed {text : List Char} {n : Nat} (h : Misread text) : ¬WellFormed text n := by
  rintro ⟨sep', dec', hsep', digits, whole', hwhole', htext⟩
  obtain ⟨c, cs, hhead, hc⟩ := hwhole'.head
  have hstart : text.head? = some c := by
    rcases htext with ⟨rfl, -⟩ | ⟨frac, -, -, rfl, -⟩ <;> simp [hhead]
  cases h with
  | @ragged sep dec whole frac hsep hmem hwhole hfrac hlen hbad =>
    have hseparate := separate_both hsep hmem hfrac
    rcases htext with ⟨htext, -⟩ | ⟨frac', hfrac', hlen', htext, -⟩
    · -- Only one separator can be in it.
      have hchar : ∀ d ∈ whole ++ dec :: frac, d.isDigit ∨ d = sep' := htext ▸ hwhole'.chars
      have hsepIs : sep = sep' := (hchar sep (by simp [hmem])).resolve_left
        (by simp [isDigit_of_isSeparator hsep.left])
      have hdecIs : dec = sep' := (hchar dec (by simp)).resolve_left
        (by simp [isDigit_of_isSeparator hsep.right])
      exact hsep.ne (hsepIs.trans hdecIs.symm)
    · have hsame := separate_fraction hsep' hwhole' hfrac' hlen'
      rw [← htext, hseparate] at hsame
      obtain ⟨-, rfl⟩ : True ∧ frac = frac' := by
        simpa using And.right (Prod.mk.inj (Except.ok.inj hsame))
      obtain ⟨rfl, hdec⟩ := List.append_inj' htext rfl
      obtain rfl : dec = dec' := (List.cons.inj hdec).1
      obtain rfl : sep = sep' := hsep.unique hsep'
      rcases hbad with rfl | hbad
      · simp at hlen'
      · exact hbad _ hwhole'
  | @headless dec frac hdec hfrac hlen =>
    obtain rfl : dec = c := by simpa using hstart
    simp [isDigit_of_isSeparator hdec] at hc
  | @overgrown sep first rest hsep hdigits hne hrest hfirst =>
    have hnotDigit := isDigit_of_isSeparator hsep
    rcases hfirst with rfl | hlong
    · obtain ⟨g, gs, rfl⟩ := List.exists_cons_of_ne_nil hne
      obtain rfl : sep = c := by simpa [List.intercalate_cons_cons] using hstart
      simp [hnotDigit] at hc
    · rcases htext with ⟨htext, -⟩ | ⟨frac', hfrac', hlen', htext, -⟩
      · have hmem : sep ∈ whole' := htext ▸ mem_intercalate hne
        obtain rfl : sep = sep' := (hwhole'.chars sep hmem).resolve_left (by simp [hnotDigit])
        rcases hwhole'.cases with rfl | ⟨first', rest', -, hshort, -, rfl, rfl⟩
        · exact hwhole'.1.not_mem hnotDigit hmem
        · have hsplit := congrArg (List.splitOn sep) htext
          rw [splitOn_intercalate hnotDigit hdigits (by simp),
            splitOn_intercalate hnotDigit hwhole'.1 (by simp)] at hsplit
          obtain rfl : first = first' := (List.cons.inj hsplit).1
          omega
      · have hsame := separate_fraction hsep' hwhole' hfrac' hlen'
        rw [← htext, separate_groups hsep hdigits hne hrest] at hsame
        obtain rfl : [] = frac' := (Prod.mk.inj (Except.ok.inj hsame)).2
        simp at hlen'

/-- No digit is lost. -/
theorem separate_digits {text : List Char} (hparts : ∀ c ∈ text, isAmountPart c)
    (h : separate text = .ok (whole, frac)) : text.filter Char.isDigit = whole ++ frac := by
  cases shape hparts with
  | bare hs =>
    rw [separate_bare hs] at h
    obtain ⟨rfl, rfl⟩ : text = whole ∧ [] = frac := by simpa using h
    rw [List.append_nil]
    exact List.filter_eq_self.mpr hs
  | @one sep first rest hsep hdigits hne =>
    rw [filter_intercalate (isDigit_of_isSeparator hsep) hdigits]
    rw [separate_one hsep hdigits hne] at h
    split_ifs at h with htail hrest
    · obtain ⟨tail, rfl⟩ := List.length_eq_one_iff.mp htail.1
      obtain ⟨rfl, rfl⟩ : first = whole ∧ tail = frac := by simpa using h
      simp
    · obtain ⟨rfl, rfl⟩ : (first :: rest).flatten = whole ∧ [] = frac := by simpa using h
      rw [List.append_nil]
  | @both sep dec whole' frac' hsep hmem hwhole hfrac =>
    rw [separate_both hsep hmem hfrac] at h
    obtain ⟨rfl, rfl⟩ : whole'.filter (fun c => !isSeparator c) = whole ∧ frac' = frac := by
      simpa using h
    have hsame : whole'.filter Char.isDigit = whole'.filter fun c => !isSeparator c := by
      refine List.filter_congr fun c hc => ?_
      rcases isAmountPart_iff.mp (hwhole c hc) with hdigit | hsep'
      · simp [hdigit, isSeparator_of_isDigit hdigit]
      · have hs := isSeparator_iff.mpr hsep'
        simp [hs, isDigit_of_isSeparator hs]
    rw [List.filter_append, hsame, List.filter_cons_of_neg (by simp [isDigit_of_isSeparator hsep.right]),
      List.filter_eq_self.mpr hfrac]

theorem amount_pos_iff (hwhole : IsDigits whole) (hfrac : IsDigits frac) :
    0 < value whole * 100 + hundredths frac ↔ ∃ c ∈ whole ++ frac, c ≠ '0' := by
  have hpad : IsDigits (frac ++ List.replicate (2 - frac.length) '0') :=
    isDigits_append.mpr ⟨hfrac, fun c hc => by rw [List.eq_of_mem_replicate hc]; rfl⟩
  have hzeros : (∃ c ∈ frac ++ List.replicate (2 - frac.length) '0', c ≠ '0') ↔ ∃ c ∈ frac, c ≠ '0' := by
    simp only [List.mem_append, List.mem_replicate]
    grind
  rw [Nat.add_pos_iff_pos_or_pos, Nat.mul_pos_iff_of_pos_right (by omega), value_pos_iff hwhole,
    hundredths, value_pos_iff hpad, hzeros]
  simp only [List.mem_append]
  grind

/-- A misread text is taken for an amount, unless that is zero. -/
theorem Misread.reads {text : List Char} (h : Misread text) (hpos : ∃ c ∈ text, c.isDigit ∧ c ≠ '0') :
    ∃ n, Reads text n := by
  obtain ⟨c, hc, hdigit, hne⟩ := hpos
  obtain ⟨hparts, whole, frac, hseparate, hlen, hwhole, hfrac⟩ : (∀ c ∈ text, isAmountPart c) ∧
      ∃ whole frac, separate text = .ok (whole, frac) ∧ frac.length ≤ 2 ∧ IsDigits whole ∧
        IsDigits frac := by
    have hdigits : ∀ {t}, IsDigits t → ∀ c ∈ t, isAmountPart c := fun ht c hc =>
      isAmountPart_iff.mpr (.inl (ht c hc))
    cases h with
    | @ragged sep dec whole frac hsep hmem hwhole hfrac hlen hbad =>
      refine ⟨List.forall_mem_append.mpr ⟨hwhole, List.forall_mem_cons.mpr
        ⟨hsep.part.mpr (.inr (.inr rfl)), hdigits hfrac⟩⟩, _, _, separate_both hsep hmem hfrac, hlen,
        fun c hc => ?_, hfrac⟩
      obtain ⟨hc, hnot⟩ := List.mem_filter.mp hc
      exact (isAmountPart_iff.mp (hwhole c hc)).resolve_right fun hs =>
        by simp [isSeparator_iff.mpr hs] at hnot
    | @headless dec frac hdec hfrac hlen =>
      have hone := @separate_one dec [] [frac] hdec (by simpa using hfrac) (by simp)
      rw [if_pos (by simpa using hlen)] at hone
      refine ⟨List.forall_mem_cons.mpr ⟨isAmountPart_iff.mpr (.inr (isSeparator_iff.mp hdec)),
        hdigits hfrac⟩, [], frac, by simpa [List.intercalate_cons_cons] using hone, hlen.2,
        by simp [IsDigits], hfrac⟩
    | @overgrown sep first rest hsep hdigits' hne hrest hfirst =>
      refine ⟨fun c hc => isAmountPart_iff.mpr ?_, _, _, separate_groups hsep hdigits' hne hrest, by simp,
        hdigits', by simp [IsDigits]⟩
      rcases intercalate_of_isDigits hdigits' hc with hdigit | rfl
      · exact .inl hdigit
      · exact .inr (isSeparator_iff.mp hsep)
  have hfilter := separate_digits hparts hseparate
  refine ⟨_, hparts, ⟨c, hc, hdigit⟩, whole, frac, hseparate, hlen, hwhole, hfrac, rfl, ?_⟩
  rw [amount_pos_iff hwhole hfrac, ← hfilter]
  exact ⟨c, List.mem_filter.mpr ⟨hc, hdigit⟩, hne⟩

/-- The text is taken for an amount only when it is a well-formed one, and for that one. -/
def NeverGuessed (raw : String) : Prop :=
  ∀ n, parseAmount (some raw) = .ok n → WellFormed (body raw) n

/-- A text is not guessed exactly when it is not a misread one, or is one of zero. -/
theorem neverGuessed_iff (raw : String) :
    NeverGuessed raw ↔ (Misread (body raw) → ∀ c ∈ body raw, c.isDigit → c = '0') := by
  constructor
  · intro h hmisread c hc hdigit
    by_contra hne
    obtain ⟨n, hreads⟩ := hmisread.reads ⟨c, hc, hdigit, hne⟩
    exact hmisread.not_wellFormed (h n (parseAmount_eq_ok.mpr hreads))
  · intro h n hok
    have hreads := parseAmount_eq_ok.mp hok
    rcases hreads.cases with hwell | hmisread
    · exact hwell
    · obtain ⟨hparts, -, whole, frac, hseparate, -, hwhole, hfrac, rfl, hpos⟩ := hreads
      obtain ⟨c, hc, hne⟩ := (amount_pos_iff hwhole hfrac).mp hpos
      rw [← separate_digits hparts hseparate, List.mem_filter] at hc
      exact absurd (h hmisread c hc.1 hc.2) hne

/-- Three decimals after a whole part of four digits are taken for a group of three. -/
theorem three_decimals_misread :
    parseAmount (some "1234.567") = .ok 123456700 ∧ ¬NeverGuessed "1234.567" := by
  have hok : parseAmount (some "1234.567") = .ok 123456700 := by decide +kernel
  have hbody : body "1234.567" = ['.'].intercalate [['1', '2', '3', '4'], ['5', '6', '7']] := by
    decide +kernel
  refine ⟨hok, fun h => ?_⟩
  have hwell := h _ hok
  rw [hbody] at hwell
  have hdigits : IsDigits [['1', '2', '3', '4'], ['5', '6', '7']].flatten := by decide +kernel
  exact (Misread.overgrown rfl hdigits (by simp) (by simp) (.inr (by simp))).not_wellFormed hwell

/-! ## Standard renderings -/

/-- «1.234,56» -/
def esVE : Style := ⟨'.', ','⟩

/-- «1,234.56» -/
def english : Style := ⟨',', '.'⟩

/-- What stands before an amount, in lower case. -/
def currencies : List (List Char) := [[], ['b', 's'], ['b', 's', '.'], ['v', 'e', 's']]

/-- The ways to write that an amount goes out. -/
def signed (text : List Char) : List (List Char) := ['-' :: text, text ++ ['-'], '(' :: (text ++ [')'])]

theorem toLower_of_isDigit (h : c.isDigit) : c.toLower = c := by
  have hn : 48 ≤ c.toNat ∧ c.toNat ≤ 57 := by
    simpa [Char.isDigit, UInt32.le_iff_toNat_le] using h
  unfold Char.toLower
  split_ifs with hupper
  · have : 65 ≤ c.toNat := by simpa [UInt32.le_iff_toNat_le] using hupper.1
    omega
  · rfl

theorem dropOne_of_ne {text : List Char} (h : ∀ c ∈ text.head?, c.toLower ≠ d) : dropOne d text = text := by
  cases text with
  | nil => rfl
  | cons c text => rw [dropOne, if_neg (h c rfl)]

theorem dropCurrency_append {currency text : List Char} (h : currency.map Char.toLower ∈ currencies)
    (htext : ∀ c ∈ text.head?, c.toLower ∉ ['b', 'v', 's', '.']) :
    dropCurrency (currency ++ text) = text := by
  have hno : ∀ d ∈ ['b', 'v', 's', '.'], ∀ c ∈ text.head?, c.toLower ≠ d := fun d hd c hc he =>
    htext c hc (he ▸ hd)
  have hdot := dropOne_of_ne (hno '.' (by simp))
  have hs := dropOne_of_ne (hno 's' (by simp))
  have hword : ∀ {d word}, d ∈ ['b', 'v', 's', '.'] → startsWithWord text (d :: word) = false := by
    intro d word hd
    cases text with
    | nil => simp [startsWithWord]
    | cons c text => simp [startsWithWord, hno d hd c rfl]
  simp only [currencies, List.mem_cons, List.not_mem_nil, or_false] at h
  rcases h with h | h | h | h
  · obtain rfl := List.map_eq_nil_iff.mp h
    simp [dropCurrency, hword]
  · obtain ⟨b, _, rfl, hb, h⟩ := List.map_eq_cons_iff.mp h
    obtain ⟨s, _, rfl, hs', h⟩ := List.map_eq_cons_iff.mp h
    obtain rfl := List.map_eq_nil_iff.mp h
    simp [dropCurrency, startsWithWord, hb, hs', hdot, hs]
  · obtain ⟨b, _, rfl, hb, h⟩ := List.map_eq_cons_iff.mp h
    obtain ⟨s, _, rfl, hs', h⟩ := List.map_eq_cons_iff.mp h
    obtain ⟨p, _, rfl, hp, h⟩ := List.map_eq_cons_iff.mp h
    obtain rfl := List.map_eq_nil_iff.mp h
    have hdrop : dropOne '.' (p :: text) = text := by rw [dropOne, if_pos hp]
    simp [dropCurrency, startsWithWord, hb, hs', hdrop, hs]
  · obtain ⟨v, _, rfl, hv, h⟩ := List.map_eq_cons_iff.mp h
    obtain ⟨e, _, rfl, he, h⟩ := List.map_eq_cons_iff.mp h
    obtain ⟨s, _, rfl, hs', h⟩ := List.map_eq_cons_iff.mp h
    obtain rfl := List.map_eq_nil_iff.mp h
    simp [dropCurrency, startsWithWord, hv, he, hs']

/-- Whichever way the sign is written, it is taken off. -/
theorem unsign_of_signed {text t : List Char} (hparts : ∀ c ∈ text, isAmountPart c)
    (ht : t ∈ signed text) : unsign t = (true, text) := by
  have hnot : ∀ {c}, isAmountPart c = false → c ∉ text := fun hc hmem => by
    simp [hparts _ hmem] at hc
  have hparen : '(' ∉ text := hnot (by decide)
  have hminus : '-' ∉ text := hnot (by decide)
  have hhead : ∀ {c}, c ∉ text → text.head? ≠ some c := fun hc h => hc (List.mem_of_head? h)
  have hlast : text.getLast? ≠ some '-' := fun h => hminus (List.mem_of_getLast? h)
  simp only [signed, List.mem_cons, List.not_mem_nil, or_false] at ht
  rcases ht with rfl | rfl | rfl
  · simp [unsign, inParens, hlast]
  · cases text with
    | nil => decide
    | cons c text =>
      have hc : c ≠ '(' ∧ c ≠ '-' := ⟨fun h => hparen (by simp [h]), fun h => hminus (by simp [h])⟩
      have hlast' : (c :: text ++ ['-']).getLast? = some '-' := List.getLast?_concat
      have hdrop : (c :: text ++ ['-']).dropLast = c :: text := List.dropLast_concat
      rw [List.cons_append] at hlast' hdrop ⊢
      simp [unsign, inParens, hc, hlast', hdrop]
  · simp [unsign, inParens, hhead hminus, hlast]

/-- An amount as banks write it is read as what it is, and with a sign it is a debit. -/
theorem parseAmount_standard {style : Style} (hstyle : style ∈ [esVE, english]) {n : Nat} (hn : 0 < n)
    {text : List Char} (htext : style.Writes n text) {currency : List Char}
    (hcurrency : currency.map Char.toLower ∈ currencies) (raw : String) :
    (raw.toList.filter (fun c => !isSpace c) = currency ++ text → parseAmount (some raw) = .ok n) ∧
      ∀ t ∈ signed text, raw.toList.filter (fun c => !isSpace c) = currency ++ t →
        parseAmount (some raw) = .error .debit := by
  have hsep : Separators style.group style.dec := by
    simp only [List.mem_cons, List.not_mem_nil, or_false] at hstyle
    rcases hstyle with rfl | rfl
    · exact .inl ⟨rfl, rfl⟩
    · exact .inr ⟨rfl, rfl⟩
  have hreads : Reads text n := reads_of_wellFormed ⟨_, _, hsep, htext.renders⟩ hn
  obtain ⟨c, cs, rfl, hc⟩ := htext.renders.head
  have hlow := toLower_of_isDigit hc
  have hdigit : ∀ d, d.isDigit = false → c.toLower ≠ d := fun d hd h => by
    rw [hlow] at h
    simp [h ▸ hc] at hd
  have hplus : dropOne '+' (c :: cs) = c :: cs := dropOne_of_ne (by simpa using hdigit '+' rfl)
  have hword : c.toLower ≠ 'b' ∧ c.toLower ≠ 'v' ∧ c.toLower ≠ 's' ∧ c.toLower ≠ '.' :=
    ⟨hdigit 'b' rfl, hdigit 'v' rfl, hdigit 's' rfl, hdigit '.' rfl⟩
  have hunspaced : ∀ {t}, raw.toList.filter (fun c => !isSpace c) = currency ++ t →
      (∀ d ∈ t.head?, d.toLower ∉ ['b', 'v', 's', '.']) → dropCurrency (unspaced raw) = t := by
    intro t ht hhead
    rw [unspaced, filter_trimmed, ht, dropCurrency_append hcurrency hhead]
  refine ⟨fun hraw => ?_, fun t ht hraw => ?_⟩
  · have hdrop := hunspaced hraw (by simpa using hword)
    have hunsign : unsign (dropCurrency (unspaced raw)) = (false, c :: cs) := by
      rw [hdrop]
      exact unsign_of_body (by rw [hplus]; exact hreads.1)
    exact parseAmount_of_reads hunsign (by rw [hplus]; exact hreads)
  · have hdrop := hunspaced hraw (by
      simp only [signed, List.mem_cons, List.not_mem_nil, or_false] at ht
      rcases ht with rfl | rfl | rfl
      · simp
      · simpa using hword
      · simp)
    have hunsign : unsign (dropCurrency (unspaced raw)) = (true, c :: cs) := by
      rw [hdrop]
      exact unsign_of_signed hreads.1 ht
    exact parseAmount_of_reads hunsign (by rw [hplus]; exact hreads)

theorem parseAmount_standard_spaced : parseAmount (some " bS. 1.234 ,50 ") = .ok 123450 ∧
    parseAmount (some "bS.(1.234,5 0) ") = .error .debit := by
  have hwrites : esVE.Writes 123450 "1.234,50".toList :=
    ⟨"1.234".toList, .inr ⟨['1'], [['2', '3', '4']], by decide, by decide, by decide +kernel,
      by decide +kernel⟩, .inr (by decide +kernel)⟩
  have hcurrency : "bS.".toList.map Char.toLower ∈ currencies := by decide +kernel
  exact ⟨(parseAmount_standard (by simp) (by omega) hwrites hcurrency _).1 (by decide +kernel),
    (parseAmount_standard (by simp) (by omega) hwrites hcurrency _).2 "(1.234,50)".toList
      (by decide +kernel) (by decide +kernel)⟩

end Splite.Bank
