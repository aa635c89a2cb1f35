import Mathlib.Tactic
import Mathlib.Data.List.DropRight

/-!
# Matching a bank movement to a charge in doubt (`services/c2pMatcher.js`)

* `matchInDoubtPayment_matched`: the movement that a charge is settled with is one that the bank
  returned, with a reference that nothing has spent and the amount that the bank was asked for.
* `canonicalReference_idem`: the spelling of a reference is the spelling of itself.
-/

namespace Splite.Mercantil

/-- `\s` of a regular expression, which is what `trim` removes. -/
def isSpace (c : Char) : Bool :=
  [9, 10, 11, 12, 13, 32, 0xa0, 0x1680, 0x2028, 0x2029, 0x202f, 0x205f, 0x3000, 0xfeff].contains
    c.toNat || (0x2000 ≤ c.toNat && c.toNat ≤ 0x200a)

/-- `trim()`. -/
def trimmed (text : List Char) : List Char :=
  (text.dropWhile isSpace).rdropWhile isSpace

/-- `digitsOnly(value)`. -/
def digitsOnly (value : String) : String := String.ofList (value.toList.filter Char.isDigit)

/-- A digit, a blank or one of the separators that a bank prints. -/
def isNumberPart (c : Char) : Bool := c.isDigit || isSpace c || ['.', '-', '/'].contains c

/-- `canonicalReference(value)`. -/
def canonicalReference (value : String) : Option String :=
  let text := trimmed value.toList
  if text = [] then none
  else if text.all isNumberPart then
    let digits := text.filter Char.isDigit
    some (String.ofList (if digits = [] then text else digits))
  else some (String.ofList text)

theorem trimmed_idem (text : List Char) : trimmed (trimmed text) = trimmed text := by
  have hhead : (trimmed text).dropWhile isSpace = trimmed text := by
    rw [List.dropWhile_eq_self_iff]
    intro hl
    -- What is left starts where the text without its leading blanks starts.
    have hpre : trimmed text <+: text.dropWhile isSpace := List.rdropWhile_prefix _ _
    have hl' : 0 < (text.dropWhile isSpace).length := hl.trans_le hpre.length_le
    rw [hpre.getElem hl]
    exact List.dropWhile_get_zero_not _ _ hl'
  show List.rdropWhile isSpace ((trimmed text).dropWhile isSpace) = _
  rw [hhead]
  exact List.rdropWhile_idempotent _ _

theorem isSpace_of_isDigit {c : Char} (h : c.isDigit) : isSpace c = false := by
  have hn : 48 ≤ c.toNat ∧ c.toNat ≤ 57 := by
    simpa [Char.isDigit, UInt32.le_iff_toNat_le] using h
  simp only [isSpace, List.contains_eq_mem, Bool.or_eq_false_iff, decide_eq_false_iff_not,
    List.mem_cons, List.not_mem_nil, Bool.and_eq_false_iff, or_false]
  refine ⟨?_, .inl ?_⟩ <;> omega

theorem trimmed_of_no_space {text : List Char} (h : ∀ c ∈ text, isSpace c = false) :
    trimmed text = text := by
  have hfront : text.dropWhile isSpace = text := by
    rw [List.dropWhile_eq_self_iff]
    intro hl
    simp [h _ (List.getElem_mem hl)]
  unfold trimmed
  rw [hfront, List.rdropWhile_eq_self_iff]
  intro hl
  simp [h _ (List.getLast_mem hl)]

theorem filter_trimmed (text : List Char) :
    (trimmed text).filter (fun c => !isSpace c) = text.filter fun c => !isSpace c := by
  have hfront : ∀ l : List Char, (l.dropWhile isSpace).filter (fun c => !isSpace c) =
      l.filter fun c => !isSpace c := by
    intro l
    have hnone : (l.takeWhile isSpace).filter (fun c => !isSpace c) = [] :=
      List.filter_eq_nil_iff.mpr fun c hc => by simp [List.mem_takeWhile_imp hc]
    conv_rhs => rw [← List.takeWhile_append_dropWhile (p := isSpace) (l := l), List.filter_append, hnone]
    rw [List.nil_append]
  unfold trimmed List.rdropWhile
  rw [List.filter_reverse, hfront, List.filter_reverse, List.reverse_reverse, hfront]

/-- A text without its blanks at the ends. -/
theorem exists_blanks (text : List Char) : ∃ lead trail, text = lead ++ trimmed text ++ trail ∧
    (∀ c ∈ lead, isSpace c) ∧ ∀ c ∈ trail, isSpace c := by
  refine ⟨text.takeWhile isSpace, ((text.dropWhile isSpace).reverse.takeWhile isSpace).reverse, ?_,
    fun c hc => List.mem_takeWhile_imp hc,
    fun c hc => List.mem_takeWhile_imp (List.mem_reverse.mp hc)⟩
  unfold trimmed List.rdropWhile
  rw [List.append_assoc, ← List.reverse_append, List.takeWhile_append_dropWhile, List.reverse_reverse,
    List.takeWhile_append_dropWhile]

/-- The spelling of a reference is its own spelling. -/
theorem canonicalReference_idem {value t : String} (h : canonicalReference value = some t) :
    canonicalReference t = some t := by
  unfold canonicalReference at h
  simp only at h
  split at h
  · simp at h
  rename_i hne
  split at h
  · rename_i hnum
    obtain rfl := Option.some.inj h
    by_cases hd : (trimmed value.toList).filter Char.isDigit = []
    · -- Separators only: the text is kept, and read the same way again.
      rw [if_pos hd]
      simp [canonicalReference, trimmed_idem, hne, hnum, hd]
    · rw [if_neg hd]
      have hdigits : ∀ c ∈ (trimmed value.toList).filter Char.isDigit, c.isDigit := fun c hc =>
        (List.mem_filter.mp hc).2
      have htrim := trimmed_of_no_space fun c hc => isSpace_of_isDigit (hdigits c hc)
      have hall : ((trimmed value.toList).filter Char.isDigit).all isNumberPart :=
        List.all_eq_true.mpr fun c hc => by simp [isNumberPart, hdigits c hc]
      have hself : ((trimmed value.toList).filter Char.isDigit).filter Char.isDigit =
          (trimmed value.toList).filter Char.isDigit := by simp
      unfold canonicalReference
      simp only [String.toList_ofList, htrim, hself, if_neg hd, hall, if_true]
  · rename_i hnum
    obtain rfl := Option.some.inj h
    simp [canonicalReference, trimmed_idem, hne, hnum]

/-- A movement, as `search` returns it. -/
structure Movement where
  reference : String
  amountMinor : Option Int
  phoneOrigin : String
  deriving DecidableEq, Repr

/-- `phoneMatchesLast4(movementPhone, storedLast4)`. -/
def phoneMatchesLast4 (movementPhone storedLast4 : String) : Bool :=
  let movement := (digitsOnly movementPhone).toList
  let stored := (digitsOnly storedLast4).toList
  if movement.length < 4 || stored.length ≠ 4 then false
  else movement.drop (movement.length - 4) == stored

/-- `OUTCOME`, with what goes with each. -/
inductive Match where
  | matched (movement : Movement)
  | ambiguous (candidates : List (Option String)) (reason : String)
  | noMatch
  deriving DecidableEq, Repr

/-- The filter of `matchInDoubtPayment`. -/
def isCandidate (chargedVes : Int) (consumed : List String) (m : Movement) : Bool :=
  m.reference ≠ "" && m.amountMinor.isSome &&
    !((canonicalReference m.reference).elim false consumed.contains) &&
    m.amountMinor == some chargedVes

/-- `matchInDoubtPayment(movements, { charged_ves, payer_phone_last4 }, consumedReferences)`. -/
def matchInDoubtPayment (movements : List Movement) (chargedVes : Int) (payerPhoneLast4 : String)
    (consumed : List String) : Match :=
  let candidates := movements.filter (isCandidate chargedVes consumed)
  if candidates = [] then .noMatch
  else
    match candidates.filter fun m => phoneMatchesLast4 m.phoneOrigin payerPhoneLast4 with
    | [m] => .matched m
    | [] =>
      .ambiguous (candidates.map fun m => canonicalReference m.reference)
        (if candidates.length = 1 then "The amount matches but the payer phone does not"
          else "Several movements share the amount and none identifies the payer")
    | byPhone =>
      .ambiguous (byPhone.map fun m => canonicalReference m.reference)
        "Several movements match on both amount and payer phone"

theorem matchInDoubtPayment_matched {movements : List Movement} {chargedVes : Int}
    {last4 : String} {consumed : List String} {m : Movement}
    (h : matchInDoubtPayment movements chargedVes last4 consumed = .matched m) :
    m ∈ movements ∧ m.reference ≠ "" ∧ m.amountMinor = some chargedVes ∧
      (∀ reference ∈ canonicalReference m.reference, reference ∉ consumed) ∧
      phoneMatchesLast4 m.phoneOrigin last4 := by
  unfold matchInDoubtPayment at h
  simp only at h
  split at h
  · simp at h
  · split at h
    · rename_i m' heq
      obtain rfl : m' = m := by simpa using h
      have hm : m' ∈ [m'] := List.mem_singleton_self m'
      rw [← heq] at hm
      obtain ⟨hcand, hphone⟩ := List.mem_filter.mp hm
      obtain ⟨hmem, hc⟩ := List.mem_filter.mp hcand
      simp only [isCandidate, Bool.and_eq_true, decide_eq_true_eq, beq_iff_eq,
        Bool.not_eq_true'] at hc
      obtain ⟨⟨⟨hne, -⟩, hfree⟩, hamount⟩ := hc
      refine ⟨hmem, by simpa using hne, hamount, fun reference href => ?_, hphone⟩
      rw [Option.mem_def.mp href] at hfree
      simpa using hfree
    · simp at h
    · simp at h

end Splite.Mercantil
