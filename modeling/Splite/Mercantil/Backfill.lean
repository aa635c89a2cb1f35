import Mathlib.Data.Bool.AllAny
import Splite.Mercantil.Matcher

/-!
# One spelling of a reference (`migrations/025_canonical_provider_reference.sql`)

The migration respells what is stored the way `canonicalReference` does, in another language: blanks are what
the database takes for blanks.

* `canonicalReference_eq`, `update_eq`: a number in some spelling is its digits, to both.
* `backfill_iff`: for which references the two agree.
* `migrate_nodup`: what the check lets through keeps the movements apart.
-/

namespace Splite.Mercantil

/-- What the migration reads of a payment. -/
structure Stored where
  id : Nat
  provider : Option String
  providerPaymentId : Option String
  deriving DecidableEq, Repr

/-- The pattern of a number in some spelling, where `blank` is `[[:space:]]`. -/
def looksNumber (blank : Char → Bool) (reference : String) : Bool :=
  reference ≠ "" && reference.toList.all fun c => c.isDigit || blank c || ['.', '-', '/'].contains c

/-- The reference of a payment of `'MERCANTIL'`, if it is a number in some spelling. -/
def spelled (blank : Char → Bool) (p : Stored) : Option String :=
  if p.provider = some "MERCANTIL" then
    p.providerPaymentId.filter fun reference => looksNumber blank reference && digitsOnly reference ≠ ""
  else none

/-- The `UPDATE`, of one row. -/
def update (blank : Char → Bool) (p : Stored) : Stored :=
  match spelled blank p with
  | some reference =>
    if reference ≠ digitsOnly reference then { p with providerPaymentId := some (digitsOnly reference) } else p
  | none => p

/-- Two payments hold one movement under different spellings. -/
def collides (blank : Char → Bool) (payments : List Stored) : Prop :=
  ¬(payments.filterMap fun p => (spelled blank p).map digitsOnly).Nodup

instance {blank payments} : Decidable (collides blank payments) := inferInstanceAs (Decidable (¬_))

/-- The migration; none where it raises. -/
def migrate (blank : Char → Bool) (payments : List Stored) : Option (List Stored) :=
  if collides blank payments then none else some (payments.map (update blank))

/-! ## The two rules -/

/-- Digits with blanks and separators between them, and at least one digit. -/
def SpellsNumber (blank : Char → Bool) (reference : String) : Prop :=
  (∀ c ∈ reference.toList, c.isDigit ∨ blank c ∨ c ∈ ['.', '-', '/']) ∧ ∃ c ∈ reference.toList, c.isDigit

instance {blank reference} : Decidable (SpellsNumber blank reference) :=
  @instDecidableAnd _ _ (List.decidableBAll _ _) (List.decidableBEx _ _)

section Rules

variable {blank : Char → Bool} {reference value : String} {text : List Char} {p : Stored}

theorem digitsOnly_ne : digitsOnly value ≠ "" ↔ ∃ c ∈ value.toList, c.isDigit := by
  rw [digitsOnly, ne_eq, String.ofList_eq_empty_iff, List.filter_eq_nil_iff]
  push Not
  rfl

theorem looksNumber_iff : looksNumber blank reference && digitsOnly reference ≠ "" ↔
    SpellsNumber blank reference := by
  have hne : (∃ c ∈ reference.toList, c.isDigit) → reference ≠ "" := by
    rintro ⟨c, hc, -⟩ rfl
    simp at hc
  simp only [looksNumber, SpellsNumber, Bool.and_eq_true, decide_eq_true_eq, List.all_eq_true,
    Bool.or_eq_true, List.contains_eq_mem, digitsOnly_ne, or_assoc]
  constructor
  · rintro ⟨⟨-, hall⟩, hdigit⟩
    exact ⟨hall, hdigit⟩
  · rintro ⟨hall, hdigit⟩
    exact ⟨⟨hne hdigit, hall⟩, hdigit⟩

/-- A blank is no digit, so what is trimmed away has none. -/
theorem filter_isDigit_trimmed (text : List Char) :
    (trimmed text).filter Char.isDigit = text.filter Char.isDigit := by
  have hblank : ∀ l : List Char, l.filter Char.isDigit = (l.filter fun c => !isSpace c).filter Char.isDigit := by
    intro l
    rw [List.filter_filter]
    refine List.filter_congr fun c _ => ?_
    by_cases hdigit : c.isDigit = true
    · simp [hdigit, isSpace_of_isDigit hdigit]
    · simp [hdigit]
  rw [hblank, filter_trimmed, ← hblank]

theorem trimmed_ne_nil : trimmed text ≠ [] ↔ ∃ c ∈ text, isSpace c = false := by
  constructor
  · intro hne
    by_contra! hall
    have hfront : text.dropWhile isSpace = [] := List.dropWhile_eq_nil_iff.mpr fun c hc => by
      simpa using hall c hc
    exact hne (by simp [trimmed, hfront])
  · rintro ⟨c, hc, hspace⟩ hnil
    obtain ⟨lead, trail, htext, hlead, htrail⟩ := exists_blanks text
    rw [htext, hnil, List.append_nil] at hc
    rcases List.mem_append.mp hc with hc | hc
    · simp [hlead c hc] at hspace
    · simp [htrail c hc] at hspace

theorem all_isNumberPart_trimmed : (trimmed text).all isNumberPart ↔ text.all isNumberPart := by
  obtain ⟨lead, trail, htext, hlead, htrail⟩ := exists_blanks text
  have hblank : ∀ {l : List Char}, (∀ c ∈ l, isSpace c) → l.all isNumberPart := fun h =>
    List.all_eq_true.mpr fun c hc => by simp [isNumberPart, h c hc]
  conv_rhs => rw [htext]
  simp [hblank hlead, hblank htrail]

theorem spellsNumber_iff : SpellsNumber isSpace reference ↔
    (trimmed reference.toList).all isNumberPart ∧ (trimmed reference.toList).filter Char.isDigit ≠ [] := by
  rw [all_isNumberPart_trimmed, filter_isDigit_trimmed, SpellsNumber, ne_eq, List.filter_eq_nil_iff]
  push Not
  simp only [List.all_eq_true, isNumberPart, Bool.or_eq_true, List.contains_eq_mem, decide_eq_true_eq,
    or_assoc]

/-- A number in some spelling is its digits, and what else is not blank is itself without the blanks
around it. -/
theorem canonicalReference_eq (h : ∃ c ∈ reference.toList, isSpace c = false) :
    canonicalReference reference = some (if SpellsNumber isSpace reference then digitsOnly reference
      else String.ofList (trimmed reference.toList)) := by
  have hdigits : (trimmed reference.toList).filter Char.isDigit = reference.toList.filter Char.isDigit :=
    filter_isDigit_trimmed _
  unfold canonicalReference
  simp only [if_neg (trimmed_ne_nil.mpr h), spellsNumber_iff, digitsOnly, hdigits]
  by_cases hall : (trimmed reference.toList).all isNumberPart = true
  · by_cases hnone : reference.toList.filter Char.isDigit = []
    · simp [hall, hnone]
    · simp [hall, hnone]
  · simp [hall]

/-- To the migration a number in some spelling is its digits, and what else is stored is left. -/
theorem update_eq (hp : p.provider = some "MERCANTIL") (hid : p.providerPaymentId = some reference) :
    (update blank p).providerPaymentId =
      some (if SpellsNumber blank reference then digitsOnly reference else reference) := by
  unfold update spelled
  rw [if_pos hp, hid, Option.filter_some]
  by_cases hnum : SpellsNumber blank reference
  · rw [if_pos (looksNumber_iff.mpr hnum), if_pos hnum]
    by_cases hsame : reference = digitsOnly reference
    · simp [← hsame, hid]
    · simp [hsame]
  · rw [if_neg (mt looksNumber_iff.mp hnum), if_neg hnum]
    exact hid

/-- The two rules agree on a reference when it is a number to both or to neither, and if to neither, no
blank is around it. -/
theorem rules_agree_iff : (if SpellsNumber blank reference then digitsOnly reference else reference) =
      (if SpellsNumber isSpace reference then digitsOnly reference
        else String.ofList (trimmed reference.toList)) ↔
    (SpellsNumber isSpace reference ↔ SpellsNumber blank reference) ∧
      (SpellsNumber isSpace reference ∨ trimmed reference.toList = reference.toList) := by
  have hdigits : (digitsOnly reference).toList = reference.toList.filter Char.isDigit := by simp [digitsOnly]
  by_cases hjs : SpellsNumber isSpace reference
  · by_cases hpg : SpellsNumber blank reference
    · simp [hjs, hpg]
    · -- Only digits would be a number to both.
      have hne : reference ≠ digitsOnly reference := by
        intro hsame
        refine hpg ⟨fun c hc => .inl ?_, hjs.2⟩
        rw [hsame, hdigits] at hc
        exact (List.mem_filter.mp hc).2
      simp [hjs, hpg, hne]
  · by_cases hpg : SpellsNumber blank reference
    · have hne : digitsOnly reference ≠ String.ofList (trimmed reference.toList) := by
        intro hsame
        have hlist := congrArg String.toList hsame
        rw [hdigits, String.toList_ofList] at hlist
        refine hjs (spellsNumber_iff.mpr ⟨?_, ?_⟩)
        · rw [← hlist, List.all_eq_true]
          exact fun c hc => by simp [isNumberPart, (List.mem_filter.mp hc).2]
        · rw [filter_isDigit_trimmed, ne_eq, List.filter_eq_nil_iff]
          push Not
          exact hpg.2
      simp [hjs, hpg, hne]
    · rw [if_neg hjs, if_neg hpg]
      have hback : reference = String.ofList (trimmed reference.toList) ↔
          trimmed reference.toList = reference.toList := by
        rw [← String.toList_inj, String.toList_ofList, eq_comm]
      simp [hjs, hpg, hback]

theorem canonicalReference_ne : (∃ t ∈ canonicalReference value, t ≠ "") ↔
    ∃ c ∈ value.toList, isSpace c = false := by
  constructor
  · rintro ⟨t, ht, -⟩
    by_contra hblank
    have hnil : trimmed value.toList = [] := by
      by_contra hne
      exact hblank (trimmed_ne_nil.mp hne)
    simp [canonicalReference, hnil] at ht
  · intro h
    refine ⟨_, canonicalReference_eq h, ?_⟩
    split_ifs with hnum
    · exact digitsOnly_ne.mpr hnum.2
    · rw [ne_eq, String.ofList_eq_empty_iff]
      exact trimmed_ne_nil.mpr h

/-! ## The movements stay apart -/

/-- What is unique in `payments`. -/
def key (p : Stored) : Option (String × String) :=
  p.provider.bind fun provider => p.providerPaymentId.map (provider, ·)

theorem spelled_eq_some : spelled blank p = some reference ↔
    p.provider = some "MERCANTIL" ∧ p.providerPaymentId = some reference ∧ SpellsNumber blank reference := by
  unfold spelled
  split_ifs with hp
  · rw [Option.filter_eq_some_iff, looksNumber_iff]
    simp [hp]
  · simp [hp]

/-- The digits of a number are a number in some spelling. -/
theorem spellsNumber_digitsOnly (h : SpellsNumber blank reference) : SpellsNumber blank (digitsOnly reference) := by
  have hdigits : (digitsOnly reference).toList = reference.toList.filter Char.isDigit := by simp [digitsOnly]
  obtain ⟨-, c, hc, hdigit⟩ := h
  rw [SpellsNumber, hdigits]
  exact ⟨fun c hc => .inl (List.mem_filter.mp hc).2, c, List.mem_filter.mpr ⟨hc, hdigit⟩, hdigit⟩

theorem key_update (h : spelled blank p = some reference) :
    key (update blank p) = some ("MERCANTIL", digitsOnly reference) := by
  obtain ⟨hp, hid, hnum⟩ := spelled_eq_some.mp h
  have hprovider : (update blank p).provider = some "MERCANTIL" := by
    unfold update
    rw [h]
    dsimp only
    split_ifs <;> exact hp
  rw [key, hprovider, update_eq hp hid, if_pos hnum]
  rfl

theorem key_kept (h : spelled blank p = none) : key (update blank p) = key p := by
  rw [update, h]

/-- A payment that is left as it is does not hold the digits of another. -/
theorem key_ne_digits {q : Stored} (hp : spelled blank p = some reference) (hq : spelled blank q = none) :
    key q ≠ some ("MERCANTIL", digitsOnly reference) := by
  intro hkey
  obtain ⟨-, -, hnum⟩ := spelled_eq_some.mp hp
  obtain ⟨provider, hprovider, hid⟩ := Option.bind_eq_some_iff.mp hkey
  obtain ⟨id, hid, heq⟩ := Option.map_eq_some_iff.mp hid
  obtain ⟨rfl, rfl⟩ := Prod.mk.inj heq
  have := spelled_eq_some.mpr ⟨hprovider, hid, spellsNumber_digitsOnly hnum⟩
  rw [hq] at this
  simp at this

/-- Two payments under one key after the migration were under one before, or the check found them. -/
theorem key_update_ne {q : Stored} (hkeys : ∀ k ∈ key p, ∀ k' ∈ key q, k ≠ k')
    (hdigits : ∀ d ∈ (spelled blank p).map digitsOnly, ∀ d' ∈ (spelled blank q).map digitsOnly, d ≠ d') :
    ∀ k ∈ key (update blank p), ∀ k' ∈ key (update blank q), k ≠ k' := by
  rintro k hk k' hk' rfl
  cases hp : spelled blank p with
  | none =>
    rw [key_kept hp] at hk
    cases hq : spelled blank q with
    | none =>
      rw [key_kept hq] at hk'
      exact hkeys k hk k hk' rfl
    | some reference =>
      rw [key_update hq] at hk'
      exact key_ne_digits hq hp (hk.trans hk'.symm)
  | some reference =>
    rw [key_update hp] at hk
    cases hq : spelled blank q with
    | none =>
      rw [key_kept hq] at hk'
      exact key_ne_digits hp hq (hk'.trans hk.symm)
    | some reference' =>
      rw [key_update hq] at hk'
      obtain ⟨-, heq⟩ := Prod.mk.inj (Option.some.inj (hk.trans hk'.symm))
      exact hdigits _ (by simp [hp]) _ (by simp [hq]) heq

/-- What the check lets through stays unique. -/
theorem migrate_nodup {payments payments' : List Stored} (h : migrate blank payments = some payments')
    (hkeys : (payments.filterMap key).Nodup) : (payments'.filterMap key).Nodup := by
  unfold migrate at h
  split_ifs at h with hcollides
  obtain rfl := Option.some.inj h
  unfold collides at hcollides
  rw [not_not] at hcollides
  unfold List.Nodup at hkeys hcollides ⊢
  rw [List.pairwise_filterMap] at hkeys hcollides ⊢
  rw [List.pairwise_map]
  exact (hkeys.and hcollides).imp fun hboth => key_update_ne hboth.1 hboth.2

end Rules

/-- The migration leaves the canonical reference when a reference is a number to both or to neither, and if
to neither, no blank is around it; the canonical reference is its own, and there is one except of blanks. -/
theorem backfill_iff (blank : Char → Bool) (reference : String) :
    (∀ p : Stored, p.provider = some "MERCANTIL" → p.providerPaymentId = some reference →
      (∃ c ∈ reference.toList, isSpace c = false) →
        ((update blank p).providerPaymentId = canonicalReference reference ↔
          (SpellsNumber isSpace reference ↔ SpellsNumber blank reference) ∧
            (SpellsNumber isSpace reference ∨ trimmed reference.toList = reference.toList))) ∧
    (∀ t : String, canonicalReference reference = some t → canonicalReference t = some t) ∧
    ((∃ t ∈ canonicalReference reference, t ≠ "") ↔ ∃ c ∈ reference.toList, isSpace c = false) := by
  refine ⟨?_, fun t => canonicalReference_idem, canonicalReference_ne⟩
  intro p hp hid h
  rw [update_eq hp hid, canonicalReference_eq h, Option.some.injEq]
  exact rules_agree_iff

/-- A reference with blanks between its digits. -/
theorem spaced_number_respelled : (update isSpace ⟨1, some "MERCANTIL", some " 9000 0099 "⟩).providerPaymentId =
    canonicalReference " 9000 0099 " :=
  ((backfill_iff isSpace " 9000 0099 ").1 ⟨1, some "MERCANTIL", some " 9000 0099 "⟩ rfl rfl
    (List.any_iff_exists_prop.mp (by decide))).mpr (by decide +kernel)

/-- A blank before an identifier is left by the migration and not by `canonicalReference`. -/
theorem spaced_identifier_left : (update isSpace ⟨1, some "MERCANTIL", some " TX-4F2A-9"⟩).providerPaymentId ≠
    canonicalReference " TX-4F2A-9" := by
  decide +kernel

end Splite.Mercantil
