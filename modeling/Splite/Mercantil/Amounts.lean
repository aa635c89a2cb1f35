import Mathlib.Data.Bool.AllAny
import Splite.Lib.Decimal
import Splite.Mercantil.Matcher

/-!
# Bank amounts (`payments/providers/mercantil/c2p.js`)

* `toMinorUnits_of_wellFormed`: a well-formed decimal is read as what it is.
* `toMinorUnits_comma`: with a comma every dot is dropped, wherever it stands.
* `neverMisread_iff`: so a text is misread exactly when its dots are `Misplaced`.
* `bankAmounts_iff`: the round trip, the grouped renderings and what is misread.
-/

namespace Splite.Mercantil

open Decimal

/-- The text with a dot for the decimal separator. -/
def normalised (text : List Char) : List Char :=
  if ',' ∈ text then replaceFirst ',' '.' (text.filter (· ≠ '.')) else text

/-- `toMinorUnits(raw)`. -/
def toMinorUnits (raw : Option String) : Option String :=
  match raw with
  | none => none
  | some raw =>
    let text := trimmed raw.toList
    if text = [] then none
    else if IsDigits text then some (String.ofList text)
    else (plainParts (normalised text)).map fun (whole, fraction) =>
      toString (value whole * 100 + hundredths fraction)

/-- `toBankAmount(minorUnits)`. -/
def toBankAmount (minorUnits : Int) : String :=
  let absolute := minorUnits.natAbs
  (if minorUnits < 0 then "-" else "") ++ toString (absolute / 100) ++ "." ++
    String.ofList ((toString (absolute % 100)).toList.leftpad 2 '0')

theorem mem_trimmed {c : Char} {text : List Char} (hc : isSpace c = false) : c ∈ trimmed text ↔ c ∈ text := by
  have h := congrArg (c ∈ ·) (filter_trimmed text)
  simpa [hc] using h

/-! ## Well-formed amounts -/

/-- A decimal rendering of `n` céntimos: after a dot or a comma one or two digits, and the dots before
a comma group the digits by threes. -/
inductive WellFormed : List Char → Nat → Prop where
  | dot {whole frac : List Char} (hne : whole ≠ []) (hwhole : IsDigits whole) (hfrac : IsDigits frac)
      (hlen : 1 ≤ frac.length ∧ frac.length ≤ 2) :
      WellFormed (whole ++ '.' :: frac) (value whole * 100 + hundredths frac)
  | comma {digits whole frac : List Char} (hwhole : Whole '.' digits whole) (hfrac : IsDigits frac)
      (hlen : 1 ≤ frac.length ∧ frac.length ≤ 2) :
      WellFormed (whole ++ ',' :: frac) (value digits * 100 + hundredths frac)

variable {raw : String} {text whole frac digits : List Char} {n : Nat} {v : String}

/-- A text that has something else than digits is read as its parts. -/
theorem toMinorUnits_of_mem {c : Char} (h : c ∈ trimmed raw.toList) (hc : c.isDigit = false) :
    toMinorUnits (some raw) = (plainParts (normalised (trimmed raw.toList))).map fun (whole, fraction) =>
      toString (value whole * 100 + hundredths fraction) := by
  unfold toMinorUnits
  dsimp only
  rw [if_neg (List.ne_nil_of_mem h), if_neg (not_isDigits_of_mem h hc)]

/-- Without its dots a whole part is its digits. -/
theorem filter_dots (h : ∀ c ∈ whole, c.isDigit ∨ c = '.') :
    whole.filter (· ≠ '.') = whole.filter Char.isDigit := by
  refine List.filter_congr fun c hc => ?_
  rcases h c hc with hdigit | rfl
  · have hne : c ≠ '.' := by
      rintro rfl
      exact absurd hdigit (by decide)
    simp [hdigit, hne]
  · decide

theorem normalised_comma (hwhole : ',' ∉ whole) :
    normalised (whole ++ ',' :: frac) =
      whole.filter (· ≠ '.') ++ '.' :: frac.filter (· ≠ '.') := by
  unfold normalised
  rw [if_pos (by simp), List.filter_append, List.filter_cons_of_pos (by decide)]
  exact replaceFirst_append fun h => hwhole (List.mem_filter.mp h).1

theorem normalised_of_no_comma (h : ',' ∉ text) : normalised text = text := if_neg h

/-- What a text with a comma is read as: its dots are dropped. -/
theorem toMinorUnits_comma (htext : trimmed raw.toList = whole ++ ',' :: frac) (hwhole : ',' ∉ whole) :
    toMinorUnits (some raw) = some v ↔
      (∀ c ∈ whole ++ frac, c.isDigit ∨ c = '.') ∧ (∃ c ∈ whole, c.isDigit) ∧
        (1 ≤ (frac.filter Char.isDigit).length ∧ (frac.filter Char.isDigit).length ≤ 2) ∧
        v = toString (value (whole.filter Char.isDigit) * 100 + hundredths (frac.filter Char.isDigit)) := by
  have hcomma : ',' ∈ trimmed raw.toList := by simp [htext]
  rw [toMinorUnits_of_mem hcomma rfl, htext, normalised_comma hwhole, Option.map_eq_some_iff]
  have hnodot : ∀ {l : List Char}, '.' ∉ l.filter (· ≠ '.') := fun h => by simp at h
  have hchars : ∀ {l : List Char}, IsDigits (l.filter (· ≠ '.')) → ∀ c ∈ l, c.isDigit ∨ c = '.' := by
    intro l hl c hc
    by_cases hdot : c = '.'
    · exact .inr hdot
    · exact .inl (hl c (List.mem_filter.mpr ⟨hc, by simpa using hdot⟩))
  constructor
  · rintro ⟨⟨w, f⟩, hparts, rfl⟩
    obtain ⟨⟨hne, hw, hf⟩, ⟨htexts, -⟩ | ⟨htexts, hlen⟩⟩ := plainParts_eq_some.mp hparts
    · -- The dot that stands for the comma is no digit.
      exact absurd (htexts ▸ hw) (not_isDigits_of_mem (c := '.') (by simp) rfl)
    · obtain ⟨rfl, rfl⟩ := append_cons_inj hnodot (hw.not_mem rfl) htexts
      have hwhole' := hchars hw
      have hfrac' := hchars hf
      rw [filter_dots hwhole'] at hne ⊢
      rw [filter_dots hfrac'] at hlen ⊢
      refine ⟨List.forall_mem_append.mpr ⟨hwhole', hfrac'⟩, ?_, hlen, rfl⟩
      obtain ⟨c, hc⟩ := List.exists_mem_of_ne_nil _ hne
      exact ⟨c, List.mem_filter.mp hc⟩
  · rintro ⟨hall, ⟨c, hc, hdigit⟩, hlen, rfl⟩
    obtain ⟨hwhole', hfrac'⟩ := List.forall_mem_append.mp hall
    rw [filter_dots hwhole', filter_dots hfrac']
    have hdigits : ∀ {l : List Char}, IsDigits (l.filter Char.isDigit) := fun _ h => (List.mem_filter.mp h).2
    refine ⟨(_, _), plainParts_eq_some.mpr ⟨⟨?_, hdigits, hdigits⟩, .inr ⟨rfl, hlen⟩⟩, rfl⟩
    exact List.ne_nil_of_mem (List.mem_filter.mpr ⟨hc, hdigit⟩)

/-- A well-formed decimal is read as what it is. -/
theorem toMinorUnits_of_wellFormed (h : WellFormed text n) (htext : trimmed raw.toList = text) :
    toMinorUnits (some raw) = some (toString n) := by
  cases h with
  | @dot whole frac hne hwhole hfrac hlen =>
    have hdot : '.' ∈ trimmed raw.toList := by simp [htext]
    have hno : ',' ∉ whole ++ '.' :: frac := by
      simpa using ⟨hwhole.not_mem rfl, hfrac.not_mem rfl⟩
    rw [toMinorUnits_of_mem hdot rfl, htext, normalised_of_no_comma hno,
      plainParts_eq_some.mpr ⟨⟨hne, hwhole, hfrac⟩, .inr ⟨rfl, hlen⟩⟩]
    rfl
  | @comma digits whole frac hwhole hfrac hlen =>
    have hchars := hwhole.chars
    have hself : frac.filter Char.isDigit = frac := List.filter_eq_self.mpr hfrac
    have hno : ',' ∉ whole := fun hmem => by simpa using hchars _ hmem
    refine (toMinorUnits_comma htext hno).mpr ⟨?_, ?_, by rwa [hself], ?_⟩
    · exact List.forall_mem_append.mpr ⟨hchars, fun c hc => .inl (hfrac c hc)⟩
    · obtain ⟨c, cs, rfl, hc⟩ := hwhole.head
      exact ⟨c, List.mem_cons_self, hc⟩
    · rw [hself, hwhole.filter_isDigit rfl]

/-! ## Amounts that are misread -/

/-- An amount with a decimal comma and dots that do not group the digits before it by threes. -/
def Misplaced (text : List Char) : Prop :=
  ∃ whole frac, text = whole ++ ',' :: frac ∧ (∀ c ∈ whole ++ frac, c.isDigit ∨ c = '.') ∧
    (∃ c ∈ whole, c.isDigit) ∧
    (1 ≤ (frac.filter Char.isDigit).length ∧ (frac.filter Char.isDigit).length ≤ 2) ∧
    ('.' ∈ frac ∨ ∀ digits, ¬Whole '.' digits whole)

/-- The text is read only as an amount that it is a well-formed rendering of. -/
def NeverMisread (raw : String) : Prop :=
  ∀ v, toMinorUnits (some raw) = some v → ∃ n, v = toString n ∧ WellFormed (trimmed raw.toList) n

theorem WellFormed.no_misplaced (h : WellFormed text n) : ¬Misplaced text := by
  rintro ⟨w, f, htext, hall, -, -, hbad⟩
  obtain ⟨hw, hf⟩ := List.forall_mem_append.mp hall
  have hno : ',' ∉ w := fun hmem => by simpa using hw _ hmem
  cases h with
  | @dot whole frac hne hwhole hfrac hlen =>
    have hmem : ',' ∈ whole ++ '.' :: frac := by simp [htext]
    simp [hwhole.not_mem (show ','.isDigit = false from rfl),
      hfrac.not_mem (show ','.isDigit = false from rfl)] at hmem
  | @comma digits whole frac hwhole hfrac hlen =>
    have hno' : ',' ∉ whole := fun hmem => by simpa using hwhole.chars _ hmem
    obtain ⟨rfl, rfl⟩ := append_cons_inj hno' hno htext
    rcases hbad with hdot | hbad
    · exact hfrac.not_mem rfl hdot
    · exact hbad _ hwhole

/-- A text with a separator is never misread exactly when its dots are not misplaced. -/
theorem neverMisread_iff (h : ',' ∈ raw.toList ∨ '.' ∈ raw.toList) :
    NeverMisread raw ↔ ¬Misplaced (trimmed raw.toList) := by
  constructor
  · rintro hnever ⟨whole, frac, htext, hall, hdigit, hlen, hbad⟩
    have hno : ',' ∉ whole := fun hmem => by
      simpa using hall _ (List.mem_append_left _ hmem)
    obtain ⟨n, -, hwell⟩ := hnever _ ((toMinorUnits_comma htext hno).mpr ⟨hall, hdigit, hlen, rfl⟩)
    exact hwell.no_misplaced ⟨whole, frac, htext, hall, hdigit, hlen, hbad⟩
  · intro hnot v hv
    by_cases hcomma : ',' ∈ trimmed raw.toList
    · obtain ⟨whole, frac, htext, hno⟩ := List.eq_append_cons_of_mem hcomma
      obtain ⟨hall, hdigit, hlen, rfl⟩ := (toMinorUnits_comma htext hno).mp hv
      obtain ⟨hnodot, hgrouped⟩ : '.' ∉ frac ∧ ∃ digits, Whole '.' digits whole := by
        by_contra hbad
        refine hnot ⟨whole, frac, htext, hall, hdigit, hlen, ?_⟩
        rw [not_and_or, not_not, not_exists] at hbad
        exact hbad
      obtain ⟨digits, hwhole⟩ := hgrouped
      have hfrac : IsDigits frac := fun c hc =>
        (hall c (List.mem_append_right _ hc)).resolve_right fun hdot => hnodot (hdot ▸ hc)
      have hself : frac.filter Char.isDigit = frac := List.filter_eq_self.mpr hfrac
      rw [hself] at hlen
      refine ⟨_, rfl, ?_⟩
      rw [hself, hwhole.filter_isDigit rfl, htext]
      exact .comma hwhole hfrac hlen
    · have hdot : '.' ∈ trimmed raw.toList := (mem_trimmed rfl).mpr
        (h.resolve_left fun hmem => hcomma ((mem_trimmed rfl).mpr hmem))
      rw [toMinorUnits_of_mem hdot rfl, normalised_of_no_comma hcomma, Option.map_eq_some_iff] at hv
      obtain ⟨⟨whole, frac⟩, hparts, rfl⟩ := hv
      refine ⟨_, rfl, ?_⟩
      obtain ⟨⟨hne, hwhole, hfrac⟩, ⟨htext, -⟩ | ⟨htext, hlen⟩⟩ := plainParts_eq_some.mp hparts
      · exact absurd (htext ▸ hdot) (hwhole.not_mem rfl)
      · rw [htext]
        exact .dot hne hwhole hfrac hlen

/-! ## Both ways -/

theorem toList_toString (n : Nat) : (toString n).toList = Nat.toDigits 10 n := String.toList_ofList

theorem padded_decimals : ∀ m < 100,
    (Nat.toDigits 10 m).leftpad 2 '0' = [(m / 10).digitChar, (m % 10).digitChar] := by
  decide +kernel

theorem toBankAmount_toList (n : Nat) :
    (toBankAmount n).toList = Nat.toDigits 10 (n / 100) ++ '.' :: decimals n := by
  have hpad := padded_decimals (n % 100) (Nat.mod_lt _ (by decide))
  have hmod : n % 100 % 10 = n % 10 := by omega
  have hneg : ¬(n : Int) < 0 := by omega
  unfold toBankAmount
  simp only [hneg, if_false, Int.natAbs_natCast, String.toList_append, toList_toString,
    String.toList_ofList, hpad, hmod, decimals]
  simp

theorem wellFormed_toBankAmount (n : Nat) :
    WellFormed (Nat.toDigits 10 (n / 100) ++ '.' :: decimals n) n := by
  have h := @WellFormed.dot (Nat.toDigits 10 (n / 100)) (decimals n) Nat.toDigits_ne_nil
    (isDigits_toDigits _) (isDigits_decimals n) (by simp [decimals])
  rw [value_toDigits, hundredths_decimals] at h
  rwa [show n / 100 * 100 + n % 100 = n by omega] at h

/-- The whole part of a rendering in groups. -/
theorem wellFormed_grouped (h : Grouped '.' (Nat.toDigits 10 (n / 100)) whole) :
    WellFormed (whole ++ ',' :: decimals n) n := by
  have h := @WellFormed.comma _ whole (decimals n) ⟨isDigits_toDigits _, .inr h⟩ (isDigits_decimals n)
    (by simp [decimals])
  rw [value_toDigits, hundredths_decimals] at h
  rwa [show n / 100 * 100 + n % 100 = n by omega] at h

theorem WellFormed.trimmed_eq (h : WellFormed text n) : trimmed text = text := by
  refine trimmed_of_no_space fun c hc => ?_
  have hsep : ∀ {c : Char}, c.isDigit ∨ c = '.' ∨ c = ',' → isSpace c = false := by
    rintro c (hdigit | rfl | rfl)
    · exact isSpace_of_isDigit hdigit
    · rfl
    · rfl
  apply hsep
  cases h with
  | dot hne hwhole hfrac hlen =>
    simp only [List.mem_append, List.mem_cons] at hc
    rcases hc with hc | rfl | hc
    · exact .inl (hwhole c hc)
    · exact .inr (.inl rfl)
    · exact .inl (hfrac c hc)
  | comma hwhole hfrac hlen =>
    simp only [List.mem_append, List.mem_cons] at hc
    rcases hc with hc | rfl | hc
    · exact (hwhole.chars c hc).imp id .inl
    · exact .inr (.inr rfl)
    · exact .inl (hfrac c hc)

/-- Every amount that the bank is sent is read back, and so is every rendering in groups with a decimal
comma; a text with a separator is never misread exactly when its dots are not misplaced. -/
theorem bankAmounts_iff (n : Nat) (whole : List Char) (raw : String) :
    toMinorUnits (some (toBankAmount n)) = some (toString n) ∧
    (Grouped '.' (Nat.toDigits 10 (n / 100)) whole →
      toMinorUnits (some (String.ofList (whole ++ ',' :: decimals n))) = some (toString n)) ∧
    (',' ∈ raw.toList ∨ '.' ∈ raw.toList → (NeverMisread raw ↔ ¬Misplaced (trimmed raw.toList))) := by
  refine ⟨?_, fun h => ?_, neverMisread_iff⟩
  · have hwell := wellFormed_toBankAmount n
    refine toMinorUnits_of_wellFormed hwell ?_
    rw [toBankAmount_toList, hwell.trimmed_eq]
  · have hwell := wellFormed_grouped h
    refine toMinorUnits_of_wellFormed hwell ?_
    rw [String.toList_ofList, hwell.trimmed_eq]

/-- An amount with its thousands in a group. -/
theorem thousands_read :
    toMinorUnits (some (String.ofList (['1', '.', '2', '3', '4'] ++ ',' :: decimals 123456))) =
      some (toString 123456) :=
  (bankAmounts_iff 123456 _ "1,5").2.1
    ⟨['1'], [['2', '3', '4']], by decide, by decide, by decide +kernel, by decide⟩

/-- The dot of a group that is too short is dropped as well. -/
theorem short_group_misread : toMinorUnits (some "1.2,5") = some "1250" ∧ ¬NeverMisread "1.2,5" := by
  refine ⟨by decide +kernel, ?_⟩
  rw [neverMisread_iff (by decide), not_not]
  refine ⟨['1', '.', '2'], ['5'], by decide, List.all_iff_forall_prop.mp (by decide),
    List.any_iff_exists_prop.mp (by decide), by decide, .inr fun digits h => ?_⟩
  rcases h.cases with rfl | ⟨first, rest, -, -, hrest, rfl, htext⟩
  · exact h.1.not_mem (c := '.') rfl (by simp)
  · have hsplit := congrArg (List.splitOn '.') htext
    rw [splitOn_intercalate rfl h.1 (by simp), show ['1', '.', '2'].splitOn '.' = [['1'], ['2']] by decide]
      at hsplit
    obtain rfl : [['2']] = rest := (List.cons.inj hsplit).2
    simpa using hrest ['2'] (by simp)

end Splite.Mercantil
