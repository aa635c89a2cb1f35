import Mathlib.Data.List.Basic
import Mathlib.Data.List.Forall2

/-!
# Separated values

Records of fields in a text: a separator between two fields and a line break behind every record. A field may
stand between quotes, and then it may hold separators, line breaks, and quotes that are doubled.

* `readFrom_field`: a field is read back from every way to write it.
* `read_join`: and so is a list of records.
-/

namespace Csv

/-- Where a reader is in a field. -/
inductive Place where
  | start
  | bare
  | quoted
  /-- Behind a quote in a quoted field: it ends the field, or another one follows. -/
  | quote
  /-- Behind a carriage return that ends a record. -/
  | feed
  deriving DecidableEq, Repr

/-- The records of what is left of a text, from a place in a field; `record` are the fields before it. -/
def readFrom (sep quote : Char) :
    Place → List (List Char) → List Char → List Char → Option (List (List (List Char)))
  | place, record, field, [] =>
    if place = .quoted ∨ place = .feed then none
    else if place = .start ∧ record = [] then some []
    else some [record ++ [field]]
  | .quoted, record, field, c :: s =>
    if c = quote then readFrom sep quote .quote record field s
    else readFrom sep quote .quoted record (field ++ [c]) s
  | .feed, record, field, c :: s =>
    if c = '\n' then (readFrom sep quote .start [] [] s).map ((record ++ [field]) :: ·) else none
  | place, record, field, c :: s =>
    if c = sep then readFrom sep quote .start (record ++ [field]) [] s
    else if c = '\r' then readFrom sep quote .feed record field s
    else if c = '\n' then (readFrom sep quote .start [] [] s).map ((record ++ [field]) :: ·)
    else if c = quote then
      if place = .bare then none
      else readFrom sep quote .quoted record (if place = .quote then field ++ [c] else field) s
    else if place = .quote then none
    else readFrom sep quote .bare record (field ++ [c]) s

/-- The records of a text. -/
def read (sep quote : Char) (text : List Char) : Option (List (List (List Char))) :=
  readFrom sep quote .start [] [] text

/-- What a field must be quoted for. -/
def Special (sep quote c : Char) : Prop := c = sep ∨ c = quote ∨ c = '\r' ∨ c = '\n'

/-- A field with its quotes doubled. -/
def doubled (quote : Char) (field : List Char) : List Char :=
  field.flatMap fun c => if c = quote then [quote, quote] else [c]

/-- The ways to write a field. -/
inductive Written (sep quote : Char) : List Char → List Char → Prop where
  | bare {field : List Char} (h : ∀ c ∈ field, ¬Special sep quote c) : Written sep quote field field
  | quoted (field : List Char) : Written sep quote field (quote :: (doubled quote field ++ [quote]))

/-- The characters that mark the structure are different. -/
structure Marks (sep quote : Char) : Prop where
  ne : sep ≠ quote
  sep_return : sep ≠ '\r'
  sep_feed : sep ≠ '\n'
  quote_return : quote ≠ '\r'
  quote_feed : quote ≠ '\n'

variable {sep quote : Char} {record : List (List Char)} {field s rest : List Char} {c : Char}

/-- Places behind which a field may end. -/
def Place.Ends (place : Place) : Prop := place ≠ .quoted ∧ place ≠ .feed

theorem readFrom_sep {place : Place} (h : place.Ends) :
    readFrom sep quote place record field (sep :: rest) =
      readFrom sep quote .start (record ++ [field]) [] rest := by
  obtain ⟨hquoted, hfeed⟩ := h
  cases place <;> simp_all [readFrom]

theorem readFrom_break (hm : Marks sep quote) {place : Place} (h : place.Ends) :
    readFrom sep quote place record field ('\r' :: '\n' :: rest) =
      (readFrom sep quote .start [] [] rest).map ((record ++ [field]) :: ·) := by
  obtain ⟨hquoted, hfeed⟩ := h
  have hsep := hm.sep_return.symm
  cases place <;> simp_all [readFrom]

theorem readFrom_plain {place : Place} (hplace : place = .start ∨ place = .bare) (hc : ¬Special sep quote c) :
    readFrom sep quote place record field (c :: s) = readFrom sep quote .bare record (field ++ [c]) s := by
  simp only [Special, not_or] at hc
  rcases hplace with rfl | rfl <;> simp [readFrom, hc]

/-- Of an unquoted field every character is kept. -/
theorem readFrom_bare (h : ∀ c ∈ s, ¬Special sep quote c) :
    readFrom sep quote .bare record field (s ++ rest) = readFrom sep quote .bare record (field ++ s) rest := by
  induction s generalizing field with
  | nil => simp
  | cons c s ih =>
    obtain ⟨hc, hs⟩ := List.forall_mem_cons.mp h
    rw [List.cons_append, readFrom_plain (.inr rfl) hc, ih hs, List.append_assoc, List.singleton_append]

/-- Of a quoted field too, and of its doubled quotes one each. -/
theorem readFrom_doubled (hm : Marks sep quote) :
    readFrom sep quote .quoted record field (doubled quote s ++ rest) =
      readFrom sep quote .quoted record (field ++ s) rest := by
  induction s generalizing field with
  | nil => simp [doubled]
  | cons c s ih =>
    have hstep : readFrom sep quote .quoted record field (doubled quote (c :: s) ++ rest) =
        readFrom sep quote .quoted record (field ++ [c]) (doubled quote s ++ rest) := by
      by_cases hc : c = quote
      · subst hc
        simp [doubled, readFrom, hm.ne.symm, hm.quote_return, hm.quote_feed]
      · simp [doubled, readFrom, hc]
    rw [hstep, ih, List.append_assoc, List.singleton_append]

/-- A field is read from every way to write it, and the reader is then where it may end. -/
theorem readFrom_field (hm : Marks sep quote) (h : Written sep quote field s) :
    ∃ place : Place, place.Ends ∧ ∀ record rest,
      readFrom sep quote .start record [] (s ++ rest) = readFrom sep quote place record field rest := by
  cases h with
  | bare h =>
    cases field with
    | nil => exact ⟨.start, by simp [Place.Ends], fun _ _ => rfl⟩
    | cons c field =>
      obtain ⟨hc, hfield⟩ := List.forall_mem_cons.mp h
      refine ⟨.bare, by simp [Place.Ends], fun record rest => ?_⟩
      rw [List.cons_append, readFrom_plain (.inl rfl) hc, readFrom_bare hfield]
      rfl
  | quoted =>
    refine ⟨.quote, by simp [Place.Ends], fun record rest => ?_⟩
    have hopen : ∀ t, readFrom sep quote .start record [] (quote :: t) =
        readFrom sep quote .quoted record [] t := fun t => by
      simp [readFrom, hm.ne.symm, hm.quote_return, hm.quote_feed]
    have hclose : ∀ t, readFrom sep quote .quoted record field (quote :: t) =
        readFrom sep quote .quote record field t := fun t => by simp [readFrom]
    rw [List.cons_append, hopen, List.append_assoc, readFrom_doubled hm, List.nil_append,
      List.singleton_append, hclose]

/-- A record is read from its fields with separators between them. -/
theorem readFrom_record (hm : Marks sep quote) {fields texts : List (List Char)} (hne : fields ≠ [])
    (h : List.Forall₂ (Written sep quote) fields texts) :
    readFrom sep quote .start record [] ([sep].intercalate texts ++ '\r' :: '\n' :: rest) =
      (readFrom sep quote .start [] [] rest).map ((record ++ fields) :: ·) := by
  induction h generalizing record with
  | nil => exact absurd rfl hne
  | @cons field text fields texts hfirst hrest ih =>
    obtain ⟨place, hends, hread⟩ := readFrom_field hm hfirst
    by_cases hnil : fields = []
    · subst hnil
      obtain rfl := List.forall₂_nil_left_iff.mp hrest
      rw [List.intercalate_singleton, hread, readFrom_break hm hends]
    · obtain ⟨text', texts, rfl⟩ : ∃ text' texts', texts = text' :: texts' := by
        refine List.exists_cons_of_ne_nil fun htexts => hnil ?_
        subst htexts
        exact List.forall₂_nil_right_iff.mp hrest
      rw [List.intercalate_cons_cons, List.append_assoc, List.append_assoc, hread, List.singleton_append,
        readFrom_sep hends, ih hnil, List.append_assoc, List.singleton_append]

/-- The text of a record. -/
def Line (sep quote : Char) (fields : List (List Char)) (line : List Char) : Prop :=
  fields ≠ [] ∧ ∃ texts, List.Forall₂ (Written sep quote) fields texts ∧ line = [sep].intercalate texts

/-- Records are read from their lines with line breaks between them and one at the end. -/
theorem read_join (hm : Marks sep quote) {records : List (List (List Char))} {lines : List (List Char)}
    (hne : lines ≠ []) (h : List.Forall₂ (Line sep quote) records lines) :
    read sep quote (['\r', '\n'].intercalate lines ++ ['\r', '\n']) = some records := by
  unfold read
  induction h with
  | nil => exact absurd rfl hne
  | @cons fields line records lines hline hlines ih =>
    obtain ⟨hfields, texts, htexts, rfl⟩ := hline
    cases lines with
    | nil =>
      obtain rfl := List.forall₂_nil_right_iff.mp hlines
      rw [List.intercalate_singleton, readFrom_record hm hfields htexts]
      rfl
    | cons line' lines =>
      have hsplit : ∀ a b : List Char, (a ++ ['\r', '\n'] ++ b) ++ ['\r', '\n'] =
          a ++ '\r' :: '\n' :: (b ++ ['\r', '\n']) := by simp
      rw [List.intercalate_cons_cons, hsplit, readFrom_record hm hfields htexts, ih (by simp)]
      rfl

end Csv
