import Splite.Mercantil.Matcher

/-!
# The rows that the matcher reads (`services/c2pMatcher.js`)

A row may lack any of its fields, and its amount is a text that `BigInt` may not read.

* `isCandidate_movement`: the filter over the rows is the one over the movements that are read from them.
* `outcome_match`, `movement_match`: what is answered is told from the live rows and the full ones.
* `matchRows_decides`: which answer goes with which rows.
* `matchRows_perm`, `matchRows_respelled`: what the answer does not depend on.
-/

namespace Splite.Mercantil

/-- The value of a digit in some base up to sixteen. -/
def digitOf (c : Char) : Nat :=
  if c.isDigit then c.toNat - 48 else if 97 ≤ c.toLower.toNat then c.toLower.toNat - 87 else 16

/-- Digits of a base after its mark, as `BigInt` reads them. -/
def radix (base : Nat) (digits : List Char) : Option Int :=
  if digits ≠ [] ∧ digits.all (fun c => digitOf c < base) then
    some (digits.foldl (fun n c => base * n + digitOf c) 0 : Nat)
  else none

/-- `BigInt(text)`, none where it throws. -/
def bigInt (text : String) : Option Int :=
  match trimmed text.toList with
  | [] => some 0
  | '+' :: digits => radix 10 digits
  | '-' :: digits => (radix 10 digits).map (- ·)
  | '0' :: mark :: digits =>
    if mark.toLower = 'x' then radix 16 digits
    else if mark.toLower = 'o' then radix 8 digits
    else if mark.toLower = 'b' then radix 2 digits
    else radix 10 ('0' :: mark :: digits)
  | digits => radix 10 digits

example : bigInt " 0126 " = some 126 ∧ bigInt "0x7E" = some 126 ∧ bigInt "126.00" = none := by
  decide +kernel

/-- `amountsEqual(a, b)`. -/
def amountsEqual (a : String) (b : Int) : Bool := bigInt a == some b

/-- A movement with the fields that are there. -/
structure Row where
  reference : Option String
  amountMinor : Option String
  phoneOrigin : Option String
  deriving DecidableEq, Repr

/-- The movement that a row is, to the matcher. -/
def Row.movement (row : Row) : Movement where
  reference := row.reference.getD ""
  amountMinor := row.amountMinor.bind bigInt
  phoneOrigin := row.phoneOrigin.getD ""

/-- The filter of `matchInDoubtPayment`, over a row. -/
def Row.isCandidate (chargedVes : Int) (consumed : List String) (row : Row) : Bool :=
  match row.reference, row.amountMinor with
  | some reference, some amountMinor =>
    reference ≠ "" && !((canonicalReference reference).elim false consumed.contains) &&
      amountsEqual amountMinor chargedVes
  | _, _ => false

/-- The filter over the rows is the filter over their movements. -/
theorem isCandidate_movement (chargedVes : Int) (consumed : List String) (row : Row) :
    isCandidate chargedVes consumed row.movement = row.isCandidate chargedVes consumed := by
  obtain ⟨reference, amountMinor, phone⟩ := row
  cases reference with
  | none => simp [isCandidate, Row.isCandidate, Row.movement]
  | some reference =>
    cases amountMinor with
    | none => simp [isCandidate, Row.isCandidate, Row.movement]
    | some a =>
      cases hread : bigInt a with
      | none => simp [isCandidate, Row.isCandidate, Row.movement, amountsEqual, hread]
      | some n => simp [isCandidate, Row.isCandidate, Row.movement, amountsEqual, hread]

section Rows

variable {chargedVes : Int} {consumed : List String} {last4 : Option String} {row row' : Row}

/-- A row can be the charge: it has a reference that nothing spent, and the amount. -/
def Row.Live (chargedVes : Int) (consumed : List String) (row : Row) : Prop :=
  (∃ reference ∈ row.reference, reference ≠ "" ∧ ∀ c ∈ canonicalReference reference, c ∉ consumed) ∧
    ∃ amount ∈ row.amountMinor, bigInt amount = some chargedVes

/-- The last four digits of a phone are the four that are stored. -/
def SamePhone (phone stored : String) : Prop :=
  ∃ front four, (digitsOnly phone).toList = front ++ four ∧ (digitsOnly stored).toList = four ∧
    four.length = 4

/-- A row is the charge as far as the matcher can tell. -/
def Row.Full (chargedVes : Int) (consumed : List String) (last4 : Option String) (row : Row) : Prop :=
  row.Live chargedVes consumed ∧ ∃ phone ∈ row.phoneOrigin, ∃ stored ∈ last4, SamePhone phone stored

theorem Row.live_iff : row.Live chargedVes consumed ↔ row.isCandidate chargedVes consumed = true := by
  obtain ⟨reference, amountMinor, phone⟩ := row
  cases reference with
  | none => simp [Row.Live, Row.isCandidate]
  | some reference =>
    cases amountMinor with
    | none => simp [Row.Live, Row.isCandidate]
    | some a =>
      cases hc : canonicalReference reference with
      | none => simp [Row.Live, Row.isCandidate, amountsEqual, hc]
      | some c => simp [Row.Live, Row.isCandidate, amountsEqual, hc]

theorem samePhone_iff {phone stored : String} :
    SamePhone phone stored ↔ phoneMatchesLast4 phone stored = true := by
  unfold SamePhone phoneMatchesLast4
  generalize (digitsOnly phone).toList = p
  generalize (digitsOnly stored).toList = s
  constructor
  · rintro ⟨front, four, rfl, rfl, hfour⟩
    simp [hfour]
  · intro h
    dsimp only at h
    split at h
    · cases h
    · rename_i hlen
      simp only [Bool.or_eq_true, decide_eq_true_eq, not_or, not_lt, ne_eq, not_not] at hlen
      exact ⟨p.take (p.length - 4), s, by rw [← beq_iff_eq.mp h, List.take_append_drop], rfl, hlen.2⟩

theorem Row.full_iff : row.Full chargedVes consumed last4 ↔ row.isCandidate chargedVes consumed = true ∧
    phoneMatchesLast4 row.movement.phoneOrigin (last4.getD "") = true := by
  have hnone : ∀ s, phoneMatchesLast4 "" s = false := by
    intro s
    have hempty : digitsOnly "" = "" := by decide +kernel
    simp [phoneMatchesLast4, hempty]
  have hnone' : ∀ p, phoneMatchesLast4 p "" = false := by
    intro p
    have hempty : digitsOnly "" = "" := by decide +kernel
    simp [phoneMatchesLast4, hempty]
  unfold Row.Full
  rw [Row.live_iff, and_congr_right_iff]
  intro _
  unfold Row.movement
  cases hp : row.phoneOrigin with
  | none => simp [hnone]
  | some p =>
    cases last4 with
    | none => simp [hnone']
    | some s => simp [samePhone_iff]

instance : Decidable (row.Live chargedVes consumed) := decidable_of_iff _ Row.live_iff.symm

instance : Decidable (row.Full chargedVes consumed last4) := decidable_of_iff _ Row.full_iff.symm

end Rows

/-! ## The answer -/

/-- `OUTCOME`. -/
inductive Outcome where
  | matched
  | ambiguous
  | noMatch
  deriving DecidableEq, Repr

def Match.outcome : Match → Outcome
  | .matched _ => .matched
  | .ambiguous _ _ => .ambiguous
  | .noMatch => .noMatch

def Match.movement : Match → Option Movement
  | .matched m => some m
  | _ => none

/-- The one element of a list. -/
def only {α : Type} : List α → Option α
  | [a] => some a
  | _ => none

theorem only_perm {α : Type} {l l' : List α} (h : l.Perm l') : only l = only l' := by
  match l, l', h with
  | [], _, h => rw [h.nil_eq]
  | [a], _, h => rw [List.singleton_perm.mp h]
  | _ :: _ :: _, [], h => simpa using h.length_eq
  | _ :: _ :: _, [_], h => simpa using h.length_eq
  | _ :: _ :: _, _ :: _ :: _, _ => rfl

theorem only_eq_some {α : Type} {l : List α} {a : α} : only l = some a ↔ l = [a] := by
  match l with
  | [] => simp [only]
  | [b] => simp [only]
  | _ :: _ :: _ => simp [only]

section Answer

variable {rows rows' : List Row} {chargedVes : Int} {last4 : Option String} {consumed : List String}

/-- What the matcher answers to some rows. -/
def matchRows (rows : List Row) (chargedVes : Int) (last4 : Option String) (consumed : List String) :
    Match :=
  matchInDoubtPayment (rows.map Row.movement) chargedVes (last4.getD "") consumed

theorem candidates_eq : (rows.map Row.movement).filter (isCandidate chargedVes consumed) =
    (rows.filter fun r => r.Live chargedVes consumed).map Row.movement := by
  rw [List.filter_map]
  congr 1
  refine List.filter_congr fun r _ => ?_
  rw [Function.comp_apply, isCandidate_movement, Bool.eq_iff_iff, decide_eq_true_iff, Row.live_iff]

theorem byPhone_eq : ((rows.map Row.movement).filter (isCandidate chargedVes consumed)).filter
      (fun m => phoneMatchesLast4 m.phoneOrigin (last4.getD "")) =
    (rows.filter fun r => r.Full chargedVes consumed last4).map Row.movement := by
  rw [candidates_eq, List.filter_map, List.filter_filter]
  congr 1
  refine List.filter_congr fun r _ => ?_
  rw [Function.comp_apply, Bool.eq_iff_iff, Bool.and_eq_true, decide_eq_true_iff, decide_eq_true_iff,
    Row.full_iff, Row.live_iff, and_comm]

theorem outcome_match : (matchRows rows chargedVes last4 consumed).outcome =
    if rows.countP (fun r => r.Live chargedVes consumed) = 0 then .noMatch
    else if rows.countP (fun r => r.Full chargedVes consumed last4) = 1 then .matched
    else .ambiguous := by
  unfold matchRows matchInDoubtPayment
  dsimp only
  rw [byPhone_eq, candidates_eq, List.countP_eq_length_filter, List.countP_eq_length_filter]
  simp only [List.map_eq_nil_iff, List.length_eq_zero_iff]
  split
  · rfl
  · generalize rows.filter (fun r => decide (r.Full chargedVes consumed last4)) = full
    match full with
    | [] => rfl
    | [_] => rfl
    | _ :: _ :: _ => simp [Match.outcome]

theorem movement_match : (matchRows rows chargedVes last4 consumed).movement =
    (only (rows.filter fun r => r.Full chargedVes consumed last4)).map Row.movement := by
  unfold matchRows matchInDoubtPayment
  dsimp only
  rw [byPhone_eq, candidates_eq]
  split
  · rename_i hnil
    have hnone : rows.filter (fun r => r.Full chargedVes consumed last4) = [] := by
      simp only [List.map_eq_nil_iff, List.filter_eq_nil_iff, decide_eq_true_eq] at hnil ⊢
      exact fun r hr h => hnil r hr h.1
    rw [hnone]
    rfl
  · generalize rows.filter (fun r => decide (r.Full chargedVes consumed last4)) = full
    match full with
    | [] => rfl
    | [_] => rfl
    | _ :: _ :: _ => rfl

/-- The row is the only full one of the list. -/
def OnlyFull (rows : List Row) (chargedVes : Int) (last4 : Option String) (consumed : List String)
    (row : Row) : Prop :=
  ∃ before after, rows = before ++ row :: after ∧ row.Full chargedVes consumed last4 ∧
    ∀ r ∈ before ++ after, ¬r.Full chargedVes consumed last4

theorem onlyFull_iff {row : Row} : OnlyFull rows chargedVes last4 consumed row ↔
    rows.filter (fun r => r.Full chargedVes consumed last4) = [row] := by
  constructor
  · rintro ⟨before, after, rfl, hfull, hno⟩
    have hnone : ∀ l : List Row, (∀ r ∈ l, ¬r.Full chargedVes consumed last4) →
        l.filter (fun r => decide (r.Full chargedVes consumed last4)) = [] := fun l hl =>
      List.filter_eq_nil_iff.mpr fun r hr => by simpa using hl r hr
    obtain ⟨hbefore, hafter⟩ := List.forall_mem_append.mp hno
    rw [List.filter_append, List.filter_cons_of_pos (by simpa using hfull), hnone _ hbefore,
      hnone _ hafter, List.nil_append]
  · intro h
    obtain ⟨before, after, hrows, hbefore, hfull, hafter⟩ := List.filter_eq_cons_iff.mp h
    refine ⟨before, after, hrows, by simpa using hfull, List.forall_mem_append.mpr
      ⟨fun r hr => by simpa using hbefore r hr, fun r hr => ?_⟩⟩
    simpa using List.filter_eq_nil_iff.mp hafter r hr

theorem matchRows_matched {m : Movement} : matchRows rows chargedVes last4 consumed = .matched m ↔
    (matchRows rows chargedVes last4 consumed).movement = some m := by
  cases matchRows rows chargedVes last4 consumed <;> simp [Match.movement]

/-- Which answer goes with which rows. -/
theorem matchRows_decides (rows : List Row) (chargedVes : Int) (last4 : Option String)
    (consumed : List String) :
    (∀ m, matchRows rows chargedVes last4 consumed = .matched m ↔
      ∃ row, OnlyFull rows chargedVes last4 consumed row ∧ row.movement = m) ∧
    ((matchRows rows chargedVes last4 consumed).outcome = .ambiguous ↔
      2 ≤ rows.countP (fun r => r.Full chargedVes consumed last4) ∨
        (∀ r ∈ rows, ¬r.Full chargedVes consumed last4) ∧ ∃ r ∈ rows, r.Live chargedVes consumed) ∧
    ((matchRows rows chargedVes last4 consumed).outcome = .noMatch ↔
      ∀ r ∈ rows, ¬r.Live chargedVes consumed) := by
  have hlive : rows.countP (fun r => r.Live chargedVes consumed) = 0 ↔
      ∀ r ∈ rows, ¬r.Live chargedVes consumed := by
    simp [List.countP_eq_zero]
  have hfull : rows.countP (fun r => r.Full chargedVes consumed last4) = 0 ↔
      ∀ r ∈ rows, ¬r.Full chargedVes consumed last4 := by
    simp [List.countP_eq_zero]
  have hle : rows.countP (fun r => r.Full chargedVes consumed last4) ≤
      rows.countP fun r => r.Live chargedVes consumed :=
    List.countP_mono_left fun r _ h => by simpa using (of_decide_eq_true h : r.Full _ _ _).1
  refine ⟨fun m => ?_, ?_, ?_⟩
  · rw [matchRows_matched, movement_match, Option.map_eq_some_iff]
    simp only [only_eq_some, onlyFull_iff]
  · have hsome : (∃ r ∈ rows, r.Live chargedVes consumed) ↔
        rows.countP (fun r => r.Live chargedVes consumed) ≠ 0 := by
      rw [ne_eq, hlive]
      push Not
      rfl
    rw [outcome_match, ← hfull, hsome]
    split_ifs <;> simp only [false_iff, true_iff] <;> omega
  · rw [outcome_match, ← hlive]
    split_ifs <;> simp_all

/-- A row that says nothing: its reference is spent, or its amount cannot be read. -/
def Row.Dead (consumed : List String) (row : Row) : Prop :=
  (∃ reference ∈ row.reference, ∃ c ∈ canonicalReference reference, c ∈ consumed) ∨
    row.amountMinor.bind bigInt = none

/-- The same row with another spelling of its reference, unless that is empty. -/
def Row.Respelled (row row' : Row) : Prop :=
  row'.amountMinor = row.amountMinor ∧ row'.phoneOrigin = row.phoneOrigin ∧
    (row'.reference = row.reference ∨ ∃ r ∈ row.reference, ∃ r' ∈ row'.reference, r ≠ "" ∧ r' ≠ "" ∧
      canonicalReference r' = canonicalReference r)

theorem Row.Dead.not_live {row : Row} (h : row.Dead consumed) : ¬row.Live chargedVes consumed := by
  rintro ⟨⟨reference, href, -, hfree⟩, amount, hamount, hread⟩
  rcases h with ⟨reference', href', c, hc, hspent⟩ | hnone
  · obtain rfl : reference = reference' := Option.mem_unique href href'
    exact hfree c hc hspent
  · rw [Option.mem_def.mp hamount, Option.bind_some, hread] at hnone
    cases hnone

theorem Row.Respelled.live_iff {row row' : Row} (h : row.Respelled row') :
    row'.Live chargedVes consumed ↔ row.Live chargedVes consumed := by
  obtain ⟨hamount, -, href | ⟨r, hr, r', hr', hne, hne', hsame⟩⟩ := h
  · simp only [Row.Live, hamount, href]
  · simp [Row.Live, hamount, Option.mem_def.mp hr, Option.mem_def.mp hr', hne, hne', hsame]

theorem Row.Respelled.full_iff {row row' : Row} (h : row.Respelled row') :
    row'.Full chargedVes consumed last4 ↔ row.Full chargedVes consumed last4 := by
  unfold Row.Full
  rw [h.live_iff, h.2.1]

/-- The order of the rows, and rows that say nothing, change nothing. -/
theorem matchRows_perm {extra : List Row} (hextra : ∀ r ∈ extra, r.Dead consumed)
    (h : rows'.Perm (extra ++ rows)) :
    (matchRows rows' chargedVes last4 consumed).outcome = (matchRows rows chargedVes last4 consumed).outcome ∧
      (matchRows rows' chargedVes last4 consumed).movement =
        (matchRows rows chargedVes last4 consumed).movement := by
  have hlive : extra.countP (fun r => r.Live chargedVes consumed) = 0 :=
    List.countP_eq_zero.mpr fun r hr => by simpa using (hextra r hr).not_live
  have hfull : extra.filter (fun r => r.Full chargedVes consumed last4) = [] :=
    List.filter_eq_nil_iff.mpr fun r hr hf => (hextra r hr).not_live (of_decide_eq_true hf).1
  have hperm := h.filter fun r => decide (r.Full chargedVes consumed last4)
  rw [List.filter_append, hfull, List.nil_append] at hperm
  have hcount : rows'.countP (fun r => decide (r.Full chargedVes consumed last4)) =
      rows.countP fun r => r.Full chargedVes consumed last4 := by
    rw [List.countP_eq_length_filter, hperm.length_eq, List.countP_eq_length_filter]
  constructor
  · rw [outcome_match, outcome_match, h.countP_eq, List.countP_append, hlive, Nat.zero_add, hcount]
  · rw [movement_match, movement_match, only_perm hperm]

/-- Another spelling of the references changes nothing, and the row that is taken stands where it stood. -/
theorem matchRows_respelled (h : List.Forall₂ Row.Respelled rows rows') :
    (matchRows rows' chargedVes last4 consumed).outcome = (matchRows rows chargedVes last4 consumed).outcome ∧
      ∀ m, (matchRows rows chargedVes last4 consumed).movement = some m → ∃ row row',
        (row, row') ∈ rows.zip rows' ∧ row.movement = m ∧
          (matchRows rows' chargedVes last4 consumed).movement = some row'.movement := by
  obtain ⟨hlen, hmem⟩ := List.forall₂_iff_zip.mp h
  set pairs := rows.zip rows' with hpairs
  have hfst : rows = pairs.map Prod.fst := (List.map_fst_zip hlen.le).symm
  have hsnd : rows' = pairs.map Prod.snd := (List.map_snd_zip hlen.ge).symm
  have hfilter : rows'.filter (fun r => decide (r.Full chargedVes consumed last4)) =
      (pairs.filter fun p => p.1.Full chargedVes consumed last4).map Prod.snd := by
    rw [hsnd, List.filter_map]
    congr 1
    refine List.filter_congr fun p hp => ?_
    simpa using (hmem hp).full_iff
  have hfilter' : rows.filter (fun r => decide (r.Full chargedVes consumed last4)) =
      (pairs.filter fun p => p.1.Full chargedVes consumed last4).map Prod.fst := by
    rw [hfst, List.filter_map]
    rfl
  have hcount : rows'.countP (fun r => decide (r.Live chargedVes consumed)) =
      rows.countP fun r => r.Live chargedVes consumed := by
    rw [hfst, hsnd, List.countP_map, List.countP_map]
    refine List.countP_congr fun p hp => ?_
    simpa using (hmem hp).live_iff
  constructor
  · have hcountFull : rows'.countP (fun r => decide (r.Full chargedVes consumed last4)) =
        rows.countP fun r => r.Full chargedVes consumed last4 := by
      rw [List.countP_eq_length_filter, List.countP_eq_length_filter, hfilter, hfilter', List.length_map,
        List.length_map]
    rw [outcome_match, outcome_match, hcount, hcountFull]
  · intro m hm
    rw [movement_match, Option.map_eq_some_iff] at hm
    obtain ⟨row, hone, rfl⟩ := hm
    rw [only_eq_some, hfilter'] at hone
    obtain ⟨p, hp, rfl⟩ := List.map_eq_singleton_iff.mp hone
    have hpmem : p ∈ pairs := by
      have hself : p ∈ [p] := List.mem_singleton_self p
      rw [← hp] at hself
      exact (List.mem_filter.mp hself).1
    refine ⟨p.1, p.2, hpmem, rfl, ?_⟩
    rw [movement_match, hfilter, hp]
    rfl

/-- The matcher decides by one rule, and neither the order of the movements, nor how a reference is
spelled, nor movements that say nothing change what it decides. -/
theorem matchInDoubtPayment_decides (rows : List Row) (chargedVes : Int) (last4 : Option String)
    (consumed : List String) :
    (∀ m, matchRows rows chargedVes last4 consumed = .matched m ↔
      ∃ row, OnlyFull rows chargedVes last4 consumed row ∧ row.movement = m) ∧
    ((matchRows rows chargedVes last4 consumed).outcome = .ambiguous ↔
      2 ≤ rows.countP (fun r => r.Full chargedVes consumed last4) ∨
        (∀ r ∈ rows, ¬r.Full chargedVes consumed last4) ∧ ∃ r ∈ rows, r.Live chargedVes consumed) ∧
    ((matchRows rows chargedVes last4 consumed).outcome = .noMatch ↔
      ∀ r ∈ rows, ¬r.Live chargedVes consumed) ∧
    (∀ extra rows', (∀ r ∈ extra, r.Dead consumed) → rows'.Perm (extra ++ rows) →
      (matchRows rows' chargedVes last4 consumed).outcome =
          (matchRows rows chargedVes last4 consumed).outcome ∧
        (matchRows rows' chargedVes last4 consumed).movement =
          (matchRows rows chargedVes last4 consumed).movement) ∧
    ∀ rows', List.Forall₂ Row.Respelled rows rows' →
      (matchRows rows' chargedVes last4 consumed).outcome =
          (matchRows rows chargedVes last4 consumed).outcome ∧
        ∀ m, (matchRows rows chargedVes last4 consumed).movement = some m → ∃ row row',
          (row, row') ∈ rows.zip rows' ∧ row.movement = m ∧
            (matchRows rows' chargedVes last4 consumed).movement = some row'.movement := by
  obtain ⟨hmatched, hambiguous, hnone⟩ := matchRows_decides rows chargedVes last4 consumed
  exact ⟨hmatched, hambiguous, hnone, fun _ _ hextra hperm => matchRows_perm hextra hperm,
    fun _ hspelled => matchRows_respelled hspelled⟩

end Answer

end Splite.Mercantil
