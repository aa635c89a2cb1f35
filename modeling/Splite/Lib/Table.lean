import Mathlib.Tactic
import Mathlib.Data.List.Nodup
import Mathlib.Algebra.Order.BigOperators.Group.List

/-!
# Tables with a primary key

A `Table ρ` is a list of rows of which no two have the same key, so a table that breaks its primary
key cannot be built. Rows are found, inserted, updated and deleted as the statements of a database
do it.

* `Table.find?_eq_some`: the one row of a key.
* `Table.mem_update`, `Table.find?_update`: what an update leaves of every row.
* `Table.total`: the sum of an amount over all rows, and what an insert (`total_insert`) and the
  update of one row (`total_update`) do to it.
-/

/-- Rows of type `ρ` are identified by a key of type `κ`. -/
class Keyed (ρ : Type) (κ : outParam Type) where
  key : ρ → κ

/-- The rows of a table, no two with the same key. -/
structure Table (ρ : Type) {κ : Type} [Keyed ρ κ] where
  rows : List ρ
  nodup : (rows.map Keyed.key).Nodup

namespace Table

variable {ρ κ : Type} [Keyed ρ κ]

instance : EmptyCollection (Table ρ) := ⟨⟨[], List.nodup_nil⟩⟩

instance : Membership ρ (Table ρ) := ⟨fun t r => r ∈ t.rows⟩

instance [DecidableEq ρ] : DecidableEq (Table ρ) := fun t t' =>
  decidable_of_iff (t.rows = t'.rows) ⟨fun h => by cases t; cases t'; simpa using h, fun h => by rw [h]⟩

instance [DecidableEq ρ] (t : Table ρ) (r : ρ) : Decidable (r ∈ t) :=
  inferInstanceAs (Decidable (r ∈ t.rows))

theorem mem_def {t : Table ρ} {r : ρ} : r ∈ t ↔ r ∈ t.rows := Iff.rfl

/-- Two rows of one key are the same row. -/
theorem eq_of_key {t : Table ρ} {r r' : ρ} (h : r ∈ t) (h' : r' ∈ t)
    (hk : Keyed.key r = Keyed.key r') : r = r' :=
  List.inj_on_of_nodup_map t.nodup h h' hk

variable [DecidableEq κ]

/-- The row with key `k`. -/
def find? (t : Table ρ) (k : κ) : Option ρ := t.rows.find? fun r => Keyed.key r = k

/-- `UPDATE … WHERE p`, with new values that keep the key. -/
def updateWhere (t : Table ρ) (p : ρ → Bool) (f : ρ → ρ)
    (hf : ∀ r, Keyed.key (f r) = Keyed.key r) : Table ρ where
  rows := t.rows.map fun r => if p r then f r else r
  nodup := by
    rw [List.map_map]
    have : Keyed.key ∘ (fun r => if p r then f r else r) = (Keyed.key : ρ → κ) := by
      funext r
      simp only [Function.comp_apply]
      split
      · exact hf r
      · rfl
    rw [this]
    exact t.nodup

/-- `UPDATE … WHERE id = k`. -/
def update (t : Table ρ) (k : κ) (f : ρ → ρ) (hf : ∀ r, Keyed.key (f r) = Keyed.key r) : Table ρ :=
  t.updateWhere (fun r => Keyed.key r = k) f hf

/-- `DELETE … WHERE p`. -/
def deleteWhere (t : Table ρ) (p : ρ → Bool) : Table ρ where
  rows := t.rows.filter fun r => !p r
  nodup := t.nodup.sublist (List.filter_sublist.map _)

/-- `INSERT`, which a row of the same key refuses. -/
def insert? (t : Table ρ) (r : ρ) : Option (Table ρ) :=
  if h : Keyed.key r ∈ t.rows.map Keyed.key then none
  else some
    { rows := t.rows ++ [r]
      nodup := by
        rw [List.map_append, List.map_singleton]
        exact List.nodup_append.mpr ⟨t.nodup, List.nodup_singleton _, by
          rintro a ha b hb rfl
          exact h (List.mem_singleton.mp hb ▸ ha)⟩ }

/-- `INSERT` of one row after the other. -/
def insertAll? (t : Table ρ) : List ρ → Option (Table ρ)
  | [] => some t
  | r :: rs => (t.insert? r).bind fun t' => t'.insertAll? rs

/-! ## The rows after a statement -/

section Rows

variable {t t' : Table ρ} {r : ρ} {k : κ} {p : ρ → Bool} {f : ρ → ρ}
  {hf : ∀ r, Keyed.key (f r) = Keyed.key r}

theorem find?_eq_some : t.find? k = some r ↔ r ∈ t ∧ Keyed.key r = k := by
  constructor
  · intro h
    exact ⟨List.mem_of_find?_eq_some h, by simpa using List.find?_some h⟩
  · rintro ⟨hm, hk⟩
    have hs : (t.find? k).isSome := List.find?_isSome.mpr ⟨r, hm, by simpa using hk⟩
    obtain ⟨r', hr'⟩ := Option.isSome_iff_exists.mp hs
    have hk' : Keyed.key r' = k := by simpa using List.find?_some hr'
    rw [hr', eq_of_key (List.mem_of_find?_eq_some hr') hm (hk'.trans hk.symm)]

theorem find?_eq_none : t.find? k = none ↔ ∀ r ∈ t, Keyed.key r ≠ k := by
  simp [find?, mem_def]

theorem find?_mem (h : t.find? k = some r) : r ∈ t := (find?_eq_some.mp h).1

theorem find?_key (h : t.find? k = some r) : Keyed.key r = k := (find?_eq_some.mp h).2

omit [DecidableEq κ] in
theorem mem_updateWhere : r ∈ t.updateWhere p f hf ↔ ∃ r₀ ∈ t, r = if p r₀ then f r₀ else r₀ := by
  simp only [mem_def, updateWhere, List.mem_map]
  exact ⟨fun ⟨a, h, e⟩ => ⟨a, h, e.symm⟩, fun ⟨a, h, e⟩ => ⟨a, h, e.symm⟩⟩

theorem mem_update : r ∈ t.update k f hf ↔
    ∃ r₀ ∈ t, r = if Keyed.key r₀ = k then f r₀ else r₀ := by
  simp [update, mem_updateWhere]

omit [DecidableEq κ] in
theorem mem_deleteWhere : r ∈ t.deleteWhere p ↔ r ∈ t ∧ p r = false := by
  simp [mem_def, deleteWhere]

omit [DecidableEq κ] in
@[simp] theorem keys_updateWhere :
    (t.updateWhere p f hf).rows.map Keyed.key = t.rows.map Keyed.key := by
  simp only [updateWhere, List.map_map]
  refine List.map_congr_left fun r _ => ?_
  simp only [Function.comp_apply]
  split
  · exact hf r
  · rfl

theorem find?_updateWhere :
    (t.updateWhere p f hf).find? k = (t.find? k).map fun r => if p r then f r else r := by
  unfold find? updateWhere
  rw [List.find?_map]
  congr 2
  funext r
  simp only [Function.comp_apply]
  split
  · rw [hf]
  · rfl

theorem find?_update {k' : κ} :
    (t.update k f hf).find? k' = if k' = k then (t.find? k').map f else t.find? k' := by
  unfold update
  rw [find?_updateWhere]
  cases h : t.find? k' with
  | none => simp
  | some r =>
    have := find?_key h
    by_cases hk : k' = k
    · simp [this, hk]
    · simp [this, hk]

/-- `find?_update`, for a row that is written by name. -/
theorem find?_update_with (f : ρ → ρ) (hf : ∀ r, Keyed.key (f r) = Keyed.key r) (k' : κ) :
    (t.update k f hf).find? k' = if k' = k then (t.find? k').map f else t.find? k' :=
  find?_update

/-- The row of the key is found updated. -/
theorem find?_update_self (f : ρ → ρ) (hf : ∀ r, Keyed.key (f r) = Keyed.key r)
    (h : t.find? k = some r) : (t.update k f hf).find? k = some (f r) := by
  rw [find?_update, if_pos rfl, h, Option.map_some]

/-- The rows after the update of the one row of a key. -/
theorem mem_update_of_find {r₀ : ρ} (f : ρ → ρ) (hf : ∀ r, Keyed.key (f r) = Keyed.key r)
    (h : t.find? k = some r₀) : r ∈ t.update k f hf ↔ r = f r₀ ∨ (r ∈ t ∧ Keyed.key r ≠ k) := by
  obtain ⟨hm, hk₀⟩ := find?_eq_some.mp h
  rw [mem_update]
  constructor
  · rintro ⟨x, hx, rfl⟩
    by_cases hk : Keyed.key x = k
    · rw [if_pos hk, eq_of_key hx hm (hk.trans hk₀.symm)]
      exact .inl rfl
    · rw [if_neg hk]
      exact .inr ⟨hx, hk⟩
  · rintro (rfl | ⟨hr, hk⟩)
    · exact ⟨r₀, hm, by rw [if_pos hk₀]⟩
    · exact ⟨r, hr, by rw [if_neg hk]⟩

theorem update_update {g : ρ → ρ} {hg : ∀ r, Keyed.key (g r) = Keyed.key r} :
    (t.update k f hf).update k g hg = t.update k (g ∘ f) fun r => (hg (f r)).trans (hf r) := by
  simp only [update, updateWhere, List.map_map, Table.mk.injEq]
  congr 1
  funext r
  simp only [Function.comp_apply, decide_eq_true_eq]
  by_cases hk : Keyed.key r = k
  · rw [if_pos hk, if_pos ((hf r).trans hk), if_pos hk]
  · rw [if_neg hk, if_neg hk, if_neg hk]

omit [DecidableEq κ] in
private theorem filter_map_of_not {q : ρ → Bool} {g : ρ → ρ} {l : List ρ}
    (h : ∀ r ∈ l, g r = r ∨ (q r = false ∧ q (g r) = false)) : (l.map g).filter q = l.filter q := by
  induction l with
  | nil => rfl
  | cons r l ih =>
    obtain ⟨hr, hl⟩ := List.forall_mem_cons.mp h
    rw [List.map_cons, List.filter_cons, List.filter_cons, ih hl]
    rcases hr with hr | ⟨hr, hg⟩
    · rw [hr]
    · rw [hr, hg]
      rfl

/-- A query that selects the row of the key neither before nor after an update answers as before. -/
theorem filter_update {q : ρ → Bool} (f : ρ → ρ) (hf : ∀ r, Keyed.key (f r) = Keyed.key r)
    (h : ∀ r ∈ t, Keyed.key r = k → q r = false ∧ q (f r) = false) :
    (t.update k f hf).rows.filter q = t.rows.filter q := by
  refine filter_map_of_not fun r hr => ?_
  by_cases hk : Keyed.key r = k
  · simp [hk, h r hr hk]
  · simp [hk]

omit [DecidableEq κ] in
/-- A query that selects no row that is deleted answers as before. -/
theorem filter_deleteWhere {q : ρ → Bool} (h : ∀ r ∈ t, p r → q r = false) :
    (t.deleteWhere p).rows.filter q = t.rows.filter q := by
  simp only [deleteWhere, List.filter_filter]
  refine List.filter_congr fun r hr => ?_
  cases hp : p r
  · simp
  · simp [h r hr hp]

/-- A row is found after a deletion that leaves it. -/
theorem find?_deleteWhere (h : t.find? k = some r) :
    (t.deleteWhere p).find? k = if p r then none else some r := by
  obtain ⟨hm, hk⟩ := find?_eq_some.mp h
  split
  · rename_i hp
    refine find?_eq_none.mpr fun r' hr' hk' => ?_
    obtain ⟨hr', hp'⟩ := mem_deleteWhere.mp hr'
    obtain rfl := eq_of_key hr' hm (hk'.trans hk.symm)
    simp [hp] at hp'
  · rename_i hp
    exact find?_eq_some.mpr ⟨mem_deleteWhere.mpr ⟨hm, by simpa using hp⟩, hk⟩

theorem update_congr (f g : ρ → ρ) (hf : ∀ r, Keyed.key (f r) = Keyed.key r)
    (hg : ∀ r, Keyed.key (g r) = Keyed.key r) (h : ∀ r ∈ t, Keyed.key r = k → f r = g r) :
    t.update k f hf = t.update k g hg := by
  simp only [update, updateWhere, Table.mk.injEq]
  refine List.map_congr_left fun r hr => ?_
  by_cases hk : Keyed.key r = k
  · simp [hk, h r hr hk]
  · simp [hk]

theorem insert?_eq_some : t.insert? r = some t' ↔
    (∀ r' ∈ t, Keyed.key r' ≠ Keyed.key r) ∧ t'.rows = t.rows ++ [r] := by
  unfold insert?
  split
  · rename_i h
    obtain ⟨r', hr', hk⟩ := List.mem_map.mp h
    simp only [reduceCtorEq, false_iff, not_and]
    exact fun hne => absurd hk (hne r' hr')
  · rename_i h
    have hne : ∀ r' ∈ t, Keyed.key r' ≠ Keyed.key r := fun r' hr' hk =>
      h (List.mem_map.mpr ⟨r', hr', hk⟩)
    constructor
    · rintro ⟨⟩
      exact ⟨hne, rfl⟩
    · rintro ⟨-, ht⟩
      cases t'
      simpa using ht.symm

/-- A row whose key is free is inserted. -/
theorem exists_insert? (h : ∀ r' ∈ t, Keyed.key r' ≠ Keyed.key r) : ∃ t', t.insert? r = some t' := by
  unfold insert?
  rw [dif_neg fun hk => ?_]
  · exact ⟨_, rfl⟩
  · obtain ⟨r', hr', heq⟩ := List.mem_map.mp hk
    exact h r' hr' heq

theorem mem_insert? (h : t.insert? r = some t') {x : ρ} : x ∈ t' ↔ x ∈ t ∨ x = r := by
  rw [mem_def, (insert?_eq_some.mp h).2]
  simp [mem_def]

theorem find?_insert? (h : t.insert? r = some t') :
    t'.find? k = if k = Keyed.key r then some r else t.find? k := by
  obtain ⟨hne, hrows⟩ := insert?_eq_some.mp h
  split
  · rename_i hk
    exact find?_eq_some.mpr ⟨(mem_insert? h).mpr (.inr rfl), hk.symm⟩
  · rename_i hk
    unfold find?
    rw [hrows, List.find?_append]
    have : List.find? (fun x => decide (Keyed.key x = k)) [r] = none := by
      simp [Ne.symm hk]
    rw [this, Option.or_none]

theorem mem_insertAll? {rs : List ρ} (h : t.insertAll? rs = some t') {x : ρ} : x ∈ t' ↔ x ∈ t ∨ x ∈ rs := by
  induction rs generalizing t with
  | nil =>
    cases h
    simp
  | cons r rs ih =>
    obtain ⟨t₁, hins, hrest⟩ := Option.bind_eq_some_iff.mp h
    rw [ih hrest, mem_insert? hins, List.mem_cons, or_assoc]

/-- The rows of before are found as they were. -/
theorem find?_insertAll? {rs : List ρ} (h : t.insertAll? rs = some t') (hr : t.find? k = some r) :
    t'.find? k = some r := by
  obtain ⟨hmem, hkey⟩ := find?_eq_some.mp hr
  exact find?_eq_some.mpr ⟨(mem_insertAll? h).mpr (.inl hmem), hkey⟩

/-- The rows that statements which only insert have added. -/
def added (t t' : Table ρ) : List ρ := t'.rows.drop t.rows.length

omit [DecidableEq κ] in
@[simp] theorem added_self : t.added t = [] := List.drop_length

theorem added_insert (h : t.insert? r = some t') : t.added t' = [r] := by
  rw [added, (insert?_eq_some.mp h).2, List.drop_left]

end Rows

/-! ## Sums over a table -/

/-- The sum of `amount` over all rows. -/
def total (t : Table ρ) (amount : ρ → Int) : Int := (t.rows.map amount).sum

section Total

variable {t t' : Table ρ} {r : ρ} {k : κ} {amount : ρ → Int} {f : ρ → ρ}
  {hf : ∀ r, Keyed.key (f r) = Keyed.key r}

omit [DecidableEq κ] in
@[simp] theorem total_empty : (∅ : Table ρ).total amount = 0 := rfl

theorem total_insert (h : t.insert? r = some t') : t'.total amount = t.total amount + amount r := by
  simp [total, (insert?_eq_some.mp h).2]

omit [DecidableEq κ] in
theorem total_congr {amount' : ρ → Int} (h : ∀ r ∈ t, amount r = amount' r) :
    t.total amount = t.total amount' := by
  unfold total
  rw [List.map_congr_left h]

private theorem sum_map_update {l : List ρ} (hnd : (l.map (Keyed.key : ρ → κ)).Nodup) (hr : r ∈ l) :
    (l.map fun x => amount (if Keyed.key x = Keyed.key r then f x else x)).sum =
      (l.map amount).sum + (amount (f r) - amount r) := by
  induction l with
  | nil => simp at hr
  | cons x l ih =>
    obtain ⟨hx, hnd⟩ := List.nodup_cons.mp (by simpa only [List.map_cons] using hnd)
    simp only [List.map_cons, List.sum_cons]
    rcases List.mem_cons.mp hr with rfl | hr
    · have hrest : (l.map fun x => amount (if Keyed.key x = Keyed.key r then f x else x)) =
          l.map amount := List.map_congr_left fun y hy => by
        rw [if_neg fun hk => hx (List.mem_map.mpr ⟨y, hy, hk⟩)]
      rw [hrest, if_pos rfl]
      ring
    · rw [ih hnd hr, if_neg fun hk => hx (List.mem_map.mpr ⟨r, hr, hk.symm⟩)]
      ring

/-- The update of one row changes the sum by what it changes of that row. -/
theorem total_update (h : t.find? k = some r) :
    (t.update k f hf).total amount = t.total amount + (amount (f r) - amount r) := by
  obtain ⟨hm, rfl⟩ := find?_eq_some.mp h
  unfold total update updateWhere
  rw [List.map_map]
  simp only [decide_eq_true_eq]
  exact sum_map_update t.nodup hm

/-- An update that leaves every amount as it is leaves the sum. -/
theorem total_update_same (f : ρ → ρ) (hf : ∀ r, Keyed.key (f r) = Keyed.key r)
    (h : ∀ r, amount (f r) = amount r) : (t.update k f hf).total amount = t.total amount := by
  unfold total update updateWhere
  rw [List.map_map]
  congr 1
  refine List.map_congr_left fun r _ => ?_
  simp only [Function.comp_apply]
  split
  · exact h r
  · rfl

theorem update_of_none (h : t.find? k = none) : t.update k f hf = t := by
  have hrows : (t.update k f hf).rows = t.rows := by
    simp only [update, updateWhere]
    nth_rewrite 2 [← List.map_id t.rows]
    refine List.map_congr_left fun r hr => ?_
    have := find?_eq_none.mp h r hr
    simp [this]
  cases t
  simpa [update, updateWhere] using hrows

end Total

end Table
