import Mathlib.Tactic
import Mathlib.Data.List.Dedup
import Mathlib.Algebra.BigOperators.Group.Finset.Basic

/-!
# Groups of rows

`GROUP BY`: the rows of a query in groups of one key, which no two groups share.

* `find?_rows`: the row that is looked up among those of the groups.
* `sum_groups`: what the groups add up to, the rows add up to.
* `sum_at_keys`: the rows of some keys and those of all others.
-/

variable {α κ β : Type} [DecidableEq κ]

/-- The rows of each key that there is. -/
def groups (key : α → κ) (l : List α) : List (κ × List α) :=
  (l.map key).dedup.map fun k => (k, l.filter fun a => key a = k)

theorem mem_groups {key : α → κ} {l : List α} {g : κ × List α} :
    g ∈ groups key l ↔ (∃ a ∈ l, key a = g.1) ∧ g.2 = l.filter fun a => key a = g.1 := by
  simp only [groups, List.mem_map, List.mem_dedup]
  constructor
  · rintro ⟨k, ⟨a, ha, rfl⟩, rfl⟩
    exact ⟨⟨a, ha, rfl⟩, rfl⟩
  · rintro ⟨⟨a, ha, hk⟩, hg⟩
    exact ⟨g.1, ⟨a, ha, hk⟩, by rw [← hg]⟩

/-- Among rows of the groups in any order, the first one that `p` selects is of the only key that `q`
does. -/
theorem find?_rows {key : α → κ} {l : List α} {row : κ × List α → β} {rows : List β}
    (hrows : rows.Perm ((groups key l).map row)) (p : β → Bool) (q : κ → Bool)
    (hp : ∀ g, p (row g) = q g.1)
    (hone : ∀ a ∈ l, ∀ a' ∈ l, q (key a) = true → q (key a') = true → key a = key a') :
    (rows.find? p = none ∧ (l.filter fun a => q (key a)) = []) ∨
      ∃ g, rows.find? p = some (row g) ∧ g.2 = l.filter fun a => q (key a) := by
  cases hfind : rows.find? p with
  | none =>
    refine .inl ⟨rfl, List.filter_eq_nil_iff.mpr fun a ha hq => ?_⟩
    have hg : (key a, l.filter fun a' => key a' = key a) ∈ groups key l :=
      mem_groups.mpr ⟨⟨a, ha, rfl⟩, rfl⟩
    exact List.find?_eq_none.mp hfind _ (hrows.mem_iff.mpr (List.mem_map.mpr ⟨_, hg, rfl⟩))
      ((hp _).trans hq)
  | some r =>
    obtain ⟨g, hg, rfl⟩ := List.mem_map.mp (hrows.mem_iff.mp (List.mem_of_find?_eq_some hfind))
    obtain ⟨⟨a, ha, hkey⟩, hrows⟩ := mem_groups.mp hg
    have hq : q (key a) = true := by
      rw [hkey, ← hp]
      exact List.find?_some hfind
    refine .inr ⟨g, rfl, hrows.trans (List.filter_congr fun a' ha' => ?_)⟩
    rw [← hkey, Bool.eq_iff_iff, decide_eq_true_eq]
    constructor
    · exact fun h => h ▸ hq
    · exact fun hq' => hone a' ha' a ha hq' hq

variable {M : Type} [AddCommMonoid M]

private theorem sum_keys {key : α → κ} {l : List α} {ks : List κ} (hks : ks.Nodup)
    (hall : ∀ a ∈ l, key a ∈ ks) (P : κ → Bool) (f : α → M) :
    (ks.map fun k => if P k then ((l.filter fun a => key a = k).map f).sum else 0).sum =
      ((l.filter fun a => P (key a)).map f).sum := by
  induction l with
  | nil => simp
  | cons a l ih =>
    obtain ⟨ha, hl⟩ := List.forall_mem_cons.mp hall
    have hstep : ∀ k, (if P k then (((a :: l).filter fun a => key a = k).map f).sum else 0) =
        (if key a = k then (if P k then f a else 0) else 0) +
          (if P k then ((l.filter fun a => key a = k).map f).sum else 0) := by
      intro k
      by_cases hk : key a = k <;> cases hP : P k <;> simp [hk]
    rw [List.map_congr_left fun k _ => hstep k, List.sum_map_add, ih hl,
      ← List.sum_toFinset _ hks, Finset.sum_ite_eq, if_pos (List.mem_toFinset.mpr ha)]
    cases hP : P (key a) <;> simp [hP]

/-- What the groups of the keys that `P` selects add up to, their rows add up to. -/
theorem sum_groups (key : α → κ) (l : List α) (P : κ → Bool) (f : α → M) :
    ((groups key l).map fun g => if P g.1 then (g.2.map f).sum else 0).sum =
      ((l.filter fun a => P (key a)).map f).sum := by
  rw [groups, List.map_map]
  exact sum_keys (List.nodup_dedup _)
    (fun a ha => List.mem_dedup.mpr (List.mem_map.mpr ⟨a, ha, rfl⟩)) P f

/-- All the groups add up to what all the rows do. -/
theorem sum_all_groups (key : α → κ) (l : List α) (f : α → M) :
    ((groups key l).map fun g => (g.2.map f).sum).sum = (l.map f).sum := by
  have h := sum_groups key l (fun _ => true) f
  simpa only [if_true, List.filter_true] using h

/-- Rows of some keys and rows of others. -/
theorem sum_at_keys (key : α → κ) (l : List α) (f : α → M) {ks : List κ} (hks : ks.Nodup) :
    (ks.map fun k => ((l.filter fun a => key a = k).map f).sum).sum +
      ((l.filter fun a => key a ∉ ks).map f).sum = (l.map f).sum := by
  have hall : ∀ a ∈ l.filter fun a => key a ∈ ks, key a ∈ ks := fun a ha => by
    simpa using (List.mem_filter.mp ha).2
  have hsum := sum_keys hks hall (fun _ => true) f
  have hat : ∀ k ∈ ks, (l.filter fun a => key a ∈ ks).filter (fun a => key a = k) =
      l.filter fun a => key a = k := by
    intro k hk
    rw [List.filter_filter]
    refine List.filter_congr fun a _ => ?_
    by_cases heq : key a = k <;> simp [heq, hk]
  simp only [if_true, List.filter_true] at hsum
  rw [List.map_congr_left fun k hk => by rw [hat k hk]] at hsum
  rw [hsum, ← List.sum_append, ← List.map_append]
  have hperm := List.filter_append_perm (fun a => decide (key a ∈ ks)) l
  simpa using (hperm.map f).sum_eq
