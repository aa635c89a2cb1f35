import Splite.Lib.Interleave

/-!
# Unique indexes and row locks

`t.UniqueOn f`: no two rows of `t` have the same `f`, where they have one. Beside other sessions an index
also counts what they have written and not committed, as a lock on a row does what they have locked: a
session holds keys, and a statement that needs one which they exclude waits for it.

* `Table.UniqueOn.insert`, `Table.UniqueOn.update`, `Table.UniqueOn.rekey`: how the statements of a
  transaction keep an index.
* `Held.Apart.take`: a session that takes keys which nobody excludes is apart from the others.
-/

namespace Table

variable {ρ κ ι : Type} [Keyed ρ κ] [DecidableEq κ] {t t' : Table ρ} {r : ρ} {k : κ} {f : ρ → Option ι}
  {g : ρ → ρ}

/-- The unique index on `f`, which leaves out the rows that have none. -/
def UniqueOn (t : Table ρ) (f : ρ → Option ι) : Prop :=
  ∀ r ∈ t, ∀ r' ∈ t, ∀ x, f r = some x → f r' = some x → r = r'

omit [DecidableEq κ] in
theorem UniqueOn.empty : (∅ : Table ρ).UniqueOn f := fun _ hr => absurd hr List.not_mem_nil

/-- A row that is inserted has a key that no other row has. -/
theorem UniqueOn.insert (h : t.UniqueOn f) (hins : t.insert? r = some t')
    (hnew : ∀ x, f r = some x → ∀ r' ∈ t, f r' ≠ some x) : t'.UniqueOn f := by
  intro a ha b hb x hax hbx
  rcases (mem_insert? hins).mp ha with ha | rfl
  · rcases (mem_insert? hins).mp hb with hb | rfl
    · exact h a ha b hb x hax hbx
    · exact absurd hax (hnew x hbx a ha)
  · rcases (mem_insert? hins).mp hb with hb | rfl
    · exact absurd hbx (hnew x hax b hb)
    · rfl

/-- An update that leaves `f` alone. -/
theorem UniqueOn.update (h : t.UniqueOn f) (hg : ∀ r, Keyed.key (g r) = Keyed.key r)
    (hf : ∀ r, f (g r) = f r) : (t.update k g hg).UniqueOn f := by
  have hpick : ∀ a : ρ, f (if Keyed.key a = k then g a else a) = f a := by
    intro a
    split
    · exact hf a
    · rfl
  intro a ha b hb x hax hbx
  obtain ⟨a₀, ha₀, rfl⟩ := mem_update.mp ha
  obtain ⟨b₀, hb₀, rfl⟩ := mem_update.mp hb
  rw [hpick] at hax hbx
  rw [h a₀ ha₀ b₀ hb₀ x hax hbx]

/-- An update that gives a row a new `f`, which no other row has. -/
theorem UniqueOn.rekey (h : t.UniqueOn f) (hg : ∀ r, Keyed.key (g r) = Keyed.key r)
    (hnew : ∀ r ∈ t, Keyed.key r = k → ∀ x, f (g r) = some x → ∀ r' ∈ t, f r' = some x → Keyed.key r' = k) :
    (t.update k g hg).UniqueOn f := by
  intro a ha b hb x hax hbx
  obtain ⟨a₀, ha₀, rfl⟩ := mem_update.mp ha
  obtain ⟨b₀, hb₀, rfl⟩ := mem_update.mp hb
  by_cases hka : Keyed.key a₀ = k
  · rw [if_pos hka] at hax ⊢
    by_cases hkb : Keyed.key b₀ = k
    · rw [if_pos hkb, eq_of_key ha₀ hb₀ (hka.trans hkb.symm)]
    · rw [if_neg hkb] at hbx
      exact absurd (hnew a₀ ha₀ hka x hax b₀ hb₀ hbx) hkb
  · rw [if_neg hka] at hax ⊢
    by_cases hkb : Keyed.key b₀ = k
    · rw [if_pos hkb] at hbx
      exact absurd (hnew b₀ hb₀ hkb x hbx a₀ ha₀ hax) hka
    · rw [if_neg hkb] at hbx ⊢
      exact h a₀ ha₀ b₀ hb₀ x hax hbx

end Table

namespace Held

variable {τ κ : Type} {keys : τ → List κ} {clash : κ → κ → Bool} {others : List τ} {wanted : List κ}
  {t t' u : τ}

/-- One of the others holds a key that excludes one of these. -/
def taken (keys : τ → List κ) (clash : κ → κ → Bool) (others : List τ) (wanted : List κ) : Bool :=
  others.any fun u => wanted.any fun k => (keys u).any (clash k)

theorem not_taken (h : ¬taken keys clash others wanted = true) (hu : u ∈ others) {k k' : κ} (hk : k ∈ wanted)
    (hk' : k' ∈ keys u) : clash k k' = false := by
  by_contra hclash
  apply h
  simp only [taken, List.any_eq_true]
  exact ⟨u, hu, k, hk, k', hk', by simpa using hclash⟩

theorem not_taken_nil : ¬taken keys clash others [] = true := by
  simp [taken]

/-- No key of the one excludes a key of the other. -/
def Apart (keys : τ → List κ) (clash : κ → κ → Bool) (t u : τ) : Prop :=
  ∀ k ∈ keys t, ∀ k' ∈ keys u, clash k k' = false

theorem Apart.symm (hclash : ∀ k k', clash k k' = clash k' k) (h : Apart keys clash t u) :
    Apart keys clash u t :=
  fun k hk k' hk' => (hclash k k').trans (h k' hk' k hk)

/-- A session that takes keys which nobody excludes is apart from the others. -/
theorem Apart.take (hfree : ¬taken keys clash others wanted = true)
    (hsub : ∀ k ∈ keys t', k ∈ keys t ∨ k ∈ wanted) (hu : u ∈ others) (h : Apart keys clash t u) :
    Apart keys clash t' u := by
  intro k hk k' hk'
  rcases hsub k hk with hold | hnew
  · exact h k hold k' hk'
  · exact not_taken hfree hu hnew hk'

/-- Keys that exclude themselves, and no others. -/
def same [DecidableEq κ] (k k' : κ) : Bool := k = k'

theorem same_symm [DecidableEq κ] (k k' : κ) : same k k' = same k' k := by
  simp [same, eq_comm]

theorem Apart.not_mem [DecidableEq κ] (h : Apart keys same t u) {k : κ} (hk : k ∈ keys t) : k ∉ keys u := by
  intro hku
  simpa [same] using h k hk k hku

theorem not_mem_of_free [DecidableEq κ] (h : ¬taken keys same others wanted = true) (hu : u ∈ others) {k : κ}
    (hk : k ∈ wanted) : k ∉ keys u := by
  intro hku
  simpa [same] using not_taken h hu hk hku

end Held
