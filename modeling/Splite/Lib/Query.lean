import Mathlib.Tactic

/-!
# Rows of a query that states no order

A `SELECT … LIMIT n` without `ORDER BY` may come back with any `n` of the rows that match, in any order.
-/

/-- An order in which a query may come back with its rows. -/
structure RowOrder (ρ : Type) where
  arrange : List ρ → List ρ
  perm : ∀ rows, (arrange rows).Perm rows

namespace RowOrder

variable {ρ : Type} (o : RowOrder ρ) {n : Nat} {rows : List ρ} {r : ρ}

/-- The order in which the rows are stored. -/
def stored : RowOrder ρ := ⟨fun rows => rows, .refl⟩

/-- `LIMIT n`. -/
def limit (n : Nat) (rows : List ρ) : List ρ := (o.arrange rows).take n

variable {o}

theorem mem_of_limit (h : r ∈ o.limit n rows) : r ∈ rows :=
  (o.perm rows).mem_iff.mp (List.mem_of_mem_take h)

theorem length_limit : (o.limit n rows).length = min n rows.length := by
  rw [limit, List.length_take, (o.perm rows).length_eq]

theorem nodup_limit {κ : Type} {key : ρ → κ} (h : (rows.map key).Nodup) :
    ((o.limit n rows).map key).Nodup := by
  rw [limit, List.map_take]
  exact ((((o.perm rows).map key).nodup_iff).mpr h).sublist (List.take_sublist _ _)

end RowOrder
