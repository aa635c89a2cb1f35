import Mathlib.Tactic
import Mathlib.Data.Prod.Lex

/-!
# Days of the calendar

An ISO date `YYYY-MM-DD`, which is ordered as its text is, and `addDays` and `addMonths` of
`services/platformBilling.js`. The years are those of which `Date.UTC` and the ISO text speak alike,
from 100 to 9999.

* `monthly_eq`: where a step of one month, taken again and again, leads.
* `monthly_eq_addMonths_iff`: when it leads to where one jump does.
-/

namespace Splite

/-- A day, with its month counted from January of the year 0. -/
structure Day where
  month : Int
  day : Nat
  deriving DecidableEq, Repr

namespace Day

def key (d : Day) : Int ×ₗ Nat := toLex (d.month, d.day)

theorem key_injective : Function.Injective key := by
  rintro ⟨m, d⟩ ⟨m', d'⟩ h
  have h := toLex.injective h
  cases h
  rfl

instance : LinearOrder Day := LinearOrder.lift' key key_injective

theorem lt_of_month {d d' : Day} (h : d.month < d'.month) : d < d' :=
  Prod.Lex.toLex_lt_toLex.mpr (.inl h)

def isLeap (year : Int) : Bool := (year % 4 = 0 && year % 100 ≠ 0) || year % 400 = 0

/-- The last day of a month. -/
def lastOf (month : Int) : Nat :=
  match (month % 12).toNat with
  | 1 => if isLeap (month / 12) then 29 else 28
  | 3 | 5 | 8 | 10 => 30
  | _ => 31

private def padded (width : Nat) (n : Int) : String :=
  String.ofList ((toString n).toList.leftpad width '0')

/-- `YYYY-MM-DD`. -/
def text (d : Day) : String :=
  padded 4 (d.month / 12) ++ "-" ++ padded 2 (d.month % 12 + 1) ++ "-" ++ padded 2 d.day

/-- The day after. -/
def next (d : Day) : Day := if d.day < lastOf d.month then ⟨d.month, d.day + 1⟩ else ⟨d.month + 1, 1⟩

/-- The day before. -/
def prev (d : Day) : Day := if 1 < d.day then ⟨d.month, d.day - 1⟩ else ⟨d.month - 1, lastOf (d.month - 1)⟩

/-- `addDays(isoDate, days)`. -/
def addDays (d : Day) : Int → Day
  | .ofNat n => next^[n] d
  | .negSucc n => prev^[n + 1] d

/-- `addMonths(isoDate, months)`: the same day of the month, or the last one of a month that is
shorter. -/
def addMonths (d : Day) (months : Nat) : Day :=
  ⟨d.month + months, min d.day (lastOf (d.month + months))⟩

theorem lt_addMonths (d : Day) {months : Nat} (h : 0 < months) : d < d.addMonths months := by
  refine lt_of_month ?_
  simp only [addMonths]
  omega

/-- From the end of January to the end of February. -/
example : addMonths ⟨2024 * 12, 31⟩ 1 = ⟨2024 * 12 + 1, 29⟩ := by decide

example : addDays ⟨2024 * 12 + 2, 5⟩ (-7) = ⟨2024 * 12 + 1, 27⟩ := by decide

/-! ## Month after month -/

/-- The step of one month, taken `k` times. -/
def monthly (d : Day) (k : Nat) : Day := (fun d => d.addMonths 1)^[k] d

/-- The day of `d`, or the last day of the shortest of the `k` months after it. -/
def shortest (d : Day) (k : Nat) : Nat :=
  ((List.range k).map fun (i : Nat) => lastOf (d.month + (i + 1))).foldl min d.day

variable {d : Day} {k : Nat}

theorem monthly_succ : d.monthly (k + 1) = (d.monthly k).addMonths 1 :=
  Function.iterate_succ_apply' _ _ _

theorem shortest_succ : d.shortest (k + 1) = min (d.shortest k) (lastOf (d.month + (k + 1))) := by
  unfold shortest
  rw [List.range_succ, List.map_append, List.foldl_append]
  rfl

theorem le_shortest_iff {n : Nat} :
    n ≤ d.shortest k ↔ n ≤ d.day ∧ ∀ i < k, n ≤ lastOf (d.month + (i + 1)) := by
  induction k with
  | zero => simp [shortest]
  | succ k ih =>
    rw [shortest_succ, le_min_iff, ih]
    constructor
    · rintro ⟨⟨hday, hbefore⟩, hlast⟩
      refine ⟨hday, fun i hi => ?_⟩
      rcases Nat.lt_succ_iff_lt_or_eq.mp hi with hi | rfl
      · exact hbefore i hi
      · exact hlast
    · rintro ⟨hday, hall⟩
      exact ⟨⟨hday, fun i hi => hall i (by omega)⟩, hall k (by omega)⟩

/-- A month that is shorter takes its last day along into every later month. -/
theorem monthly_eq : d.monthly k = ⟨d.month + k, d.shortest k⟩ := by
  induction k with
  | zero => simp [monthly, shortest]
  | succ k ih =>
    rw [monthly_succ, ih, shortest_succ, addMonths]
    push_cast
    rw [add_assoc]

/-- Steps of one month lead to where the jump does exactly when none of the months on the way is shorter
than both the first day and the last month. -/
theorem monthly_eq_addMonths_iff : d.monthly (k + 1) = d.addMonths (k + 1) ↔
    ∀ i < k, min d.day (lastOf (d.month + (k + 1))) ≤ lastOf (d.month + (i + 1)) := by
  rw [monthly_eq, addMonths, Day.mk.injEq, and_iff_right rfl, shortest_succ]
  push_cast
  have hfirst : d.shortest k ≤ d.day := (le_shortest_iff.mp le_rfl).1
  constructor
  · intro h i hi
    rw [← h]
    exact (min_le_left _ _).trans ((le_shortest_iff.mp le_rfl).2 i hi)
  · intro h
    refine le_antisymm (min_le_min_right _ hfirst) (le_min ?_ (min_le_right _ _))
    exact le_shortest_iff.mpr ⟨min_le_left _ _, h⟩

theorem lt_monthly_succ : d.monthly k < d.monthly (k + 1) := by
  rw [monthly_succ]
  exact lt_addMonths _ Nat.one_pos

theorem monthly_mono {j : Nat} (h : j ≤ k) : d.monthly j ≤ d.monthly k :=
  monotone_nat_of_le_succ (f := d.monthly) (fun _ => lt_monthly_succ.le) h

end Day

end Splite
