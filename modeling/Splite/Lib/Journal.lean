import Mathlib.Data.List.Chain
import Mathlib.Data.List.Infix
import Mathlib.Logic.Relation

/-!
# Journals of state changes

A journal has a row for the state that a thing begins in and one for each change of it. `Replays begins
allowed rows a`: the rows are those of a thing that is in the state `a` now.

* `Replays.isChain`: each row takes up where the last one left off, with a change that is allowed.
* `Replays.reaches`: a journal that goes on leads on from there.
* `Replays.visits_once`: a state that no later one leads back to is entered once, by the things that are in
  it or behind it.
-/

variable {σ : Type} {begins : σ → Prop} {allowed : σ → σ → Prop} {rows : List (Option σ × σ)} {a b x : σ}

inductive Replays (begins : σ → Prop) (allowed : σ → σ → Prop) : List (Option σ × σ) → σ → Prop where
  | begin {a : σ} : begins a → Replays begins allowed [(none, a)] a
  | change {rows : List (Option σ × σ)} {a b : σ} : Replays begins allowed rows a → allowed a b →
      Replays begins allowed (rows ++ [(some a, b)]) b

namespace Replays

/-- The state is the one that the last row leads to. -/
theorem getLast? (h : Replays begins allowed rows a) : rows.getLast?.map Prod.snd = some a := by
  cases h with
  | begin => rfl
  | change => simp

theorem isChain (h : Replays begins allowed rows a) :
    rows.IsChain fun r r' => r'.1 = some r.2 ∧ allowed r.2 r'.2 := by
  induction h with
  | begin => exact .singleton _
  | @change rows a b hrows hab ih =>
    refine List.isChain_append.mpr ⟨ih, .singleton _, fun r hr r' hr' => ?_⟩
    obtain rfl : (some a, b) = r' := by simpa using hr'
    have hlast := hrows.getLast?
    rw [Option.mem_def.mp hr, Option.map_some, Option.some.injEq] at hlast
    subst hlast
    exact ⟨rfl, hab⟩

/-- What the journal says later is reached from what it says now. -/
theorem reaches {rows' : List (Option σ × σ)} (h' : Replays begins allowed rows' b) (hrows : rows <+: rows')
    (h : Replays begins allowed rows a) : Relation.ReflTransGen allowed a b := by
  have hsame : ∀ {b}, Replays begins allowed rows b → Relation.ReflTransGen allowed a b := by
    intro b hb
    have hlast := h.getLast?.symm.trans hb.getLast?
    rw [Option.some.inj hlast]
  induction h' with
  | begin hb =>
    have hne : rows ≠ [] := by
      rintro rfl
      have hlast := h.getLast?
      cases hlast
    rcases List.prefix_cons_iff.mp hrows with rfl | ⟨rest, rfl, hrest⟩
    · exact absurd rfl hne
    · rw [List.prefix_nil.mp hrest] at h hsame
      exact hsame (.begin hb)
  | change hb hbc ih =>
    rcases List.prefix_concat_iff.mp hrows with rfl | hrows
    · exact hsame (hb.change hbc)
    · exact (ih hrows).tail hbc

variable [DecidableEq σ]

/-- How many rows enter the state. -/
def visits (x : σ) (rows : List (Option σ × σ)) : Nat := rows.countP fun r => r.2 = x

theorem visits_append (x : σ) (rows : List (Option σ × σ)) (r : Option σ × σ) :
    visits x (rows ++ [r]) = visits x rows + if r.2 = x then 1 else 0 := by
  simp [visits, List.countP_append, List.countP_singleton]

/-- `late` are the states behind `x`: what leads out of them stays among them, and what leads to them comes
from `x` or from one of them. -/
theorem visits_once {late : σ → Prop} (hx : ∀ b, allowed x b → late b)
    (hlate : ∀ a b, late a → allowed a b → late b) (hnot : ¬late x)
    (hbegin : ∀ a, begins a → ¬late a) (hinto : ∀ a b, allowed a b → late b → a = x ∨ late a)
    (h : Replays begins allowed rows a) :
    visits x rows ≤ 1 ∧ (visits x rows = 1 ↔ a = x ∨ late a) := by
  have hcases : (visits x rows = 0 ∧ a ≠ x ∧ ¬late a) ∨ (visits x rows = 1 ∧ (a = x ∨ late a)) := by
    induction h with
    | @begin a ha =>
      have hearly := hbegin a ha
      by_cases hax : a = x
      · exact .inr ⟨by simp [visits, hax], .inl hax⟩
      · exact .inl ⟨by simp [visits, hax], hax, hearly⟩
    | @change rows a b hrows hab ih =>
      rw [visits_append]
      rcases ih with ⟨hzero, hax, hearly⟩ | ⟨hone, hcase⟩
      · by_cases hb : b = x
        · exact .inr ⟨by simp [hzero, hb], .inl hb⟩
        · refine .inl ⟨by simp [hzero, hb], hb, fun hblate => ?_⟩
          rcases hinto a b hab hblate with rfl | halate
          · exact hax rfl
          · exact hearly halate
      · have hb : late b := by
          rcases hcase with rfl | halate
          · exact hx b hab
          · exact hlate a b halate hab
        have hne : b ≠ x := by
          rintro rfl
          exact hnot hb
        exact .inr ⟨by simp [hone, hne], .inr hb⟩
  rcases hcases with ⟨hzero, hax, hearly⟩ | ⟨hone, hcase⟩
  · rw [hzero]
    simp [hax, hearly]
  · exact ⟨hone.le, iff_of_true hone hcase⟩

end Replays
