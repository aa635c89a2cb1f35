import Splite.Lib.Machine

/-!
# Traces that a monitor accepts

A monitor reads what a machine answers, one answer after the other, and says of each whether it may come
where it comes.

* `Monitor.accepts_iff`: a trace is accepted when each of its answers may come behind those before it.
* `Machine.monitored`: a machine whose steps are accepted, from states that the monitor mirrors.
-/

structure Monitor (α ω : Type) where
  read : α → ω → α
  ok : α → ω → Prop

namespace Monitor

variable {α ω : Type} (mon : Monitor α ω)

/-- What the monitor knows behind a trace. -/
def readAll (a : α) (trace : List ω) : α := trace.foldl mon.read a

def Accepts : α → List ω → Prop
  | _, [] => True
  | a, o :: os => mon.ok a o ∧ Accepts (mon.read a o) os

variable {mon} {a : α} {l l' : List ω}

theorem accepts_append : mon.Accepts a (l ++ l') ↔ mon.Accepts a l ∧ mon.Accepts (mon.readAll a l) l' := by
  induction l generalizing a with
  | nil => simp [Accepts, readAll]
  | cons o l ih => simp [Accepts, ih, readAll, and_assoc]

theorem accepts_iff :
    mon.Accepts a l ↔ ∀ before o after, l = before ++ o :: after → mon.ok (mon.readAll a before) o := by
  constructor
  · rintro h before o after rfl
    exact (accepts_append.mp h).2.1
  · intro h
    induction l generalizing a with
    | nil => trivial
    | cons o l ih =>
      refine ⟨h [] o l rfl, ih fun before o' after heq => ?_⟩
      subst heq
      exact h (o :: before) o' after rfl

end Monitor

namespace Machine

variable {σ ι ω α : Type} {m : Machine σ ι ω} {mon : Monitor α ω} {G : σ → ι → Prop} {R : σ → α → Prop}
  {s : σ} {a : α} {es : List ι}

/-- Every run of a machine whose steps are accepted is accepted. -/
theorem monitored (hstep : ∀ s e a, R s a → G s e →
      mon.Accepts a (m.step s e).2 ∧ R (m.step s e).1 (mon.readAll a (m.step s e).2))
    (h : R s a) (hG : m.Every G s es) :
    mon.Accepts a (m.outputs s es) ∧ R (m.run s es) (mon.readAll a (m.outputs s es)) := by
  induction es generalizing s a with
  | nil => exact ⟨trivial, h⟩
  | cons e es ih =>
    obtain ⟨haccepts, hR⟩ := hstep s e a h hG.1
    obtain ⟨hrest, hrun⟩ := ih hR hG.2
    refine ⟨Monitor.accepts_append.mpr ⟨haccepts, hrest⟩, ?_⟩
    rw [outputs, Monitor.readAll, List.foldl_append]
    exact hrun

end Machine
