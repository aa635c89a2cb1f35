import Splite.Lib.Machine

/-!
# Inputs that nobody notices

Two runs of a machine side by side, of which the second leaves out the inputs that `silent` says.

* `Machine.outputs_unnoticed`: they answer the same, when a relation of their states says so of every
  step.
-/

namespace Machine

variable {σ ι ω : Type}

/-- A relation of states that a silent input keeps on its own, and any other on both sides. -/
structure Unnoticed (m : Machine σ ι ω) (silent : ι → Bool) (G : σ → ι → Prop) (R : σ → σ → Prop) :
    Prop where
  left : ∀ s s' e, R s s' → G s e → silent e = true → R (m.step s e).1 s' ∧ (m.step s e).2 = []
  both : ∀ s s' e, R s s' → G s e → silent e = false →
    R (m.step s e).1 (m.step s' e).1 ∧ (m.step s e).2 = (m.step s' e).2

variable {m : Machine σ ι ω} {silent : ι → Bool} {G : σ → ι → Prop} {R : σ → σ → Prop} {s s' : σ}
  {es : List ι}

/-- The run without the silent inputs ends in a related state, and answers the same. -/
theorem outputs_unnoticed (h : m.Unnoticed silent G R) (hR : R s s') (hG : m.Every G s es) :
    R (m.run s es) (m.run s' (es.filter fun e => !silent e)) ∧
      m.outputs s es = m.outputs s' (es.filter fun e => !silent e) := by
  induction es generalizing s s' with
  | nil => exact ⟨hR, rfl⟩
  | cons e es ih =>
    cases he : silent e with
    | true =>
      obtain ⟨hR', hnone⟩ := h.left s s' e hR hG.1 he
      obtain ⟨hrun, hout⟩ := ih hR' hG.2
      rw [List.filter_cons_of_neg (by simp [he])]
      refine ⟨hrun, ?_⟩
      rw [outputs, hnone, List.nil_append]
      exact hout
    | false =>
      obtain ⟨hR', hsame⟩ := h.both s s' e hR hG.1 he
      obtain ⟨hrun, hout⟩ := ih hR' hG.2
      rw [List.filter_cons_of_pos (by simp [he])]
      refine ⟨hrun, ?_⟩
      rw [outputs, outputs, hsame, hout]

end Machine
