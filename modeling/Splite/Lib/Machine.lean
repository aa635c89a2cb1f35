import Mathlib.Tactic

/-!
# Machines and their runs

A machine takes a step for every input and answers with some outputs. A run is a list of inputs.

* `Machine.every_iff_forall`: a run meets a condition when each of its steps does.
* `Machine.invariant`: what every step keeps holds after every run.
* `Machine.every_imp`: what each step implies of the next follows along the run.
* `Machine.forall_outputs`: what every guarded step answers, a guarded run answers.
* `Machine.outputs_nodup`: what a step answers that has not been answered before is answered once.
* `Machine.every_iff`: conditions that say the same of each step say the same of a run.
* `Machine.outputs_iff_every`: a property of single outputs holds of all the outputs of a run
  exactly when every step of it meets the condition that is exact for one step.
-/

/-- A step function over states `σ`, with inputs `ι` and outputs `ω`. -/
structure Machine (σ ι ω : Type) where
  step : σ → ι → σ × List ω

namespace Machine

variable {σ ι ω : Type} (m : Machine σ ι ω)

/-- The state after a list of inputs. -/
def run (s : σ) : List ι → σ
  | [] => s
  | e :: es => run (m.step s e).1 es

/-- Everything that a run answers, in order. -/
def outputs (s : σ) : List ι → List ω
  | [] => []
  | e :: es => (m.step s e).2 ++ outputs (m.step s e).1 es

/-- `P` holds of every state of the run with the input that it meets. -/
def Every (P : σ → ι → Prop) (s : σ) : List ι → Prop
  | [] => True
  | e :: es => P s e ∧ Every P (m.step s e).1 es

instance instDecidableEvery (P : σ → ι → Prop) [∀ s e, Decidable (P s e)] :
    ∀ (s : σ) (es : List ι), Decidable (m.Every P s es)
  | _, [] => isTrue trivial
  | s, e :: es =>
    have := instDecidableEvery P (m.step s e).1 es
    inferInstanceAs (Decidable (P s e ∧ m.Every P (m.step s e).1 es))

variable {m} {s : σ} {es : List ι} {I : σ → Prop} {G P Q : σ → ι → Prop}

@[simp] theorem run_nil : m.run s [] = s := rfl

@[simp] theorem run_cons {e : ι} : m.run s (e :: es) = m.run (m.step s e).1 es := rfl

theorem run_append {es' : List ι} : m.run s (es ++ es') = m.run (m.run s es) es' := by
  induction es generalizing s with
  | nil => rfl
  | cons e es ih => exact ih

theorem every_and : m.Every (fun s e => P s e ∧ Q s e) s es ↔ m.Every P s es ∧ m.Every Q s es := by
  induction es generalizing s with
  | nil => simp [Every]
  | cons e es ih =>
    rw [Every, Every, Every, ih]
    tauto

/-- A condition on the inputs alone. -/
theorem every_input {N : ι → Prop} : m.Every (fun _ e => N e) s es ↔ ∀ e ∈ es, N e := by
  induction es generalizing s with
  | nil => simp [Every]
  | cons e es ih => simp [Every, ih]

/-- A run meets `P` when each of its steps does, behind the steps before it. -/
theorem every_iff_forall :
    m.Every P s es ↔ ∀ before e after, es = before ++ e :: after → P (m.run s before) e := by
  induction es generalizing s with
  | nil =>
    refine iff_of_true trivial fun before e after h => ?_
    cases before <;> cases h
  | cons e es ih =>
    rw [Every, ih]
    constructor
    · rintro ⟨hp, hrest⟩ before e' after h
      cases before with
      | nil =>
        cases h
        exact hp
      | cons b before =>
        cases h
        exact hrest before e' after rfl
    · intro h
      exact ⟨h [] e es rfl, fun before e' after hes => h (e :: before) e' after (by rw [hes]; rfl)⟩

/-- An invariant of every guarded step holds after every guarded run. -/
theorem invariant (hstep : ∀ s e, I s → G s e → I (m.step s e).1) (h : I s) (hg : m.Every G s es) :
    I (m.run s es) := by
  induction es generalizing s with
  | nil => exact h
  | cons e es ih => exact ih (hstep s e h hg.1) hg.2

/-- Along a guarded run the invariant makes `P` follow from the guard at every step. -/
theorem every_imp (hstep : ∀ s e, I s → G s e → I (m.step s e).1)
    (hp : ∀ s e, I s → G s e → P s e) (h : I s) (hg : m.Every G s es) : m.Every P s es := by
  induction es generalizing s with
  | nil => trivial
  | cons e es ih => exact ⟨hp s e h hg.1, ih (hstep s e h hg.1) hg.2⟩

/-- Two conditions that agree at every step agree along a run, when one of them keeps what that rests
on. -/
theorem every_iff (hiff : ∀ s e, I s → (P s e ↔ Q s e)) (hstep : ∀ s e, I s → P s e → I (m.step s e).1)
    (h : I s) : m.Every P s es ↔ m.Every Q s es := by
  induction es generalizing s with
  | nil => exact Iff.rfl
  | cons e es ih =>
    rw [Every, Every, hiff s e h]
    exact and_congr_right fun hq => ih (hstep s e h ((hiff s e h).mpr hq))

/-- What a guarded step answers, a guarded run answers. -/
theorem forall_outputs {R : ω → Prop} (hstep : ∀ s e, I s → G s e → I (m.step s e).1)
    (hout : ∀ s e, I s → G s e → ∀ o ∈ (m.step s e).2, R o) (h : I s) (hg : m.Every G s es) :
    ∀ o ∈ m.outputs s es, R o := by
  induction es generalizing s with
  | nil => nofun
  | cons e es ih =>
    rw [outputs, List.forall_mem_append]
    exact ⟨hout s e h hg.1, ih (hstep s e h hg.1) hg.2⟩

/-- When each step answers only keys that are not done and are done after it, a run answers no key
twice. -/
theorem outputs_nodup {κ : Type} {key : ω → Option κ} {D : σ → κ → Prop}
    (hstep : ∀ s e, I s → G s e → I (m.step s e).1)
    (hnodup : ∀ s e, I s → G s e → ((m.step s e).2.filterMap key).Nodup)
    (hnew : ∀ s e, I s → G s e → ∀ k ∈ (m.step s e).2.filterMap key, ¬D s k ∧ D (m.step s e).1 k)
    (hdone : ∀ s e, I s → G s e → ∀ k, D s k → D (m.step s e).1 k) (h : I s) (hg : m.Every G s es) :
    ((m.outputs s es).filterMap key).Nodup ∧ ∀ k ∈ (m.outputs s es).filterMap key, ¬D s k := by
  induction es generalizing s with
  | nil => exact ⟨List.nodup_nil, fun k hk => absurd hk List.not_mem_nil⟩
  | cons e es ih =>
    obtain ⟨hrest, hafter⟩ := ih (hstep s e h hg.1) hg.2
    have hfirst := hnew s e h hg.1
    rw [outputs, List.filterMap_append]
    refine ⟨List.nodup_append'.mpr ⟨hnodup s e h hg.1, hrest, fun k hk hk' => ?_⟩, fun k hk => ?_⟩
    · exact hafter k hk' (hfirst k hk).2
    · rcases List.mem_append.mp hk with hk | hk
      · exact (hfirst k hk).1
      · exact fun hd => hafter k hk (hdone s e h hg.1 k hd)

/-- A property of outputs that one step meets exactly under `C`: a run meets it exactly when all
its steps meet `C`. -/
theorem outputs_iff_every {R : ω → Prop} {C : σ → ι → Prop}
    (hstep : ∀ s e, I s → G s e → I (m.step s e).1)
    (hout : ∀ s e, I s → G s e → ((∀ o ∈ (m.step s e).2, R o) ↔ C s e))
    (h : I s) (hg : m.Every G s es) : (∀ o ∈ m.outputs s es, R o) ↔ m.Every C s es := by
  induction es generalizing s with
  | nil => simp [outputs, Every]
  | cons e es ih =>
    rw [outputs, List.forall_mem_append, hout s e h hg.1, ih (hstep s e h hg.1) hg.2, Every]

end Machine
