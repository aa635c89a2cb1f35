import Splite.Basic
import Splite.Mercantil.Matcher

/-!
# Time-based one-time passwords (`services/totp.js`)

* `verify_spec`: the step of a code that is accepted is in the window, behind the last one, and has the
  code.
-/

namespace Splite.Totp

def STEP_SECONDS : Nat := 30

def DEFAULT_WINDOW : Nat := 1

/-- `stepAt(atMs)`. -/
def stepAt (atMs : Time) : Int := ((atMs / 1000 / STEP_SECONDS : Nat) : Int)

/-- The steps that the loop goes through, from the earliest on. -/
def stepsAround (atMs : Time) : List Int :=
  (List.range (2 * DEFAULT_WINDOW + 1)).map fun i : Nat => stepAt atMs - DEFAULT_WINDOW + i

/-- The loop of `verify`; a secret that is not readable has no code at any step. -/
def firstMatch (codeForStep : Int → Option String) (notBeforeStep : Option Int) (submitted : String) :
    List Int → Option Int
  | [] => none
  | step :: steps =>
    if notBeforeStep.any (step ≤ ·) then firstMatch codeForStep notBeforeStep submitted steps
    else
      match codeForStep step with
      | none => none
      | some expected =>
        if expected = submitted then some step
        else firstMatch codeForStep notBeforeStep submitted steps

/-- `verify(secret, code, { at, notBeforeStep })`: the step that the code is of. -/
def verify (codeForStep : Int → Option String) (code : String) (atMs : Time)
    (notBeforeStep : Option Int) : Option Int :=
  let submitted := Mercantil.trimmed code.toList
  if submitted.length = 6 ∧ submitted.all Char.isDigit then
    firstMatch codeForStep notBeforeStep (String.ofList submitted) (stepsAround atMs)
  else none

variable {codeForStep : Int → Option String} {notBeforeStep : Option Int} {submitted code : String}
  {steps : List Int} {step : Int} {atMs : Time}

theorem firstMatch_spec (h : firstMatch codeForStep notBeforeStep submitted steps = some step) :
    step ∈ steps ∧ (∀ last ∈ notBeforeStep, last < step) ∧ codeForStep step = some submitted := by
  induction steps with
  | nil => cases h
  | cons s steps ih =>
    unfold firstMatch at h
    split at h
    · obtain ⟨hmem, hrest⟩ := ih h
      exact ⟨List.mem_cons_of_mem _ hmem, hrest⟩
    · rename_i hlater
      split at h
      · cases h
      · rename_i expected hcode
        split at h
        · rename_i heq
          cases h
          refine ⟨List.mem_cons_self, fun last hlast => ?_, heq ▸ hcode⟩
          obtain rfl := Option.mem_def.mp hlast
          simpa using hlater
        · obtain ⟨hmem, hrest⟩ := ih h
          exact ⟨List.mem_cons_of_mem _ hmem, hrest⟩

theorem mem_stepsAround : step ∈ stepsAround atMs ↔
    stepAt atMs - DEFAULT_WINDOW ≤ step ∧ step ≤ stepAt atMs + DEFAULT_WINDOW := by
  simp only [stepsAround, DEFAULT_WINDOW, List.mem_map, List.mem_range]
  constructor
  · rintro ⟨i, hi, rfl⟩
    omega
  · intro h
    exact ⟨(step - stepAt atMs + 1).toNat, by omega, by omega⟩

/-- The step of an accepted code is within one of now, behind the last one that was accepted, and the
code is the one of that step. -/
theorem verify_spec (h : verify codeForStep code atMs notBeforeStep = some step) :
    (stepAt atMs - DEFAULT_WINDOW ≤ step ∧ step ≤ stepAt atMs + DEFAULT_WINDOW) ∧
      (∀ last ∈ notBeforeStep, last < step) ∧
      codeForStep step = some (String.ofList (Mercantil.trimmed code.toList)) := by
  unfold verify at h
  dsimp only at h
  split at h
  · obtain ⟨hmem, hlater, hcode⟩ := firstMatch_spec h
    exact ⟨mem_stepsAround.mp hmem, hlater, hcode⟩
  · cases h

end Splite.Totp
