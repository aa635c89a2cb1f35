import Splite.Basic
import Splite.Mercantil.Matcher

/-!
# Movements against claims (`payments/validation/match.js`, `decide` of `services/bankReconciliation.js`)

* `matchClaim_matched`: a claim is matched with the one movement that agrees with it in everything.
* `decide_matched_nodup`: no two claims are matched with one movement.
-/

namespace Splite.Bank

open Mercantil (digitsOnly trimmed)

def MIN_REFERENCE_DIGITS : Nat := 8

/-- `tail(value, n)`. -/
def tail (value : String) (n : Nat) : List Char :=
  value.toList.drop (value.toList.length - n)

/-- `referenceAgrees(declared, reported)`. -/
def referenceAgrees (declared reported : String) : Bool :=
  let a := digitsOnly declared
  let b := digitsOnly reported
  let n := min a.toList.length b.toList.length
  if n < MIN_REFERENCE_DIGITS then false else tail a n = tail b n

/-- `phoneAgrees(declared, reported)`. -/
def phoneAgrees (declared reported : String) : Bool :=
  let a := digitsOnly declared
  let b := digitsOnly reported
  if a.toList.length < 4 ∨ b.toList.length < 4 then false else tail a 4 = tail b 4

/-- The claim, as the matcher expects it. -/
structure ClaimShape where
  reference : String
  amountMinor : Int
  bankCode : Option String
  phoneOrigin : Option String
  idOrigin : Option String
  deriving DecidableEq, Repr

/-- The movement, as the matcher expects it. -/
structure MovementShape where
  id : Uuid
  reference : String
  amountMinor : Int
  bankCode : Option String
  phoneOrigin : Option String
  idOrigin : Option String
  autoConfirm : Bool
  deriving DecidableEq, Repr

inductive Disagreement where
  | amount
  | bank
  | phone
  | id
  deriving DecidableEq, Repr

/-- `known(value)`. -/
def known (value : Option String) : Option String := value.filter fun v => trimmed v.toList ≠ []

/-- Both sides have a value, and the two do not agree. -/
def differs (agrees : String → String → Bool) (declared reported : Option String) : Bool :=
  match known reported, known declared with
  | some r, some d => !agrees d r
  | _, _ => false

/-- `disagreements(claim, movement)`. -/
def disagreements (claim : ClaimShape) (movement : MovementShape) : List Disagreement :=
  (if movement.amountMinor ≠ claim.amountMinor then [.amount] else []) ++
  (if differs (fun d r => r = d) claim.bankCode movement.bankCode then [.bank] else []) ++
  (if differs phoneAgrees claim.phoneOrigin movement.phoneOrigin then [.phone] else []) ++
  (if differs (fun d r => digitsOnly r = digitsOnly d) claim.idOrigin movement.idOrigin then [.id]
    else [])

/-- What `matchClaim` answers with. -/
inductive MatchResult where
  | notFound
  | ambiguous
  | matched (movement : MovementShape)
  | mismatch (movement : MovementShape) (disagreements : List Disagreement)
  deriving DecidableEq, Repr

def MatchResult.outcome : MatchResult → String
  | .notFound => "NOT_FOUND"
  | .ambiguous => "AMBIGUOUS"
  | .matched _ => "MATCHED"
  | .mismatch _ _ => "MISMATCH"

/-- `d.movement?.id`. -/
def MatchResult.movementId : MatchResult → Option Uuid
  | .matched m | .mismatch m _ => some m.id
  | _ => none

/-- The movement that a claim is matched with. -/
def MatchResult.matchedId : MatchResult → Option Uuid
  | .matched m => some m.id
  | _ => none

/-- `matchClaim(claim, movements)`. -/
def matchClaim (claim : ClaimShape) (movements : List MovementShape) : MatchResult :=
  let candidates := movements.filter fun m => referenceAgrees claim.reference m.reference
  match candidates.filter fun m => disagreements claim m = [] with
  | [m] => .matched m
  | _ :: _ :: _ => .ambiguous
  | [] =>
    match (candidates.map fun m => (m, disagreements claim m)).mergeSort
        fun x y => x.2.length ≤ y.2.length with
    | [] => .notFound
    | closest :: _ => .mismatch closest.1 closest.2

/-- The row of a pending claim; the last three are of its `metadata`. -/
structure PendingClaim where
  id : Uuid
  amountVes : Int
  tipVes : Int
  declaredReference : Option String
  bankOrigin : Option String
  phoneOrigin : Option String
  idOrigin : Option String
  deriving DecidableEq, Repr

/-- `claimShape(row)`. -/
def claimShape (row : PendingClaim) : ClaimShape where
  reference := row.declaredReference.getD ""
  amountMinor := row.amountVes + row.tipVes
  bankCode := row.bankOrigin
  phoneOrigin := row.phoneOrigin
  idOrigin := row.idOrigin

structure Decision where
  claimId : Uuid
  result : MatchResult
  deriving DecidableEq, Repr

/-- `claimsPerMovement.get(id)`. -/
def claimsPerMovement (results : List Decision) (id : Uuid) : Nat :=
  (results.filterMap fun r => r.result.matchedId).count id

/-- A movement that two claims are matched with decides for none of them. -/
def Decision.corrected (results : List Decision) (r : Decision) : Decision :=
  match r.result with
  | .matched m => if 1 < claimsPerMovement results m.id then { r with result := .ambiguous } else r
  | _ => r

/-- `decide(claims, movements)`. -/
def decide (claims : List PendingClaim) (movements : List MovementShape) : List Decision :=
  let results := claims.map fun c => ⟨c.id, matchClaim (claimShape c) movements⟩
  results.map (Decision.corrected results)

section Facts

variable {claim : ClaimShape} {movements : List MovementShape} {m : MovementShape}

/-- A movement agrees with a claim in the reference, the amount and all that both sides have. -/
def Agrees (claim : ClaimShape) (m : MovementShape) : Prop :=
  referenceAgrees claim.reference m.reference = true ∧ disagreements claim m = []

instance : Decidable (Agrees claim m) := by
  unfold Agrees
  infer_instance

/-- The movements with the reference of a claim that disagree in nothing are those that agree with it. -/
theorem exact_eq : (movements.filter fun m => referenceAgrees claim.reference m.reference).filter
    (fun m => disagreements claim m = []) = movements.filter fun m => Agrees claim m := by
  rw [List.filter_filter]
  refine List.filter_congr fun m _ => ?_
  simp [Agrees, and_comm]

theorem matchClaim_matched :
    matchClaim claim movements = .matched m ↔ movements.filter (fun m => Agrees claim m) = [m] := by
  unfold matchClaim
  dsimp only
  rw [exact_eq]
  split
  · simp_all
  · simp_all
  · rename_i hnone
    rw [hnone]
    split <;> simp

theorem corrected_matchedId (results : List Decision) (r : Decision) :
    (r.corrected results).result.matchedId =
      r.result.matchedId.filter fun id => claimsPerMovement results id ≤ 1 := by
  obtain ⟨claimId, result⟩ := r
  cases result with
  | matched m =>
    by_cases hmany : 1 < claimsPerMovement results m.id
    · simp [Decision.corrected, MatchResult.matchedId, Option.filter, hmany]
    · simp [Decision.corrected, MatchResult.matchedId, Option.filter, hmany]
  | notFound => rfl
  | ambiguous => rfl
  | mismatch m bad => rfl

theorem decide_matched_nodup (claims : List PendingClaim) (movements : List MovementShape) :
    ((decide claims movements).filterMap fun d => d.result.matchedId).Nodup := by
  unfold decide
  generalize claims.map (fun c => (⟨c.id, matchClaim (claimShape c) movements⟩ : Decision)) = results
  have hids : (results.map (Decision.corrected results)).filterMap (fun d => d.result.matchedId) =
      (results.filterMap fun d => d.result.matchedId).filter
        fun id => claimsPerMovement results id ≤ 1 := by
    rw [List.filterMap_map, List.filter_filterMap]
    refine List.filterMap_congr fun d _ => ?_
    exact corrected_matchedId results d
  dsimp only
  rw [hids, List.nodup_iff_count_le_one]
  intro id
  by_cases hone : claimsPerMovement results id ≤ 1
  · exact (List.Sublist.count_le _ List.filter_sublist).trans hone
  · rw [List.count_eq_zero_of_not_mem fun hmem => hone (by simpa using (List.mem_filter.mp hmem).2)]
    exact Nat.zero_le 1

end Facts

end Splite.Bank
