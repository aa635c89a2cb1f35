import Splite.Basic
import Splite.Lib.Except
import Splite.Lib.Round

/-!
# Exact monetary arithmetic (`services/money.js`)

Amounts are integers of minor units. A rate is held as the column holds it, times 10^8.
-/

namespace Splite

def RATE_SCALE : Int := 100000000

def BIGINT_MAX : Int := 9223372036854775807

def BIGINT_MIN : Int := -9223372036854775808

/-- `invalid(message, statusCode)`. -/
def invalid (message : String) (statusCode : Nat) : Err :=
  if statusCode = 503 then .api .fxUnavailable message [] else .api .invalidMonetaryValue message []

/-- `assertInRange(value, label)`. -/
def assertInRange (value : Int) (label : String) : Except Err Int :=
  if value > BIGINT_MAX ∨ value < BIGINT_MIN then
    .error (invalid (label ++ " exceeds the supported monetary range") 400)
  else .ok value

/-- `parseRate(value)` of a column's value, whose text is always a decimal number. -/
def parseRate (scaled : Int) : Except Err Int :=
  if scaled ≤ 0 then .error (invalid "FX rate must be positive" 503) else .ok scaled

/-- `divideRound(numerator, denominator)`: halves go away from zero. -/
def divideRound (numerator denominator : Int) : Except Err Int :=
  if denominator ≤ 0 then .error (invalid "Division by a non-positive denominator" 400)
  else if numerator ≥ 0 then .ok ((numerator + denominator / 2) / denominator)
  else .ok (-((-numerator + denominator / 2) / denominator))

/-- `applyRate(minorUnits, scaledRate, label)`. -/
def applyRate (minorUnits scaledRate : Int) (label : String) : Except Err Int := do
  assertInRange (← divideRound (minorUnits * scaledRate) RATE_SCALE) label

/-- `divideByRate(vesMinorUnits, scaledRate, label)`. -/
def divideByRate (vesMinorUnits scaledRate : Int) (label : String) : Except Err Int := do
  assertInRange (← divideRound (vesMinorUnits * RATE_SCALE) scaledRate) label

/-- `applyBps(minorUnits, rateBps, label)`. -/
def applyBps (minorUnits rateBps : Int) (label : String) : Except Err Int := do
  if rateBps < 0 then throw (invalid "Rate must not be negative" 400)
  assertInRange (← divideRound (minorUnits * rateBps) 10000) label

/-! ## What a result says -/

theorem divideRound_eq_ok {n d v : Int} :
    divideRound n d = .ok v ↔ 0 < d ∧ v = roundHalfAway n d := by
  unfold divideRound roundHalfAway
  by_cases hd : d ≤ 0
  · simp [hd]
  · by_cases hn : 0 ≤ n
    · simp [hd, hn, eq_comm]
      omega
    · simp [hd, hn, eq_comm]
      omega

theorem assertInRange_eq_ok {v w : Int} {label : String} (h : assertInRange v label = .ok w) :
    w = v := by
  unfold assertInRange at h
  split at h
  · cases h
  · cases h
    rfl

theorem applyRate_eq_ok {amount rate v : Int} {label : String}
    (h : applyRate amount rate label = .ok v) : v = roundHalfAway (amount * rate) RATE_SCALE := by
  obtain ⟨v', hdiv, hrange⟩ := Except.bind_eq_ok.mp h
  obtain ⟨-, rfl⟩ := divideRound_eq_ok.mp hdiv
  exact assertInRange_eq_ok hrange

theorem parseRate_eq_ok {rate v : Int} (h : parseRate rate = .ok v) : 0 < rate ∧ v = rate := by
  unfold parseRate at h
  split at h
  · cases h
  · cases h
    exact ⟨by omega, rfl⟩

theorem assertInRange_of_le {v w : Int} {label label' : String} (h0 : 0 ≤ v) (hle : v ≤ w)
    (h : ∃ x, assertInRange w label = .ok x) : assertInRange v label' = .ok v := by
  obtain ⟨x, hx⟩ := h
  unfold assertInRange at hx ⊢
  split at hx
  · cases hx
  · rename_i hrange
    have hmax : w ≤ BIGINT_MAX := by omega
    refine if_neg ?_
    unfold BIGINT_MAX at hmax
    unfold BIGINT_MAX BIGINT_MIN
    omega

end Splite
