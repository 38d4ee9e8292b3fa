import Mathlib.Algebra.Order.Ring.Rat
import Mathlib.Data.NNRat.Defs

/-! # The delay before a retry

The delay grows by a factor from one attempt to the next up to a cap, and a jitter that depends on the attempt is
added. Durations are in seconds, and the arithmetic is exact.
-/

namespace MineRider.Model.Core

inductive Jitter where
  | none
  | deterministic (fraction : ℚ)

/-- The fields of `ReconnectPolicy` that shape the backoff. -/
structure Backoff where
  initialDelay : ℚ≥0
  maxDelay : ℚ≥0
  multiplier : ℚ
  jitter : Jitter

namespace Backoff

/-- `attempt.saturating_sub(1) as i32` -/
def exponent (attempt : UInt32) : Int32 := (if attempt = 0 then 0 else attempt - 1).toInt32

def base (policy : Backoff) (attempt : UInt32) : ℚ :=
  policy.initialDelay * max policy.multiplier 0 ^ (exponent attempt).toInt

def backoffDelay (policy : Backoff) (attempt : UInt32) : ℚ :=
  let capped := min (policy.base attempt) (max policy.maxDelay 0)
  let withJitter := match policy.jitter with
    | .none => capped
    | .deterministic fraction =>
      let cycle : ℚ := (attempt % 5).toNat / 5
      capped + capped * max 0 (min fraction 1) * cycle
  max withJitter 0

end Backoff

end MineRider.Model.Core
