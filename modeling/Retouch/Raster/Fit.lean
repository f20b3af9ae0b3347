import Retouch.Number.Basic

/-!
# Fitting a size

An image is made smaller, never larger, so that neither side is above a limit. Both sides are scaled
by the same binary64 factor and rounded to the nearest integer, a tie to the even one; no side
becomes less than one.
-/

namespace Retouch.Fit

/-- The integer part of a limit, or why there is none. -/
def integerPart : Number → Except RangeError Int
  | .int value => .ok value
  | .float value =>
      match value with
      | .infinite _ => .error .infinite
      | .nan => .error .notANumber
      | .finite .. => .ok (value.truncate?.getD 0)

/-- The factor by which a size is scaled so that its longer side is within a limit. -/
def factor (width height limit : Int) : Except RangeError Binary64 :=
  match Binary64.ofQuotient limit (max 1 (max width height)).toNat with
  | .infinite _ => .error .quotientTooLarge
  | quotient => .ok (if quotient.isBelow 1 1 then quotient else Binary64.ofInt 1)

def scaledSide (factor : Binary64) (side : Int) : Except RangeError Int := do
  let length ← (Number.int side).toBinary64
  return max 1 ((length.mul factor).nearestInt?.getD 0)

/-- The width and the height that an image gets under a limit. -/
def within (width height : Int) (limit : Number) : Except RangeError (Int × Int) := do
  let whole ← integerPart limit
  let scale ← factor width height (max 1 whole)
  return (← scaledSide scale width, ← scaledSide scale height)

end Retouch.Fit
