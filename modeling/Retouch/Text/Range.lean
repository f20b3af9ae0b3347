/-!
# Ranges of code points

A property of characters is tabulated as an ascending list of inclusive ranges of code points.
-/

namespace Retouch.Text

/-- Whether a code point lies in one of the ranges, which are in ascending order. -/
def inRanges (codePoint : Nat) : List (Nat × Nat) → Bool
  | [] => false
  | (low, high) :: ranges =>
      if codePoint < low then false else codePoint ≤ high || inRanges codePoint ranges

end Retouch.Text
