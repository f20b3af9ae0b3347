import Retouch.Number.Integer
import Retouch.Text.Case

/-!
# Written sizes

A size is written as a width and a height, two positive integers with the letter x between them.
-/

namespace Retouch

inductive SizeError where
  | malformed (text : Text)
  | notPositive (text : Text)
  deriving DecidableEq

def SizeError.message : SizeError → Text
  | .malformed text => "Expected WIDTHxHEIGHT, got " ++ Text.quoted text
  | .notPositive text => "Size must be positive, got " ++ Text.quoted text

structure Size where
  width : Int
  height : Int
  deriving DecidableEq

namespace Size

/-- The size that a text means. -/
def read (text : Text) : Except SizeError Size :=
  match (Text.splitOn 'x' (Text.lower text)).mapM Integer.read with
  | .ok [width, height] =>
      if 0 < width ∧ 0 < height then .ok ⟨width, height⟩ else .error (.notPositive text)
  | _ => .error (.malformed text)

end Size

end Retouch
