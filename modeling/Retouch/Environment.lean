import Retouch.Number.Integer
import Retouch.Record
import Retouch.Text.Case

/-!
# Environments

An environment holds variables with text values. A flag or an integer is read from a variable with a
value to fall back on.
-/

namespace Retouch

abbrev Environment := Record Text

namespace Environment

def onWords : List Text :=
  ["1", "true", "yes", "on"]

/-- Whether a word switches a flag on, whatever its case and the blanks around it. -/
def isOn (value : Text) : Bool :=
  onWords.contains (Text.lower (Text.trim value))

/-- The flag in a variable; a variable that is not set leaves the fallback. -/
def flag (environment : Environment) (name : Text) (fallback : Bool) : Bool :=
  match Record.get? name environment with
  | none => fallback
  | some value => isOn value

/-- The integer in a variable, whatever blanks are around it; a variable that is not set or that
holds none leaves the fallback. -/
def integer (environment : Environment) (name : Text) (fallback : Int) : Int :=
  match Record.get? name environment with
  | none => fallback
  | some value =>
      match Integer.read (Text.trim value) with
      | .ok number => number
      | .error _ => fallback

/-- The text in a variable without the blanks around it; it is empty if the variable is not set. -/
def trimmed (environment : Environment) (name : Text) : Text :=
  Text.trim ((Record.get? name environment).getD [])

end Environment

end Retouch
