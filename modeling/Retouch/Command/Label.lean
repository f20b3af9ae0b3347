import Retouch.Command.Token
import Retouch.Text.Case

/-!
# Labels

An entry of the edit stack shows a label: the words of its flag, each with a capital, and the
arguments, long ones shortened.
-/

namespace Retouch.Label

/-- The greatest length of an argument that is shown whole. -/
def shownLimit : Nat := 10

def shorten (argument : Text) : Text :=
  if argument.length ≤ shownLimit then argument else argument.take 8 ++ ".."

/-- The words of a flag, each with a capital. -/
def flagName (flag : Text) : Text :=
  let name := flag.dropWhile fun c => c == '-' || c == '+'
  Text.unwords ((Text.splitOn '-' name).map Text.capitalize)

def ofFlag (flag : Text) (arguments : List Text) : Text :=
  if arguments.isEmpty then flagName flag
  else flagName flag ++ " " ++ Text.unwords (arguments.map shorten)

/-- The label of a channel selection, given the tokens between its opening and its closing flag: the
channel and the first two operations on it. -/
def ofRegion (inner : List Text) : Text :=
  let operations := ((inner.drop 1).filter Token.isFlag).map flagName
  let channel := Text.trim (inner.headD [] ++ " Channel")
  let more : Text := if 2 < operations.length then "..." else []
  if operations.isEmpty then channel
  else channel ++ ": " ++ Text.join ", " (operations.take 2) ++ more

def group : Text := "Layer Group"

end Retouch.Label
