import Retouch.Text.Basic

/-!
# Lines

A text is cut into lines at every line break of any script; a carriage return followed by a line
feed is one break. Files are read with every such pair and every lone carriage return as a line
feed.
-/

namespace Retouch.Text

def isLineBreak (c : Char) : Bool :=
  [0xA, 0xB, 0xC, 0xD, 0x1C, 0x1D, 0x1E, 0x85, 0x2028, 0x2029].contains c.toNat

/-- The lines of a text, given the characters of its current line, the last one first. -/
def linesFrom (current : Text) : Text → List Text
  | [] => if current.isEmpty then [] else [current.reverse]
  | '\r' :: '\n' :: rest => current.reverse :: linesFrom [] rest
  | c :: rest =>
      if isLineBreak c then current.reverse :: linesFrom [] rest else linesFrom (c :: current) rest

/-- The lines of a text without their breaks; a break at the very end starts no further line. -/
def lines (text : Text) : List Text :=
  linesFrom [] text

/-- The text with every line break of the forms CR LF and CR written as LF. -/
def withLineFeeds : Text → Text
  | [] => []
  | '\r' :: '\n' :: rest => '\n' :: withLineFeeds rest
  | c :: rest => (if c = '\r' then '\n' else c) :: withLineFeeds rest

end Retouch.Text
