import Retouch.Text.Basic
import Retouch.Text.Range

/-!
# Blank characters

Blank are the spaces, tabs, line breaks and separators of all scripts, among them the four
information separators and the next-line character. Trimming a text removes the blank characters
at its ends.
-/

namespace Retouch.Text

/-- The code points of the blank characters, in ascending ranges. -/
def blankRanges : List (Nat × Nat) :=
  [(0x9, 0xD), (0x1C, 0x20), (0x85, 0x85), (0xA0, 0xA0), (0x1680, 0x1680), (0x2000, 0x200A),
   (0x2028, 0x2029), (0x202F, 0x202F), (0x205F, 0x205F), (0x3000, 0x3000)]

def isBlank (c : Char) : Bool :=
  inRanges c.toNat blankRanges

def trimStart (text : Text) : Text :=
  text.dropWhile isBlank

def trimEnd (text : Text) : Text :=
  dropEndWhile isBlank text

def trim (text : Text) : Text :=
  trimEnd (trimStart text)

def isAllBlank (text : Text) : Bool :=
  text.all isBlank

theorem isBlank_space : isBlank ' ' = true := by decide

theorem isBlank_tab : isBlank '\t' = true := by decide

end Retouch.Text
