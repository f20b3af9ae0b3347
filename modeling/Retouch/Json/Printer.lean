import Retouch.Json.Basic
import Retouch.Text.Quoted

/-!
# Writing JSON

A value is written in ASCII alone: every other character of a text is an escape of its UTF-16 units.
On one line, a comma or colon is followed by a space. On several lines, every item stands on a line
of its own, two spaces deeper than its container; an empty container stays on the line.
-/

namespace Retouch.Json

/-- The escape of one UTF-16 unit. -/
def unitEscape (unit : Nat) : Text :=
  '\\' :: 'u' :: Text.hexDigits 4 unit

def escapeChar (c : Char) : Text :=
  if c = '\x22' ∨ c = '\\' then ['\\', c]
  else if c = '\n' then "\\n"
  else if c = '\r' then "\\r"
  else if c = '\t' then "\\t"
  else if c = '\x08' then "\\b"
  else if c = '\x0c' then "\\f"
  else if 0x20 ≤ c.toNat ∧ c.toNat ≤ 0x7E then [c]
  else if c.toNat < 0x10000 then unitEscape c.toNat
  else
    unitEscape (0xD800 + (c.toNat - 0x10000) / 0x400) ++
      unitEscape (0xDC00 + (c.toNat - 0x10000) % 0x400)

def quotedText (text : Text) : Text :=
  '\x22' :: text.flatMap escapeChar ++ ['\x22']

/-- A number as it is written; the infinities and `nan` have names. -/
def numberText : Number → Text
  | .float (.infinite negative) => if negative then "-Infinity" else "Infinity"
  | .float .nan => "NaN"
  | other => other.text

def boolText (value : Bool) : Text :=
  if value then "true" else "false"

mutual

/-- A value on one line. -/
def line : Json → Text
  | .null => "null"
  | .bool value => boolText value
  | .number value => numberText value
  | .string value => quotedText value
  | .list items => '[' :: itemsLine items ++ [']']
  | .object fields => '\x7b' :: fieldsLine fields ++ ['\x7d']

def itemsLine : List Json → Text
  | [] => []
  | [item] => line item
  | item :: next :: items => line item ++ ", " ++ itemsLine (next :: items)

def fieldsLine : List (Text × Json) → Text
  | [] => []
  | [(name, value)] => quotedText name ++ ": " ++ line value
  | (name, value) :: next :: fields =>
      quotedText name ++ ": " ++ line value ++ ", " ++ fieldsLine (next :: fields)

end

/-- The beginning of a line at a depth. -/
def newLine (depth : Nat) : Text :=
  '\n' :: List.replicate (2 * depth) ' '

mutual

/-- A value on several lines, its own items one level deeper than the given depth. -/
def block (depth : Nat) : Json → Text
  | .null => "null"
  | .bool value => boolText value
  | .number value => numberText value
  | .string value => quotedText value
  | .list [] => "[]"
  | .list (item :: items) =>
      '[' :: itemsBlock (depth + 1) (item :: items) ++ newLine depth ++ [']']
  | .object [] => ['\x7b', '\x7d']
  | .object (field :: fields) =>
      '\x7b' :: fieldsBlock (depth + 1) (field :: fields) ++ newLine depth ++ ['\x7d']

def itemsBlock (depth : Nat) : List Json → Text
  | [] => []
  | [item] => newLine depth ++ block depth item
  | item :: next :: items =>
      newLine depth ++ block depth item ++ "," ++ itemsBlock depth (next :: items)

def fieldsBlock (depth : Nat) : List (Text × Json) → Text
  | [] => []
  | [(name, value)] => newLine depth ++ quotedText name ++ ": " ++ block depth value
  | (name, value) :: next :: fields =>
      newLine depth ++ quotedText name ++ ": " ++ block depth value ++ "," ++
        fieldsBlock depth (next :: fields)

end

def lines (value : Json) : Text :=
  block 0 value

end Retouch.Json
