import Retouch.Json.Basic
import Retouch.Number.Integer

/-!
# Reading JSON

A text is read from left to right; the first fault ends the reading and is reported with its place.
The names of the infinities and of `nan` are read as numbers. Of two fields with the same name the
later value counts, in the place of the earlier. A fault is located by the characters that remain
behind it, so that no position has to be carried along.
-/

namespace Retouch.Json

inductive Fault where
  | noValue
  | noComma
  | noColon
  | noName
  | extraData
  | openText
  | controlCharacter
  | badEscape
  | badCodeEscape
  | byteOrderMark
  deriving DecidableEq

def Fault.message : Fault → Text
  | .noValue => "Expecting value"
  | .noComma => "Expecting ',' delimiter"
  | .noColon => "Expecting ':' delimiter"
  | .noName => "Expecting property name enclosed in double quotes"
  | .extraData => "Extra data"
  | .openText => "Unterminated string starting at"
  | .controlCharacter => "Invalid control character at"
  | .badEscape => "Invalid \\escape"
  | .badCodeEscape => "Invalid \\uXXXX escape"
  | .byteOrderMark => "Unexpected UTF-8 BOM (decode using utf-8-sig)"

inductive Stop where
  /-- A fault, with the number of characters from its place to the end. -/
  | fault (fault : Fault) (remaining : Nat)
  | integer (error : IntegerError)
  deriving DecidableEq

inductive ReadError where
  | malformed (fault : Fault) (text : Text) (position : Nat)
  | integer (error : IntegerError)
  deriving DecidableEq

/-- The message of an error: the fault, its line and column and its position. -/
def ReadError.message : ReadError → Text
  | .malformed fault text position =>
      let before := text.take position
      let row := before.count '\n' + 1
      let column := (before.reverse.takeWhile (· != '\n')).length + 1
      fault.message ++ ": line " ++ Decimal.naturalText row ++ " column " ++
        Decimal.naturalText column ++ " (char " ++ Decimal.naturalText position ++ ")"
  | .integer error => error.message

def isSpace (c : Char) : Bool :=
  c == ' ' || c == '\t' || c == '\n' || c == '\r'

def skipSpace (text : Text) : Text :=
  text.dropWhile isSpace

/-- Stops at the beginning of a text. -/
def stop {α : Type} (fault : Fault) (text : Text) : Except Stop α :=
  .error (.fault fault text.length)

def hexValue? (c : Char) : Option Nat :=
  if '0'.toNat ≤ c.toNat ∧ c.toNat ≤ '9'.toNat then some (c.toNat - '0'.toNat)
  else if 'a'.toNat ≤ c.toNat ∧ c.toNat ≤ 'f'.toNat then some (c.toNat - 'a'.toNat + 10)
  else if 'A'.toNat ≤ c.toNat ∧ c.toNat ≤ 'F'.toNat then some (c.toNat - 'A'.toNat + 10)
  else none

/-- The UTF-16 unit that four hexadecimal digits mean. -/
def unit? (first second third fourth : Char) : Option Nat := do
  let a ← hexValue? first
  let b ← hexValue? second
  let c ← hexValue? third
  let d ← hexValue? fourth
  return ((a * 16 + b) * 16 + c) * 16 + d

def shortEscape? (c : Char) : Option Char :=
  if c = '\x22' ∨ c = '\\' ∨ c = '/' then some c
  else if c = 'b' then some '\x08'
  else if c = 'f' then some '\x0c'
  else if c = 'n' then some '\n'
  else if c = 'r' then some '\r'
  else if c = 't' then some '\t'
  else none

/-- Whether a UTF-16 unit is the first half of a pair. -/
def isHighHalf (unit : Nat) : Bool :=
  0xD800 ≤ unit && unit < 0xDC00

def isLowHalf (unit : Nat) : Bool :=
  0xDC00 ≤ unit && unit < 0xE000

/-- The characters of code points and UTF-16 units, two halves of a pair being one character; a half
without its other half is no character. -/
def charsOfUnits : List Nat → Text
  | [] => []
  | [unit] => [if isHighHalf unit || isLowHalf unit then Char.ofNat 0xFFFD else Char.ofNat unit]
  | unit :: next :: units =>
      if isHighHalf unit && isLowHalf next then
        Char.ofNat (0x10000 + (unit - 0xD800) * 0x400 + (next - 0xDC00)) :: charsOfUnits units
      -- a half by itself; the next unit may still begin a pair
      else if isHighHalf unit || isLowHalf unit then
        Char.ofNat 0xFFFD :: charsOfUnits (next :: units)
      else
        Char.ofNat unit :: charsOfUnits (next :: units)

/-- The code points and UTF-16 units of a text value up to its closing quote, and what follows the
quote; `opening` is the number of characters from its opening quote to the end. A code escape has to
be followed by something. -/
def readUnits (opening : Nat) : Text → Except Stop (List Nat × Text)
  | [] => .error (.fault .openText opening)
  | ['\\'] => .error (.fault .openText opening)
  | '\\' :: 'u' :: a :: b :: c :: d :: next :: rest =>
      match unit? a b c d with
      | none => .error (.fault .badCodeEscape (rest.length + 6))
      | some unit => do
          let (units, after) ← readUnits opening (next :: rest)
          return (unit :: units, after)
  | '\\' :: 'u' :: rest => .error (.fault .badCodeEscape (rest.length + 1))
  | '\\' :: c :: rest =>
      match shortEscape? c with
      | none => .error (.fault .badEscape (rest.length + 2))
      | some char => do
          let (units, after) ← readUnits opening rest
          return (char.toNat :: units, after)
  | c :: rest =>
      if c = '\x22' then
        .ok ([], rest)
      else if c.toNat < 0x20 then
        .error (.fault .controlCharacter (rest.length + 1))
      else do
        let (units, after) ← readUnits opening rest
        return (c.toNat :: units, after)

def readText (opening : Nat) (text : Text) : Except Stop (Text × Text) := do
  let (units, after) ← readUnits opening text
  return (charsOfUnits units, after)

/-- The digits of the whole part of a number, which has no leading zero, and what follows. -/
def scanWhole (text : Text) : Option (Text × Text) :=
  match text with
  | '0' :: rest => some (['0'], rest)
  | _ =>
      let digits := text.takeWhile Text.isAsciiDigit
      if digits.isEmpty then none else some (digits, text.dropWhile Text.isAsciiDigit)

/-- The digits after a point and what follows them, if there is a point with a digit after it. -/
def scanFraction? (text : Text) : Option (Text × Text) :=
  match text with
  | '.' :: rest =>
      let digits := rest.takeWhile Text.isAsciiDigit
      if digits.isEmpty then none else some (digits, rest.dropWhile Text.isAsciiDigit)
  | _ => none

def scanPower? (text : Text) : Option (Int × Text) :=
  match text with
  | c :: rest =>
      if c = 'e' ∨ c = 'E' then
        let (negative, body) := Numeral.signed rest
        let digits := body.takeWhile Text.isAsciiDigit
        if digits.isEmpty then
          none
        else
          let magnitude : Int := Numeral.digitsValue digits
          some (if negative then -magnitude else magnitude, body.dropWhile Text.isAsciiDigit)
      else
        none
  | [] => none

/-- The number at the beginning of a text and what follows it. A number without a point and without
an exponent is an integer. -/
def readNumber (text : Text) : Except Stop (Json × Text) :=
  let (negative, body) := match text with
    | '-' :: rest => (true, rest)
    | _ => (false, text)
  match scanWhole body with
  | none => stop .noValue text
  | some (whole, rest) =>
      let fraction? := scanFraction? rest
      let afterFraction := (fraction?.map (·.2)).getD rest
      let power? := scanPower? afterFraction
      let after := (power?.map (·.2)).getD afterFraction
      if fraction?.isNone && power?.isNone then
        if IntegerError.digitLimit < whole.length then
          .error (.integer (.tooLong whole.length))
        else
          let magnitude : Int := Numeral.digitsValue whole
          .ok (.int (if negative then -magnitude else magnitude), after)
      else
        let fraction := (fraction?.map (·.1)).getD []
        let power := (power?.map (·.1)).getD 0
        let decimal : Decimal :=
          ⟨Numeral.digitsValue (whole ++ fraction), power - fraction.length⟩
        .ok (.number (.float (decimal.toBinary64 negative)), after)

def namedValues : List (Text × Json) :=
  [("null", .null), ("true", .bool true), ("false", .bool false),
   ("NaN", .number (.float .nan)), ("Infinity", .number (.float (.infinite false))),
   ("-Infinity", .number (.float (.infinite true)))]

def readScalar (text : Text) : Except Stop (Json × Text) :=
  match namedValues.findSome? fun (name, value) =>
      (Text.afterStart? name text).map fun rest => (value, rest) with
  | some found => .ok found
  | none => readNumber text

mutual

/-- The value at the beginning of a text and what follows it. A level of nesting costs two of the
budget and at least one character, so a budget above twice the length of the text is never used
up. -/
def readValue : Nat → Text → Except Stop (Json × Text)
  | 0, text => stop .noValue text
  | budget + 1, text =>
      match text with
      | '\x22' :: rest => do
          let (value, after) ← readText text.length rest
          return (.string value, after)
      | '[' :: rest =>
          match skipSpace rest with
          | ']' :: after => .ok (.list [], after)
          | body => do
              let (items, after) ← readItems budget body
              return (.list items, after)
      | '\x7b' :: rest =>
          match skipSpace rest with
          | '\x7d' :: after => .ok (.object [], after)
          | body => do
              let (fields, after) ← readFields budget body
              return (.object (Record.ofPairs fields), after)
      | _ => readScalar text

def readItems : Nat → Text → Except Stop (List Json × Text)
  | 0, text => stop .noValue text
  | budget + 1, text => do
      let (item, rest) ← readValue budget text
      match skipSpace rest with
      | ']' :: after => return ([item], after)
      | ',' :: after =>
          let (items, after) ← readItems budget (skipSpace after)
          return (item :: items, after)
      | other => stop .noComma other

def readFields : Nat → Text → Except Stop (List (Text × Json) × Text)
  | 0, text => stop .noName text
  | budget + 1, text =>
      match text with
      | '\x22' :: rest => do
          let (name, afterName) ← readText text.length rest
          match skipSpace afterName with
          | ':' :: afterColon =>
              let (value, afterValue) ← readValue budget (skipSpace afterColon)
              match skipSpace afterValue with
              | '\x7d' :: after => return ([(name, value)], after)
              | ',' :: after =>
                  let (fields, after) ← readFields budget (skipSpace after)
                  return ((name, value) :: fields, after)
              | other => stop .noComma other
          | other => stop .noColon other
      | _ => stop .noName text

end

def readAll (text : Text) : Except Stop Json :=
  match text with
  | '\uFEFF' :: _ => stop .byteOrderMark text
  | _ => do
      let (value, rest) ← readValue (2 * text.length + 1) (skipSpace text)
      match skipSpace rest with
      | [] => return value
      | extra => stop .extraData extra

def read (text : Text) : Except ReadError Json :=
  match readAll text with
  | .ok value => .ok value
  | .error (.fault fault remaining) => .error (.malformed fault text (text.length - remaining))
  | .error (.integer error) => .error (.integer error)

end Retouch.Json
