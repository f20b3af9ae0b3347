import Retouch.Number.Basic
import Retouch.Text.Digit
import Retouch.Text.Blank

/-!
# Numerals

A numeral is an optional sign, digits of any script with an optional point, and an optional
exponent. Scanning takes the longest numeral at the beginning of a text and gives what follows it;
an exponent without digits is not part of it.
-/

namespace Retouch

/-- A numeral: its sign and its decimal value. -/
structure Numeral where
  negative : Bool
  /-- The digits read as one integer, and the power of ten of the last of them. -/
  decimal : Decimal

namespace Numeral

def digitsValue (digits : Text) : Nat :=
  digits.foldl (fun value c => 10 * value + Text.digitValue c) 0

/-- Whether the sign is a minus, and what follows an optional sign. -/
def signed : Text → Bool × Text
  | '-' :: rest => (true, rest)
  | '+' :: rest => (false, rest)
  | text => (false, text)

/-- The exponent at the beginning of a text and what follows it; without one the exponent is
zero. -/
def scanExponent (text : Text) : Int × Text :=
  match text with
  | c :: rest =>
      if c = 'e' ∨ c = 'E' then
        let (negative, body) := signed rest
        let digits := body.takeWhile Text.isDigit
        if digits.isEmpty then
          (0, text)
        else
          let magnitude : Int := digitsValue digits
          (if negative then -magnitude else magnitude, body.dropWhile Text.isDigit)
      else
        (0, text)
  | [] => (0, [])

/-- The digits before and after the point and what follows them, if there is a digit. -/
def scanMantissa (text : Text) : Option (Text × Text × Text) :=
  let whole := text.takeWhile Text.isDigit
  match text.dropWhile Text.isDigit with
  | '.' :: rest =>
      let fraction := rest.takeWhile Text.isDigit
      if whole.isEmpty && fraction.isEmpty then none
      else some (whole, fraction, rest.dropWhile Text.isDigit)
  | rest => if whole.isEmpty then none else some (whole, [], rest)

/-- The longest numeral at the beginning of a text, and what follows it. -/
def scan (text : Text) : Option (Numeral × Text) :=
  let (negative, body) := signed text
  match scanMantissa body with
  | none => none
  | some (whole, fraction, rest) =>
      let (exponent, after) := scanExponent rest
      some (⟨negative, ⟨digitsValue (whole ++ fraction), exponent - fraction.length⟩⟩,
        after)

def toBinary64 (numeral : Numeral) : Binary64 :=
  numeral.decimal.toBinary64 numeral.negative

/-- Whether the whole text is a numeral, or an infinity with an optional sign. -/
def isNumber (text : Text) : Bool :=
  match scan text with
  | some (_, rest) => rest.isEmpty
  | none => (signed text).2 == "Infinity".toList

/-- The finite value of a text that is a numeral with an optional percent sign, and that sign. -/
def quantity? (text : Text) : Option (Binary64 × Text) :=
  match scan text with
  | some (numeral, rest) =>
      if (rest.isEmpty || rest == ['%']) && numeral.toBinary64.isFinite then
        some (numeral.toBinary64, rest)
      else
        none
  | none => none

/-- The finite value of the numeral at the beginning of a text, blanks before it left out, or
zero. -/
def leadingValue (text : Text) : Binary64 :=
  match scan (Text.trim text) with
  | some (numeral, _) =>
      if numeral.toBinary64.isFinite then numeral.toBinary64 else .zero false
  | none => .zero false

end Numeral

namespace Number

/-- The number that a written form means: digits with an optional minus are an integer, everything
else is a float. -/
def ofText? (text : Text) : Option Number :=
  let (negative, body) := match text with
    | '-' :: rest => (true, rest)
    | _ => (false, text)
  if !body.isEmpty && body.all Text.isAsciiDigit then
    let magnitude : Int := Numeral.digitsValue body
    some (.int (if negative then -magnitude else magnitude))
  else if body == "inf".toList then
    some (.float (.infinite negative))
  else if body == "nan".toList then
    some (.float .nan)
  else
    match Numeral.scan text with
    | some (numeral, []) => some (.float numeral.toBinary64)
    | _ => none

end Number

end Retouch
