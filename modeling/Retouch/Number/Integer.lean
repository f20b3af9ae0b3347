import Retouch.Number.Numeral
import Retouch.Text.Quoted

/-!
# Written integers

An integer is read from a text with an optional sign and decimal digits of any script, where a
single underscore may stand between two digits and blanks may surround the whole; the four
information separators do not count as blanks here. A text with more than 4300 digits is refused,
whatever else is wrong with it after its digits.
-/

namespace Retouch

inductive IntegerError where
  | malformed (text : Text)
  | tooLong (digitCount : Nat)
  deriving DecidableEq

namespace IntegerError

/-- The greatest number of digits that is read. -/
def digitLimit : Nat := 4300

/-- The greatest length at which a message shows a text. -/
def shownLimit : Nat := 200

def message : IntegerError → Text
  | .malformed text =>
      "invalid literal for int() with base 10: " ++ (Text.quoted text).take shownLimit
  | .tooLong digitCount =>
      "Exceeds the limit (" ++ Decimal.naturalText digitLimit ++
        " digits) for integer string conversion: value has " ++ Decimal.naturalText digitCount ++
        " digits; use sys.set_int_max_str_digits() to increase the limit"

end IntegerError

namespace Integer

/-- The digits at the beginning of a text, single underscores between them left out, and what
follows them; the flag says whether a digit has just been read. -/
def scanDigits (afterDigit : Bool) : Text → Text × Text
  | [] => ([], [])
  | c :: rest =>
      if Text.isDigit c then
        let (digits, remaining) := scanDigits true rest
        (c :: digits, remaining)
      else if c = '_' ∧ afterDigit then
        match rest with
        | next :: _ => if Text.isDigit next then scanDigits false rest else ([], c :: rest)
        | [] => ([], c :: rest)
      else
        ([], c :: rest)

/-- Whether a character is one of the four information separators. -/
def isInformationSeparator (c : Char) : Bool :=
  0x1C ≤ c.toNat && c.toNat ≤ 0x1F

/-- Whether a character may surround a written integer. -/
def isPadding (c : Char) : Bool :=
  Text.isBlank c && !isInformationSeparator c

def withoutPadding (text : Text) : Text :=
  Text.dropEndWhile isPadding (text.dropWhile isPadding)

/-- The integer that a text means. -/
def read (text : Text) : Except IntegerError Int :=
  let (negative, body) := Numeral.signed (withoutPadding text)
  let (digits, remaining) := scanDigits false body
  if IntegerError.digitLimit < digits.length then
    .error (.tooLong digits.length)
  else if digits.isEmpty || !remaining.isEmpty then
    .error (.malformed text)
  else
    let magnitude : Int := Numeral.digitsValue digits
    .ok (if negative then -magnitude else magnitude)

end Integer

end Retouch
