import Retouch.Number.Decimal

/-!
# Numbers

A number is an integer of any size or a binary64 number; the two are kept apart, because they are
written differently. A setting that is read from a command is a binary64 number, while the ranges
and defaults of the effects are mostly integers.
-/

namespace Retouch

/-- An integer or a binary64 number. -/
inductive Number where
  | int (value : Int)
  | float (value : Binary64)
  deriving DecidableEq

/-- Why a conversion between integers and floats has no result. -/
inductive RangeError where
  | integerTooLarge
  /-- A quotient of integers is beyond all floats. -/
  | quotientTooLarge
  | infinite
  | notANumber
  deriving DecidableEq

def RangeError.message : RangeError → Text
  | .integerTooLarge => "int too large to convert to float"
  | .quotientTooLarge => "integer division result too large for a float"
  | .infinite => "cannot convert float infinity to integer"
  | .notANumber => "cannot convert float NaN to integer"

namespace Number

instance : Inhabited Number := ⟨.int 0⟩

instance (value : Nat) : OfNat Number value := ⟨.int value⟩

/-- The number as it is written: digits for an integer, the shortest decimal for a float. -/
def text : Number → Text
  | .int value => Decimal.integerText value
  | .float value => value.text

def ofDecimal (negative : Bool) (units : Nat) (exponent : Int) : Number :=
  .float (Decimal.toBinary64 negative ⟨units, exponent⟩)

/-- The nearest binary64 number; an integer beyond all of them has none. -/
def toBinary64 : Number → Except RangeError Binary64
  | .int value =>
      match Binary64.ofInt value with
      | .infinite _ => .error .integerTooLarge
      | number => .ok number
  | .float value => .ok value

/-- Whether a number is above a quotient with a positive divisor. -/
def isAbove (number : Number) (dividend : Int) (divisor : Nat) : Bool :=
  match number with
  | .int value => dividend < value * divisor
  | .float value => value.isAbove dividend divisor

def isBelow (number : Number) (dividend : Int) (divisor : Nat) : Bool :=
  match number with
  | .int value => value * divisor < dividend
  | .float value => value.isBelow dividend divisor

def isPositive (number : Number) : Bool :=
  number.isAbove 0 1

/-- Whether a number is at most a quotient with a positive divisor; `nan` is not. -/
def isAtMost (number : Number) (dividend : Int) (divisor : Nat) : Bool :=
  match number with
  | .float .nan => false
  | _ => !number.isAbove dividend divisor

/-- The number in the form used in commands: an integral one without a point, any other as the
shortest decimal. -/
def commandText (number : Number) : Except RangeError Text :=
  number.toBinary64.map fun value =>
    match value.toInt? with
    | some integer => Decimal.integerText integer
    | none => value.text

end Number

end Retouch
