/-!
# Binary64 numbers

The double precision numbers of IEEE 754 as exact values: a finite one is a sign, a significand
below `2 ^ 53` and a power of two, in its unique form. All arithmetic takes the exact result, a
quotient of integers, and rounds it once to the nearest number, a tie going to the even significand.
-/

namespace Retouch

namespace Binary64

/-- The unique form of a finite magnitude: the significand has 53 bits, fewer only at the least
exponent. -/
def Canonical (significand : Nat) (exponent : Int) : Prop :=
  significand < Nat.pow 2 53 ∧ -1074 ≤ exponent ∧ exponent ≤ 971 ∧
    (Nat.pow 2 52 ≤ significand ∨ exponent = -1074)

instance (significand : Nat) (exponent : Int) : Decidable (Canonical significand exponent) :=
  inferInstanceAs (Decidable (_ ∧ _ ∧ _ ∧ _))

end Binary64

/-- A double precision number. -/
inductive Binary64 where
  /-- The number `± significand * 2 ^ exponent`. -/
  | finite (negative : Bool) (significand : Nat) (exponent : Int)
      (canonical : Binary64.Canonical significand exponent)
  | infinite (negative : Bool)
  /-- The result of an operation without a result. -/
  | nan
  deriving DecidableEq

namespace Binary64

def zero (negative : Bool) : Binary64 :=
  .finite negative 0 (-1074) (by decide)

instance : Inhabited Binary64 := ⟨zero false⟩

/-- The finite number with this form, or an infinity when the form is beyond the greatest one. -/
def ofForm (negative : Bool) (significand : Nat) (exponent : Int) : Binary64 :=
  if canonical : Canonical significand exponent then
    .finite negative significand exponent canonical
  else
    .infinite negative

/-- A quotient rounded to the nearest integer, a tie to the even one. -/
def divNearest (numerator denominator : Nat) : Nat :=
  let quotient := numerator / denominator
  let remainder := numerator % denominator
  if 2 * remainder < denominator then quotient
  else if denominator < 2 * remainder then quotient + 1
  else if quotient % 2 = 0 then quotient
  else quotient + 1

/-- The quotient `numerator / denominator / 2 ^ exponent` as a numerator and a denominator. -/
def scale (numerator denominator : Nat) (exponent : Int) : Nat × Nat :=
  (numerator * Nat.pow 2 (-exponent).toNat, denominator * Nat.pow 2 exponent.toNat)

/-- The exponent at which a positive quotient has a significand of 53 bits, or the least
exponent. -/
def exponentOf (numerator denominator : Nat) : Int :=
  let guess : Int := (numerator.log2 : Int) - denominator.log2 - 52
  let (scaledNumerator, scaledDenominator) := scale numerator denominator guess
  -- the guess is right or one too high
  max (-1074) (if Nat.pow 2 52 * scaledDenominator ≤ scaledNumerator then guess else guess - 1)

/-- The number nearest to a quotient with a positive denominator, a tie to the even significand. -/
def round (negative : Bool) (numerator denominator : Nat) : Binary64 :=
  if numerator = 0 then
    zero negative
  else
    let exponent := exponentOf numerator denominator
    let (scaledNumerator, scaledDenominator) := scale numerator denominator exponent
    let significand := divNearest scaledNumerator scaledDenominator
    if significand = Nat.pow 2 53 then
      -- rounding has carried into one more bit
      ofForm negative (Nat.pow 2 52) (exponent + 1)
    else
      ofForm negative significand exponent

def ofInt (value : Int) : Binary64 :=
  round (value < 0) value.natAbs 1

def ofQuotient (dividend : Int) (divisor : Nat) : Binary64 :=
  round (dividend < 0) dividend.natAbs divisor

/-- The exact value as a quotient of integers, for a finite number. -/
def quotient? : Binary64 → Option (Int × Nat)
  | .finite negative significand exponent _ =>
      let magnitude : Int := significand * Nat.pow 2 exponent.toNat
      some (if negative then -magnitude else magnitude, Nat.pow 2 (-exponent).toNat)
  | _ => none

/-- Whether the sign is the negative one; that of `nan` is not. -/
def isNegative : Binary64 → Bool
  | .finite negative .. => negative
  | .infinite negative => negative
  | .nan => false

/-- Whether a number is zero, of either sign. -/
def isZero : Binary64 → Bool
  | .finite _ significand .. => significand == 0
  | _ => false

def isFinite : Binary64 → Bool
  | .finite .. => true
  | _ => false

/-- The integer that a finite number is, if it is one. -/
def toInt? (number : Binary64) : Option Int :=
  match number.quotient? with
  | some (numerator, denominator) =>
      if numerator % denominator = 0 then some (numerator / denominator) else none
  | none => none

/-- A finite number without its fraction. -/
def truncate? (number : Binary64) : Option Int :=
  number.quotient?.map fun (numerator, denominator) => numerator.tdiv denominator

/-- The integer nearest to a finite number, a tie to the even one. -/
def nearestInt? (number : Binary64) : Option Int :=
  number.quotient?.map fun (numerator, denominator) =>
    let magnitude : Int := divNearest numerator.natAbs denominator
    if numerator < 0 then -magnitude else magnitude

/-- The exact quotient rounded; a zero takes the given sign. -/
def roundSigned (zeroNegative : Bool) (numerator : Int) (denominator : Nat) : Binary64 :=
  if numerator = 0 then zero zeroNegative else ofQuotient numerator denominator

def mul (left right : Binary64) : Binary64 :=
  let negative := left.isNegative != right.isNegative
  match left.quotient?, right.quotient? with
  | some (leftNumerator, leftDenominator), some (rightNumerator, rightDenominator) =>
      roundSigned negative (leftNumerator * rightNumerator) (leftDenominator * rightDenominator)
  | some (numerator, _), none =>
      if right = nan ∨ numerator = 0 then nan else infinite negative
  | none, some (numerator, _) =>
      if left = nan ∨ numerator = 0 then nan else infinite negative
  | none, none => if left = nan ∨ right = nan then nan else infinite negative

/-- Whether a number is below a quotient with a positive divisor; `nan` is below none. -/
def isBelow (number : Binary64) (dividend : Int) (divisor : Nat) : Bool :=
  match number with
  | .nan => false
  | .infinite negative => negative
  | .finite .. =>
      match number.quotient? with
      | some (numerator, denominator) => numerator * divisor < dividend * denominator
      | none => false

def isAbove (number : Binary64) (dividend : Int) (divisor : Nat) : Bool :=
  match number with
  | .nan => false
  | .infinite negative => !negative
  | .finite .. =>
      match number.quotient? with
      | some (numerator, denominator) => dividend * denominator < numerator * divisor
      | none => false

end Binary64

end Retouch
