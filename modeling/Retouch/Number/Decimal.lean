import Retouch.Text.Basic
import Retouch.Number.Binary64

/-!
# Decimal forms of binary64 numbers

A decimal is a count of units, each a power of ten. Reading one gives the nearest binary64 number.
Writing a number takes the decimal with the fewest digits that reads back as it, and of those the
nearest one, a tie going to the even digit. Positions are written out from `0.0001` up to below
`10 ^ 16`; outside of that range the form is one digit, the other digits and a power of ten.
-/

namespace Retouch

/-- The decimal `units * 10 ^ exponent`. -/
structure Decimal where
  units : Nat
  exponent : Int

namespace Decimal

def naturalText (value : Nat) : Text :=
  Nat.toDigits 10 value

def integerText (value : Int) : Text :=
  if value < 0 then '-' :: naturalText value.natAbs else naturalText value.natAbs

def digitCount (value : Nat) : Nat :=
  (naturalText value).length

/-- The binary64 number nearest to a decimal. Beyond `10 ^ 310` all are infinite, and below
`10 ^ -330` all are zero. -/
def toBinary64 (negative : Bool) (decimal : Decimal) : Binary64 :=
  if decimal.units = 0 then
    .zero negative
  else
    let magnitude := digitCount decimal.units + decimal.exponent
    if 310 < magnitude then .infinite negative
    else if magnitude < -330 then .zero negative
    else
      .round negative (decimal.units * Nat.pow 10 decimal.exponent.toNat)
        (Nat.pow 10 (-decimal.exponent).toNat)

def withoutTrailingZeros (decimal : Decimal) : Decimal :=
  if decimal.units = 0 then ⟨0, 0⟩
  else if decimal.units % 10 = 0 then
    withoutTrailingZeros ⟨decimal.units / 10, decimal.exponent + 1⟩
  else
    decimal
termination_by decimal.units
decreasing_by omega

/-- The exponent of the first digit of a positive quotient. -/
def leadingExponent (numerator denominator : Nat) : Int :=
  let guess : Int := (digitCount numerator : Int) - digitCount denominator
  if denominator * Nat.pow 10 guess.toNat ≤ numerator * Nat.pow 10 (-guess).toNat then guess
    else guess - 1

/-- The decimals next to a quotient among those with a given unit, the nearer one first. -/
def neighbours (numerator denominator : Nat) (exponent : Int) : List Decimal :=
  let scaledNumerator := numerator * Nat.pow 10 (-exponent).toNat
  let scaledDenominator := denominator * Nat.pow 10 exponent.toNat
  let below := scaledNumerator / scaledDenominator
  let nearest := Binary64.divNearest scaledNumerator scaledDenominator
  if nearest = below then [⟨below, exponent⟩, ⟨below + 1, exponent⟩]
  else [⟨below + 1, exponent⟩, ⟨below, exponent⟩]

/-- The exact decimal value of `significand * 2 ^ exponent`. -/
def exact (significand : Nat) (exponent : Int) : Decimal :=
  ⟨significand * Nat.pow 2 exponent.toNat * Nat.pow 5 (-exponent).toNat, min exponent 0⟩

/-- The decimal with the fewest digits, at most 17, that reads back as a given number; the exact
value serves where there is none. -/
def shortest (significand : Nat) (exponent : Int) : Decimal :=
  let numerator := significand * Nat.pow 2 exponent.toNat
  let denominator := Nat.pow 2 (-exponent).toNat
  let number := Binary64.ofForm false significand exponent
  let leading := leadingExponent numerator denominator
  let candidates := (List.range 17).flatMap fun (further : Nat) =>
    neighbours numerator denominator (leading - further)
  (candidates.find? fun decimal => decimal.toBinary64 false = number).getD
    (exact significand exponent)

/-- The decimal written with positions, from `0.0001` up, or with a power of ten. -/
def text (decimal : Decimal) : Text :=
  let digits := naturalText decimal.units
  let point : Int := digits.length + decimal.exponent
  if -4 < point ∧ point ≤ 16 then
    if point ≤ 0 then
      "0." ++ List.replicate (-point).toNat '0' ++ digits
    else if (digits.length : Int) ≤ point then
      digits ++ List.replicate decimal.exponent.toNat '0' ++ ".0"
    else
      digits.take point.toNat ++ "." ++ digits.drop point.toNat
  else
    let power := point - 1
    let sign : Text := if power < 0 then "-" else "+"
    let powerDigits := naturalText power.natAbs
    let padding : Text := if powerDigits.length < 2 then "0" else []
    let fraction : Text := if digits.length ≤ 1 then [] else '.' :: digits.drop 1
    digits.take 1 ++ fraction ++ "e" ++ sign ++ padding ++ powerDigits

end Decimal

namespace Binary64

/-- The shortest decimal text that reads back as the number. -/
def text : Binary64 → Text
  | .finite negative significand exponent _ =>
      let magnitude : Text :=
        if significand = 0 then "0.0"
        else (Decimal.shortest significand exponent).withoutTrailingZeros.text
      if negative then '-' :: magnitude else magnitude
  | .infinite negative => if negative then "-inf" else "inf"
  | .nan => "nan"

end Binary64

end Retouch
