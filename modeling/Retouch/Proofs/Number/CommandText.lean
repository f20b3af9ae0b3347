import Retouch.Number.Basic
import Retouch.Proofs.Number.Scanning
import Retouch.Proofs.Text.Trim

/-!
# Numbers in commands

A finite number is written in a command as an integer if it is one and as its shortest decimal
otherwise. Scanning the written form gives the number back; only the sign of a zero is lost, and
writing does not see that sign.
-/

namespace Retouch

namespace Binary64

/-- The number, a zero without its sign. -/
def unsignedZero (number : Binary64) : Binary64 :=
  if number.isZero then zero false else number

theorem isFinite_unsignedZero {number : Binary64} (finite : number.isFinite) :
    number.unsignedZero.isFinite := by
  unfold unsignedZero
  split
  · rfl
  · exact finite

@[simp]
theorem unsignedZero_unsignedZero (number : Binary64) :
    number.unsignedZero.unsignedZero = number.unsignedZero := by
  by_cases isZero : number.isZero
  · simp [unsignedZero, isZero, zero]
  · simp [unsignedZero, isZero]

theorem exists_of_isZero {number : Binary64} (isZero : number.isZero) :
    ∃ negative exponent canonical, number = .finite negative 0 exponent canonical := by
  cases number with
  | finite negative significand exponent canonical =>
      obtain rfl : significand = 0 := by simpa [Binary64.isZero] using isZero
      exact ⟨negative, exponent, canonical, rfl⟩
  | infinite negative => simp [Binary64.isZero] at isZero
  | nan => simp [Binary64.isZero] at isZero

theorem toInt?_of_isZero {number : Binary64} (isZero : number.isZero) : number.toInt? = some 0 := by
  obtain ⟨negative, exponent, canonical, rfl⟩ := exists_of_isZero isZero
  cases negative <;> simp [toInt?, quotient?]

theorem isAbove_of_isZero {number : Binary64} (isZero : number.isZero) :
    number.isAbove 0 1 = false := by
  obtain ⟨negative, exponent, canonical, rfl⟩ := exists_of_isZero isZero
  cases negative <;> simp [isAbove, quotient?]

theorem unsignedZero_of_not_isAbove {number : Binary64} (isFinite : number.isFinite)
    (notAbove : number.isAbove 0 1 = false) (notBelow : number.isBelow 0 1 = false) :
    number.unsignedZero = zero false := by
  cases number with
  | infinite negative => simp [Binary64.isFinite] at isFinite
  | nan => simp [Binary64.isFinite] at isFinite
  | finite negative significand exponent canonical =>
      have significand_eq : significand = 0 := by
        cases negative with
        | false => simpa [isAbove, quotient?] using notAbove
        | true => simpa [isBelow, quotient?] using notBelow
      rw [unsignedZero, if_pos (by simp [Binary64.isZero, significand_eq])]

end Binary64

namespace Number

open Numeral Decimal

/-- The form of a finite number in a command. -/
def finiteText (number : Binary64) : Text :=
  match number.toInt? with
  | some integer => Decimal.integerText integer
  | none => number.text

theorem commandText_float (number : Binary64) :
    (Number.float number).commandText = .ok (finiteText number) := rfl

/-- The parts of a written number: a sign, and digits that are scanned as decimals of one value,
each of which reads back as the number. -/
structure Written (number : Binary64) where
  negative : Bool
  body : Text
  value : ℚ
  isWritten : IsWritten body value
  reads : ∀ decimal : Decimal, decimal.value = value →
    decimal.toBinary64 negative = number.unsignedZero
  characters : ∀ c ∈ body, IsNumberCharacter c
  start : ∃ c rest, body = c :: rest ∧ Text.isAsciiDigit c

def Written.text {number : Binary64} (written : Written number) : Text :=
  signText written.negative ++ written.body

theorem integerText_eq (integer : ℤ) :
    integerText integer = signText (decide (integer < 0)) ++ naturalText integer.natAbs := by
  unfold integerText signText
  by_cases negative : integer < 0 <;> simp [negative]

/-- An integer is written with the digits of its magnitude. -/
def writtenInteger {number : Binary64} (integer : ℤ)
    (reads : ∀ decimal : Decimal, decimal.value = (integer.natAbs : ℕ) →
      decimal.toBinary64 (decide (integer < 0)) = number.unsignedZero) : Written number where
  negative := decide (integer < 0)
  body := naturalText integer.natAbs
  value := (integer.natAbs : ℕ)
  isWritten := isWritten_naturalText _
  reads := reads
  characters := fun _ member => Or.inl (isAsciiDigit_of_mem_naturalText member)
  start := exists_cons_naturalText _

theorem toInt?_eq_some {negative : Bool} {significand : ℕ} {exponent integer : ℤ}
    {canonical : Binary64.Canonical significand exponent}
    (found : (Binary64.finite negative significand exponent canonical).toInt? = some integer) :
    ((integer.natAbs : ℕ) : ℚ) = significand * 2 ^ exponent ∧
      (0 < significand → decide (integer < 0) = negative) := by
  have denominator_pos : (0 : ℤ) < 2 ^ (-exponent).toNat := by positivity
  have denominator_ne : ((2 : ℚ) ^ (-exponent).toNat) ≠ 0 := by positivity
  have power := Binary64.zpow_eq_pow_div_pow 2 (by decide) exponent
  rw [Nat.cast_ofNat] at power
  have exact : integer * 2 ^ (-exponent).toNat =
      if negative then -(significand * 2 ^ exponent.toNat : ℤ)
          else significand * 2 ^ exponent.toNat := by
    simp only [Binary64.toInt?, Binary64.quotient?, Option.ite_none_right_eq_some,
      Option.some.injEq] at found
    rw [← found.2]
    exact Int.ediv_mul_cancel (Int.dvd_of_emod_eq_zero found.1)
  constructor
  · have magnitude : integer.natAbs * 2 ^ (-exponent).toNat =
        significand * 2 ^ exponent.toNat := by
      have absolute := congrArg Int.natAbs exact
      cases negative <;> simpa [Int.natAbs_mul, Int.natAbs_pow] using absolute
    rw [power, mul_div_assoc', eq_div_iff denominator_ne]
    exact_mod_cast magnitude
  · intro significand_pos
    have numerator_pos : (0 : ℤ) < significand * 2 ^ exponent.toNat := by positivity
    cases negative with
    | true =>
        have product_neg : integer * 2 ^ (-exponent).toNat < 0 := by
          rw [exact, if_pos rfl]
          omega
        simpa using neg_of_mul_neg_left product_neg denominator_pos.le
    | false =>
        have product_pos : 0 < integer * 2 ^ (-exponent).toNat := by
          rw [exact, if_neg (by decide)]
          exact numerator_pos
        simpa using ((pos_iff_pos_of_mul_pos product_pos).mpr denominator_pos).le

/-- A finite number is written so that it reads back, a zero without its sign. -/
theorem exists_written {number : Binary64} (finite : number.isFinite) :
    ∃ written : Written number, finiteText number = written.text := by
  cases number with
  | infinite negative => simp [Binary64.isFinite] at finite
  | nan => simp [Binary64.isFinite] at finite
  | finite negative significand exponent canonical =>
      unfold finiteText
      -- an integer is written without a point, any other number as its shortest decimal
      split
      · next integer found =>
          obtain ⟨magnitude, sign⟩ := toInt?_eq_some found
          refine ⟨writtenInteger integer fun decimal same => ?_, integerText_eq integer⟩
          rw [magnitude] at same
          rw [toBinary64_eq_finite _ canonical same, Binary64.unsignedZero]
          rcases Nat.eq_zero_or_pos significand with rfl | significand_pos
          · have zero : integer = 0 := by simpa using magnitude
            obtain ⟨-, -, -, full | rfl⟩ := canonical
            · simp at full
            · simp [Binary64.isZero, zero, Binary64.zero]
          · simp [Binary64.isZero, significand_pos.ne', sign significand_pos]
      · next none =>
          have significand_ne : significand ≠ 0 := by
            rintro rfl
            cases negative <;> simp [Binary64.toInt?, Binary64.quotient?] at none
          refine ⟨⟨negative, (shortest significand exponent).withoutTrailingZeros.text,
            (shortest significand exponent).value, ?_, ?_, ?_, ?_⟩, ?_⟩
          · rw [← value_withoutTrailingZeros]
            exact isWritten_text _
          · intro decimal same
            rw [toBinary64_congr negative same, toBinary64_shortest canonical,
              Binary64.unsignedZero, if_neg (by simpa [Binary64.isZero] using significand_ne)]
          · exact fun c => isNumberCharacter_of_mem_text
          · exact exists_cons_text _
          · cases negative <;> simp [Binary64.text, Written.text, signText, significand_ne]

/-- A finite number in a command is scanned as the number, a zero without its sign. -/
theorem scan_finiteText {number : Binary64} (finite : number.isFinite) {rest : Text}
    (tail : IsTail rest) :
    ∃ numeral, Numeral.scan (finiteText number ++ rest) = some (numeral, rest) ∧
      numeral.toBinary64 = number.unsignedZero := by
  obtain ⟨written, same⟩ := exists_written finite
  obtain ⟨decimal, value, scans⟩ := written.isWritten
  refine ⟨⟨written.negative, decimal⟩, ?_, written.reads decimal value⟩
  rw [same]
  exact scans written.negative rest tail

@[simp]
theorem finiteText_unsignedZero (number : Binary64) :
    finiteText number.unsignedZero = finiteText number := by
  by_cases isZero : number.isZero
  · have zero : (Binary64.zero false).isZero := rfl
    rw [Binary64.unsignedZero, if_pos isZero, finiteText, finiteText,
      Binary64.toInt?_of_isZero isZero, Binary64.toInt?_of_isZero zero]
  · rw [Binary64.unsignedZero, if_neg isZero]

@[simp]
theorem isPositive_unsignedZero (number : Binary64) :
    (Number.float number.unsignedZero).isPositive = (Number.float number).isPositive := by
  by_cases isZero : number.isZero
  · have zero : (Binary64.zero false).isZero := rfl
    rw [Binary64.unsignedZero, if_pos isZero]
    change (Binary64.zero false).isAbove 0 1 = number.isAbove 0 1
    rw [Binary64.isAbove_of_isZero zero, Binary64.isAbove_of_isZero isZero]
  · rw [Binary64.unsignedZero, if_neg isZero]

theorem isPositive_zero (negative : Bool) :
    (Number.float (Binary64.zero negative)).isPositive = false := by
  have isZero : (Binary64.zero negative).isZero := rfl
  exact Binary64.isAbove_of_isZero isZero

theorem isNumberCharacter_of_mem_finiteText {number : Binary64} (finite : number.isFinite)
    {c : Char} (member : c ∈ finiteText number) : IsNumberCharacter c := by
  obtain ⟨written, same⟩ := exists_written finite
  rw [same, Written.text] at member
  rcases List.mem_append.mp member with sign | digit
  · unfold signText at sign
    split at sign
    · obtain rfl := List.mem_singleton.mp sign
      simp [IsNumberCharacter]
    · simp at sign
  · exact written.characters c digit

/-- A finite number begins with a digit, or with a minus and a digit. -/
theorem exists_cons_finiteText {number : Binary64} (finite : number.isFinite) :
    ∃ c rest, Text.isAsciiDigit c ∧
      (finiteText number = c :: rest ∨ finiteText number = '-' :: c :: rest) := by
  obtain ⟨written, same⟩ := exists_written finite
  obtain ⟨c, rest, body, digit⟩ := written.start
  refine ⟨c, rest, digit, ?_⟩
  rw [same, Written.text, body]
  cases written.negative with
  | true => exact Or.inr rfl
  | false => exact Or.inl rfl

theorem finiteText_ne_nil {number : Binary64} (finite : number.isFinite) :
    finiteText number ≠ [] := by
  obtain ⟨c, rest, -, positive | negative⟩ := exists_cons_finiteText finite
  · simp [positive]
  · simp [negative]

theorem isBlank_of_isNumberCharacter {c : Char} (isNumber : IsNumberCharacter c) :
    Text.isBlank c = false := by
  rcases isNumber with digit | rfl | rfl | rfl | rfl
  · simp only [Text.isAsciiDigit, Bool.and_eq_true, decide_eq_true_eq] at digit
    have low : '0'.toNat ≤ c.toNat := digit.1
    have high : c.toNat ≤ '9'.toNat := digit.2
    simp only [Text.isBlank, Text.blankRanges, Text.inRanges]
    have : '0'.toNat = 0x30 := rfl
    have : '9'.toNat = 0x39 := rfl
    grind
  all_goals decide

/-- A finite number in a command is a quantity of its own, with the unit that follows it. -/
theorem quantity?_finiteText {number : Binary64} (finite : number.isFinite) {unit : Text}
    (isUnit : unit = [] ∨ unit = ['%']) :
    quantity? (finiteText number ++ unit) = some (number.unsignedZero, unit) := by
  have tail : IsTail unit := by
    rcases isUnit with rfl | rfl
    · simp [IsTail]
    · simp only [IsTail, List.head?_cons, Option.mem_some_iff, forall_eq']
      decide
  obtain ⟨numeral, scans, value⟩ := scan_finiteText finite tail
  have finite' := Binary64.isFinite_unsignedZero finite
  rw [quantity?, scans]
  rcases isUnit with rfl | rfl <;> simp [value, finite']

/-- A finite number in a command is the value that it begins with. -/
theorem leadingValue_finiteText {number : Binary64} (finite : number.isFinite) :
    leadingValue (finiteText number) = number.unsignedZero := by
  have trimmed : Text.trim (finiteText number) = finiteText number :=
    Text.trim_eq_self fun c member =>
      isBlank_of_isNumberCharacter (isNumberCharacter_of_mem_finiteText finite member)
  have nothing : IsTail [] := by simp [IsTail]
  obtain ⟨numeral, scans, value⟩ := scan_finiteText finite nothing
  rw [List.append_nil] at scans
  have finite' := Binary64.isFinite_unsignedZero finite
  rw [leadingValue, trimmed, scans]
  simp [value, finite']

theorem isFinite_of_quantity? {text unit : Text} {number : Binary64}
    (found : quantity? text = some (number, unit)) :
    number.isFinite ∧ (unit = [] ∨ unit = ['%']) := by
  unfold quantity? at found
  split at found
  · split at found
    · next holds =>
        simp only [Option.some.injEq, Prod.mk.injEq] at found
        obtain ⟨rfl, rfl⟩ := found
        simpa [and_comm] using holds
    · simp at found
  · simp at found

theorem isFinite_leadingValue (text : Text) : (leadingValue text).isFinite := by
  unfold leadingValue
  split
  · split
    · next finite => exact finite
    · rfl
  · rfl

end Number

end Retouch
