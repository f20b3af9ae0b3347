import Retouch.Number.Numeral
import Retouch.Proofs.Number.DecimalValue

/-!
# Scanning what was written

A numeral has a mantissa, digits with an optional point, and an optional exponent. Each part is
scanned up to the first character that cannot continue it, so a decimal that was written is scanned
in full and as a decimal of the same value, whatever follows that is no part of a numeral.
-/

namespace Retouch

namespace Text

theorem digitValue?_of_isAsciiDigit {c : Char} (digit : isAsciiDigit c) :
    digitValue? c = some (c.toNat - '0'.toNat) := by
  simp only [isAsciiDigit, Bool.and_eq_true, decide_eq_true_eq] at digit
  have first : (0x30 ≤ c.toNat && c.toNat < 0x30 + 10) = true := by
    simp only [Bool.and_eq_true, decide_eq_true_eq]
    exact ⟨digit.1, Nat.lt_succ_of_le digit.2⟩
  simp only [digitValue?, zeroDigits, List.find?_cons, first, Option.map_some]
  rfl

theorem isDigit_of_isAsciiDigit {c : Char} (digit : isAsciiDigit c) : isDigit c = true := by
  rw [isDigit, digitValue?_of_isAsciiDigit digit]
  rfl

theorem digitValue_of_isAsciiDigit {c : Char} (digit : isAsciiDigit c) :
    digitValue c = c.toNat - '0'.toNat := by
  rw [digitValue, digitValue?_of_isAsciiDigit digit]
  rfl

end Text

namespace Decimal

theorem isAsciiDigit_of_mem_naturalText {value : ℕ} {c : Char}
    (member : c ∈ naturalText value) :
    Text.isAsciiDigit c = true :=
  Nat.isDigit_of_mem_toDigits (by decide) (by decide) member

theorem naturalText_ne_nil (value : ℕ) : naturalText value ≠ [] :=
  Nat.toDigits_ne_nil

end Decimal

namespace Numeral

/-- ASCII digits are read in base ten. -/
theorem digitsValue_eq {digits : Text} (areDigits : ∀ c ∈ digits, Text.isAsciiDigit c) :
    digitsValue digits = Nat.ofDigitChars 10 digits 0 := by
  have step (start : ℕ) : digits.foldl (fun value c => 10 * value + Text.digitValue c) start =
      Nat.ofDigitChars 10 digits start := by
    induction digits generalizing start with
    | nil => simp
    | cons c digits ih =>
        have isDigit : Text.isAsciiDigit c := areDigits c (by simp)
        have others : ∀ d ∈ digits, Text.isAsciiDigit d := fun d member =>
          areDigits d (List.mem_cons_of_mem _ member)
        rw [List.foldl_cons, Nat.ofDigitChars_cons, ih others,
          Text.digitValue_of_isAsciiDigit isDigit]
  exact step 0

theorem digitsValue_naturalText (value : ℕ) :
    digitsValue (Decimal.naturalText value) = value := by
  rw [digitsValue_eq fun c => Decimal.isAsciiDigit_of_mem_naturalText]
  exact Nat.ofDigitChars_toDigits (by decide) (by decide)

/-- What cannot continue a numeral. -/
def IsTail (rest : Text) : Prop :=
  ∀ c ∈ rest.head?, Text.isDigit c = false ∧ c ≠ '.' ∧ c ≠ 'e' ∧ c ≠ 'E'

theorem takeWhile_isDigit_append {digits rest : Text}
    (areDigits : ∀ c ∈ digits, Text.isAsciiDigit c)
    (stop : ∀ c ∈ rest.head?, Text.isDigit c = false) :
    (digits ++ rest).takeWhile Text.isDigit = digits ∧
      (digits ++ rest).dropWhile Text.isDigit = rest := by
  have areDigits' : ∀ c ∈ digits, Text.isDigit c = true := fun c member =>
    Text.isDigit_of_isAsciiDigit (areDigits c member)
  rw [List.takeWhile_append_of_pos areDigits', List.dropWhile_append_of_pos areDigits']
  cases rest with
  | nil => simp
  | cons c rest => simp [stop c (by simp)]

/-- Whether a text is scanned as the digits before and after a point, up to what continues
neither. -/
def IsMantissa (text whole fraction : Text) : Prop :=
  (∀ c ∈ text.head?, Text.isAsciiDigit c) ∧
    ∀ rest : Text, (∀ c ∈ rest.head?, Text.isDigit c = false ∧ c ≠ '.') →
      scanMantissa (text ++ rest) = some (whole, fraction, rest)

theorem isMantissa_whole {digits : Text} (nonempty : digits ≠ [])
    (areDigits : ∀ c ∈ digits, Text.isAsciiDigit c) : IsMantissa digits digits [] := by
  refine ⟨fun c member => areDigits c (List.mem_of_mem_head? member), fun rest stop => ?_⟩
  obtain ⟨taken, dropped⟩ := takeWhile_isDigit_append areDigits fun c member =>
    (stop c member).1
  rw [scanMantissa, taken, dropped]
  cases rest with
  | nil => simp [nonempty]
  | cons c rest =>
      have noPoint : c ≠ '.' := (stop c (by simp)).2
      split
      · next same => simp [noPoint] at same
      · simp [nonempty]

theorem isMantissa_point (whole fraction : Text) (nonempty : whole ≠ [])
    (areDigits : ∀ c ∈ whole, Text.isAsciiDigit c)
    (areDigits' : ∀ c ∈ fraction, Text.isAsciiDigit c) :
    IsMantissa (whole ++ '.' :: fraction) whole fraction := by
  constructor
  · cases whole with
    | nil => exact absurd rfl nonempty
    | cons c whole => simpa using areDigits c (by simp)
  · intro rest stop
    have noDigit : ∀ c ∈ ('.' :: (fraction ++ rest)).head?, Text.isDigit c = false := by
      simp only [List.head?_cons, Option.mem_some_iff, forall_eq']
      decide
    obtain ⟨taken, dropped⟩ := takeWhile_isDigit_append areDigits noDigit
    obtain ⟨taken', dropped'⟩ := takeWhile_isDigit_append areDigits' fun c member =>
      (stop c member).1
    rw [List.append_assoc, List.cons_append, scanMantissa, taken, dropped]
    simp [taken', dropped', nonempty]

/-- Whether a text is scanned as an exponent, up to what does not continue it. -/
def IsExponent (text : Text) (exponent : ℤ) : Prop :=
  (∀ c ∈ text.head?, Text.isDigit c = false ∧ c ≠ '.') ∧
    ∀ rest : Text, IsTail rest → scanExponent (text ++ rest) = (exponent, rest)

theorem isExponent_nil : IsExponent [] 0 := by
  refine ⟨by simp, fun rest stop => ?_⟩
  cases rest with
  | nil => rfl
  | cons c rest =>
      obtain ⟨-, -, noExponent, noExponent'⟩ := stop c (by simp)
      simp [scanExponent, noExponent, noExponent']

theorem isExponent_signed (digits : Text) (nonempty : digits ≠ [])
    (areDigits : ∀ c ∈ digits, Text.isAsciiDigit c) (negative : Bool) :
    IsExponent ('e' :: (if negative then '-' else '+') :: digits)
      (if negative then -digitsValue digits else digitsValue digits) := by
  constructor
  · simp only [List.head?_cons, Option.mem_some_iff, forall_eq']
    decide
  · intro rest stop
    obtain ⟨taken, dropped⟩ := takeWhile_isDigit_append areDigits fun c member =>
      (stop c member).1
    cases negative <;> simp [scanExponent, signed, taken, dropped, nonempty]

def signText (negative : Bool) : Text :=
  if negative then ['-'] else []

/-- A sign, a mantissa and an exponent are scanned as one numeral. -/
theorem scan_parts {mantissa whole fraction power : Text} {exponent : ℤ}
    (isMantissa : IsMantissa mantissa whole fraction) (isExponent : IsExponent power exponent)
    (mantissa_ne : mantissa ≠ []) (negative : Bool) {rest : Text} (tail : IsTail rest) :
    scan (signText negative ++ (mantissa ++ power) ++ rest) =
      some (⟨negative, ⟨digitsValue (whole ++ fraction), exponent - fraction.length⟩⟩,
          rest) := by
  have unsigned : signed (signText negative ++ (mantissa ++ power) ++ rest) =
      (negative, mantissa ++ (power ++ rest)) := by
    cases negative with
    | true => simp [signText, signed]
    | false =>
        cases mantissa with
        | nil => exact absurd rfl mantissa_ne
        | cons c mantissa =>
            have digit : Text.isAsciiDigit c := isMantissa.1 c (by simp)
            have noMinus : c ≠ '-' := by rintro rfl; exact absurd digit (by decide)
            have noPlus : c ≠ '+' := by rintro rfl; exact absurd digit (by decide)
            simp only [signText, Bool.false_eq_true, if_false, List.nil_append, List.cons_append,
              List.append_assoc]
            unfold signed
            split
            · next same => simp [noMinus] at same
            · next same => simp [noPlus] at same
            · rfl
  have stop : ∀ c ∈ (power ++ rest).head?, Text.isDigit c = false ∧ c ≠ '.' := by
    intro c member
    cases power with
    | nil => exact ⟨(tail c member).1, (tail c member).2.1⟩
    | cons d power => exact isExponent.1 c (by simpa using member)
  rw [scan, unsigned]
  simp only [isMantissa.2 (power ++ rest) stop, isExponent.2 rest tail]

/-- Whether a text is scanned as a decimal of a given value, after a sign and before what is no part
of a numeral. -/
def IsWritten (text : Text) (value : ℚ) : Prop :=
  ∃ decimal : Decimal, decimal.value = value ∧
    ∀ (negative : Bool) (rest : Text), IsTail rest →
    scan (signText negative ++ text ++ rest) = some (⟨negative, decimal⟩, rest)

theorem isWritten_of_parts {text mantissa whole fraction power : Text} {exponent : ℤ}
    {value : ℚ}
    (isMantissa : IsMantissa mantissa whole fraction) (isExponent : IsExponent power exponent)
    (mantissa_ne : mantissa ≠ []) (parts : text = mantissa ++ power)
    (same : Decimal.value ⟨digitsValue (whole ++ fraction), exponent - fraction.length⟩ =
        value) :
    IsWritten text value := by
  refine ⟨_, same, fun negative rest tail => ?_⟩
  rw [parts]
  exact scan_parts isMantissa isExponent mantissa_ne negative tail

end Numeral

namespace Decimal

open Numeral

theorem isWritten_naturalText (value : ℕ) : IsWritten (naturalText value) value := by
  have isMantissa := isMantissa_whole (naturalText_ne_nil value) fun c =>
    isAsciiDigit_of_mem_naturalText
  refine isWritten_of_parts isMantissa isExponent_nil (naturalText_ne_nil value) (by simp) ?_
  simp [digitsValue_naturalText, Decimal.value]

theorem isAsciiDigit_of_mem_zeros {count : ℕ} {c : Char}
    (member : c ∈ List.replicate count '0') :
    Text.isAsciiDigit c = true :=
  List.eq_of_mem_replicate member ▸ rfl

theorem digitsValue_zeros_append (count value : ℕ) :
    digitsValue (List.replicate count '0' ++ naturalText value) = value := by
  have areDigits : ∀ c ∈ List.replicate count '0' ++ naturalText value,
      Text.isAsciiDigit c := by
    intro c member
    rcases List.mem_append.mp member with zero | digit
    · exact isAsciiDigit_of_mem_zeros zero
    · exact isAsciiDigit_of_mem_naturalText digit
  rw [digitsValue_eq areDigits, Nat.ofDigitChars_append, Nat.ofDigitChars_replicate_zero,
    Nat.mul_zero]
  exact Nat.ofDigitChars_toDigits (by decide) (by decide)

theorem digitsValue_append_zeros (count value : ℕ) :
    digitsValue (naturalText value ++ List.replicate count '0') = value * 10 ^ count := by
  have areDigits : ∀ c ∈ naturalText value ++ List.replicate count '0',
      Text.isAsciiDigit c := by
    intro c member
    rcases List.mem_append.mp member with digit | zero
    · exact isAsciiDigit_of_mem_naturalText digit
    · exact isAsciiDigit_of_mem_zeros zero
  rw [digitsValue_eq areDigits, Nat.ofDigitChars_append, Nat.ofDigitChars_replicate_zero, mul_comm]
  congr 1
  exact Nat.ofDigitChars_toDigits (by decide) (by decide)

variable (units : ℕ)

/-- All digits stand behind the point, after some zeros. -/
theorem isWritten_behind_point (zeros : ℕ) :
    IsWritten ("0." ++ List.replicate zeros '0' ++ naturalText units)
      (value ⟨units, -(zeros + (naturalText units).length)⟩) := by
  have isMantissa :=
    isMantissa_point ['0'] (List.replicate zeros '0' ++ naturalText units) (by simp)
    (fun c (member : c ∈ List.replicate 1 '0') => isAsciiDigit_of_mem_zeros member) (by
      intro c member
      rcases List.mem_append.mp member with zero | digit
      · exact isAsciiDigit_of_mem_zeros zero
      · exact isAsciiDigit_of_mem_naturalText digit)
  have digits : ['0'] ++ (List.replicate zeros '0' ++ naturalText units) =
      List.replicate (zeros + 1) '0' ++ naturalText units := by
    rw [List.replicate_succ]
    rfl
  refine isWritten_of_parts isMantissa isExponent_nil (by simp) (by simp) ?_
  rw [digits, digitsValue_zeros_append]
  congr 2
  simp only [List.length_append, List.length_replicate]
  omega

/-- All digits and some zeros stand before the point. -/
theorem isWritten_before_point (zeros : ℕ) :
    IsWritten (naturalText units ++ List.replicate zeros '0' ++ ".0")
      (value ⟨units, zeros⟩) := by
  have isMantissa := isMantissa_point (naturalText units ++ List.replicate zeros '0') ['0']
    (by simp [naturalText_ne_nil]) (by
      intro c member
      rcases List.mem_append.mp member with digit | zero
      · exact isAsciiDigit_of_mem_naturalText digit
      · exact isAsciiDigit_of_mem_zeros zero)
    (fun c (member : c ∈ List.replicate 1 '0') => isAsciiDigit_of_mem_zeros member)
  have digits : naturalText units ++ List.replicate zeros '0' ++ ['0'] =
      naturalText units ++ List.replicate (zeros + 1) '0' := by
    rw [List.append_assoc, List.replicate_succ']
  have power : (10 : ℚ) ^ (zeros : ℤ) = 10 ^ (zeros + 1) * 10 ^ (-1 : ℤ) := by
    rw [← zpow_natCast, ← zpow_add₀ (by norm_num)]
    congr 1
    omega
  refine isWritten_of_parts isMantissa isExponent_nil (by simp) (by simp) ?_
  rw [digits, digitsValue_append_zeros]
  simp only [value, power, Nat.cast_mul, Nat.cast_pow, Nat.cast_ofNat, mul_assoc]
  rfl

/-- The point stands between the digits. -/
theorem isWritten_around_point (place : ℕ) (place_pos : 0 < place) :
    IsWritten ((naturalText units).take place ++ "." ++ (naturalText units).drop place)
      (value ⟨units, -((naturalText units).length - place : ℕ)⟩) := by
  have isMantissa := isMantissa_point ((naturalText units).take place)
    ((naturalText units).drop place) (by simp [naturalText_ne_nil, place_pos.ne'])
    (fun c member => isAsciiDigit_of_mem_naturalText (List.mem_of_mem_take member))
    (fun c member => isAsciiDigit_of_mem_naturalText (List.mem_of_mem_drop member))
  refine isWritten_of_parts isMantissa isExponent_nil (by simp) (by simp) ?_
  rw [List.take_append_drop, digitsValue_naturalText, List.length_drop]
  simp

theorem isExponent_padded (power : ℤ) (padding : ℕ) :
    IsExponent ('e' :: (if power < 0 then '-' else '+') ::
      (List.replicate padding '0' ++ naturalText power.natAbs)) power := by
  have isExponent := isExponent_signed (List.replicate padding '0' ++ naturalText power.natAbs)
    (by simp [naturalText_ne_nil]) (by
      intro c member
      rcases List.mem_append.mp member with zero | digit
      · exact isAsciiDigit_of_mem_zeros zero
      · exact isAsciiDigit_of_mem_naturalText digit) (decide (power < 0))
  have magnitude : (if power < 0 then -(power.natAbs : ℤ) else power.natAbs) = power := by
    split <;> omega
  rw [digitsValue_zeros_append] at isExponent
  simp only [decide_eq_true_eq, magnitude] at isExponent
  exact isExponent

/-- One digit, the others behind a point, and the place of the first digit. -/
theorem isWritten_power (power : ℤ) (padding : ℕ) :
    IsWritten ((naturalText units).take 1 ++
        (if (naturalText units).length ≤ 1 then [] else '.' :: (naturalText units).drop 1) ++
        ('e' :: (if power < 0 then '-' else '+') ::
          (List.replicate padding '0' ++ naturalText power.natAbs)))
      (value ⟨units, power - ((naturalText units).length - 1 : ℕ)⟩) := by
  have first_ne : (naturalText units).take 1 ≠ [] := by simp [naturalText_ne_nil]
  have areDigits : ∀ c ∈ (naturalText units).take 1, Text.isAsciiDigit c := fun c member =>
    isAsciiDigit_of_mem_naturalText (List.mem_of_mem_take member)
  have isMantissa : IsMantissa ((naturalText units).take 1 ++
      if (naturalText units).length ≤ 1 then [] else '.' :: (naturalText units).drop 1)
      ((naturalText units).take 1) ((naturalText units).drop 1) := by
    split
    · next short =>
        rw [List.drop_eq_nil_of_le short, List.append_nil]
        exact isMantissa_whole first_ne areDigits
    · exact isMantissa_point _ _ first_ne areDigits
        (fun c member => isAsciiDigit_of_mem_naturalText (List.mem_of_mem_drop member))
  refine isWritten_of_parts isMantissa (isExponent_padded power padding) (by simp [first_ne]) rfl ?_
  rw [List.take_append_drop, digitsValue_naturalText, List.length_drop]

/-- A decimal that was written is scanned as a decimal of its value. -/
theorem isWritten_text (decimal : Decimal) : IsWritten decimal.text decimal.value := by
  obtain ⟨units, exponent⟩ := decimal
  have length_pos := List.length_pos_of_ne_nil (naturalText_ne_nil units)
  unfold text
  dsimp only
  split
  · split
    · next before =>
        have same : exponent =
            -(((-((naturalText units).length + exponent)).toNat : ℤ) +
                (naturalText units).length) := by
          omega
        have written :=
          isWritten_behind_point units (-((naturalText units).length + exponent)).toNat
        rwa [← same] at written
    · split
      · have same : exponent = (exponent.toNat : ℤ) := by omega
        have written := isWritten_before_point units exponent.toNat
        rwa [← same] at written
      · have same : exponent =
            -(((naturalText units).length - ((naturalText units).length + exponent).toNat : ℕ) :
                ℤ) := by
          omega
        have written :=
          isWritten_around_point units ((naturalText units).length + exponent).toNat (by omega)
        rwa [← same] at written
  · have same : exponent = (naturalText units).length + exponent - 1 -
        ((naturalText units).length - 1 : ℕ) := by
      omega
    generalize place_eq : ((naturalText units).length : ℤ) + exponent - 1 = place at same ⊢
    have written :=
      isWritten_power units place (if (naturalText place.natAbs).length < 2 then 1 else 0)
    rw [← same] at written
    by_cases negative : place < 0 <;> by_cases short : (naturalText place.natAbs).length < 2 <;>
      simpa [negative, short] using written

/-- The characters of which numbers are written. -/
def IsNumberCharacter (c : Char) : Prop :=
  Text.isAsciiDigit c ∨ c = '.' ∨ c = 'e' ∨ c = '+' ∨ c = '-'

theorem isNumberCharacter_of_mem_text {decimal : Decimal} {c : Char} (member : c ∈ decimal.text) :
    IsNumberCharacter c := by
  have digit {value : ℕ} (member : c ∈ naturalText value) : IsNumberCharacter c :=
    Or.inl (isAsciiDigit_of_mem_naturalText member)
  have zero {count : ℕ} (member : c ∈ List.replicate count '0') : IsNumberCharacter c :=
    Or.inl (isAsciiDigit_of_mem_zeros member)
  have mark (isMark : c = '0' ∨ c = '.' ∨ c = 'e' ∨ c = '+' ∨ c = '-') :
      IsNumberCharacter c :=
    isMark.imp_left fun zero => by rw [zero]; rfl
  unfold text at member
  grind [List.mem_of_mem_take, List.mem_of_mem_drop]

theorem exists_cons_naturalText (value : ℕ) :
    ∃ c rest, naturalText value = c :: rest ∧ Text.isAsciiDigit c := by
  obtain ⟨c, rest, parts⟩ := List.exists_cons_of_ne_nil (naturalText_ne_nil value)
  exact ⟨c, rest, parts, isAsciiDigit_of_mem_naturalText (parts ▸ List.mem_cons_self)⟩

theorem exists_cons_text (decimal : Decimal) :
    ∃ c rest, decimal.text = c :: rest ∧ Text.isAsciiDigit c := by
  obtain ⟨c, rest, parts, digit⟩ := exists_cons_naturalText decimal.units
  unfold text
  dsimp only
  split
  · split
    · exact ⟨'0', _, rfl, rfl⟩
    · split
      · exact ⟨c, _, by rw [parts]; rfl, digit⟩
      · next before _ =>
          obtain ⟨place, same⟩ : ∃ place,
              (((naturalText decimal.units).length : ℤ) + decimal.exponent).toNat = place + 1 :=
            ⟨_, (Nat.succ_pred_eq_of_pos (by omega)).symm⟩
          exact ⟨c, _, by rw [same, parts]; rfl, digit⟩
  · exact ⟨c, _, by rw [parts]; rfl, digit⟩

end Decimal

end Retouch
