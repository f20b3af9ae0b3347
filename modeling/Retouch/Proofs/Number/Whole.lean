import Retouch.Proofs.Number.CommandText

/-!
# Whole numbers

A number can be held as an integer or as a binary64 number, and a whole number in both ways. Up to
`2 ^ 53` every integer is a binary64 number exactly, so it is written in a command by its own digits
and read back as a number of the same value.
-/

namespace Retouch

namespace Binary64

theorem toInt?_eq_some_iff {number : Binary64} {integer : ℤ} :
    number.toInt? = some integer ↔
      ∃ numerator denominator, number.quotient? = some (numerator, denominator) ∧
        0 < denominator ∧ numerator = integer * denominator := by
  cases number with
  | infinite negative => simp [toInt?, quotient?]
  | nan => simp [toInt?, quotient?]
  | finite negative significand exponent canonical =>
      have positive : 0 < Nat.pow 2 (-exponent).toNat := Nat.pow_pos (by decide)
      simp only [toInt?, quotient?, Option.some.injEq, Prod.mk.injEq, Option.ite_none_right_eq_some]
      constructor
      · rintro ⟨divides, rfl⟩
        exact ⟨_, _, ⟨rfl, rfl⟩, positive,
          (Int.ediv_mul_cancel (Int.dvd_of_emod_eq_zero divides)).symm⟩
      · rintro ⟨_, _, ⟨rfl, rfl⟩, -, exact⟩
        have denominator_ne : (Nat.pow 2 (-exponent).toNat : ℤ) ≠ 0 := by
          exact_mod_cast positive.ne'
        rw [exact]
        exact ⟨Int.mul_emod_left _ _, Int.mul_ediv_cancel _ denominator_ne⟩

/-- An integer of no more than 53 binary digits, or `2 ^ 53`, has a canonical form. -/
theorem exists_canonical {magnitude : ℕ} (small : magnitude ≤ 2 ^ 53) :
    ∃ significand exponent, Canonical significand exponent ∧
      (magnitude : ℚ) = significand * 2 ^ exponent := by
  rcases Nat.eq_zero_or_pos magnitude with rfl | positive
  · exact ⟨0, -1074, by decide, by simp⟩
  rcases small.lt_or_eq with below | rfl
  · have low : 2 ^ magnitude.log2 ≤ magnitude := Nat.log2_self_le positive.ne'
    have high : magnitude < 2 ^ (magnitude.log2 + 1) := Nat.lt_log2_self
    have bound : magnitude.log2 < 53 := (Nat.log2_lt positive.ne').mpr below
    obtain ⟨shift, parts⟩ : ∃ shift, magnitude.log2 + shift = 52 :=
      ⟨52 - magnitude.log2, by omega⟩
    refine ⟨magnitude * 2 ^ shift, -shift, ⟨?_, by omega, by omega, .inl ?_⟩, ?_⟩
    · calc magnitude * 2 ^ shift < 2 ^ (magnitude.log2 + 1) * 2 ^ shift := by gcongr
        _ = 2 ^ 53 := by rw [← pow_add]; congr 1; omega
    · calc 2 ^ 52 = 2 ^ magnitude.log2 * 2 ^ shift := by rw [← pow_add, parts]
        _ ≤ magnitude * 2 ^ shift := by gcongr
    · rw [zpow_neg, zpow_natCast]
      push_cast
      field_simp
  · exact ⟨2 ^ 52, 1, by decide, by norm_num⟩

/-- An integer up to `2 ^ 53` is its own nearest number. -/
theorem toInt?_ofInt {integer : ℤ} (small : integer.natAbs ≤ 2 ^ 53) :
    (ofInt integer).isFinite ∧ (ofInt integer).toInt? = some integer := by
  rcases exists_canonical small with ⟨significand, exponent, canonical, value⟩
  have rounded : ofInt integer = .finite (decide (integer < 0)) significand exponent canonical :=
    round_eq_finite _ Nat.one_pos canonical (by simpa using value)
  have power := zpow_eq_pow_div_pow 2 (by decide) exponent
  have scaled : integer.natAbs * 2 ^ (-exponent).toNat = significand * 2 ^ exponent.toNat := by
    rw [Nat.cast_ofNat] at power
    rw [power, mul_div_assoc', eq_div_iff (by positivity)] at value
    exact_mod_cast value
  rw [rounded]
  refine ⟨rfl, toInt?_eq_some_iff.mpr ⟨_, _, rfl, Nat.pow_pos (by decide), ?_⟩⟩
  have magnitude : (significand : ℤ) * Nat.pow 2 exponent.toNat =
      integer.natAbs * Nat.pow 2 (-exponent).toNat := by
    exact_mod_cast scaled.symm
  rw [magnitude]
  rcases lt_or_ge integer 0 with negative | nonnegative
  · rw [if_pos (by simpa using negative), Int.natCast_natAbs, abs_of_neg negative,
      neg_mul, neg_neg]
  · rw [if_neg (by simpa using nonnegative), Int.natCast_natAbs, abs_of_nonneg nonnegative]

@[simp]
theorem toInt?_unsignedZero (number : Binary64) : number.unsignedZero.toInt? = number.toInt? := by
  by_cases isZero : number.isZero
  · have zero : (zero false).isZero := rfl
    rw [unsignedZero, if_pos isZero, toInt?_of_isZero zero, toInt?_of_isZero isZero]
  · rw [unsignedZero, if_neg isZero]

theorem isFinite_of_toInt? {number : Binary64} {integer : ℤ}
    (found : number.toInt? = some integer) :
    number.isFinite := by
  cases number with
  | finite => rfl
  | infinite negative => simp [toInt?, quotient?] at found
  | nan => simp [toInt?, quotient?] at found

end Binary64

namespace Number

/-- The integer that a number is, if it is one. -/
def whole? : Number → Option ℤ
  | .int integer => some integer
  | .float value => value.toInt?

/-- A number as it is compared: a whole one as an integer. -/
def byValue (number : Number) : Number :=
  (number.whole?.map Number.int).getD number

variable {number : Number} {integer : ℤ}

theorem byValue_of_whole? (whole : number.whole? = some integer) :
    number.byValue = .int integer := by
  rw [byValue, whole]
  rfl

/-- A small whole number is written as the binary64 number with its value. -/
theorem exists_float (whole : number.whole? = some integer) (small : integer.natAbs ≤ 2 ^ 53) :
    ∃ value : Binary64, value.toInt? = some integer ∧ number.toBinary64 = .ok value := by
  cases number with
  | float value => exact ⟨value, whole, rfl⟩
  | int held =>
      obtain rfl : held = integer := Option.some.inj whole
      rcases Binary64.toInt?_ofInt small with ⟨finite, toInt⟩
      refine ⟨Binary64.ofInt held, toInt, ?_⟩
      rw [toBinary64]
      split
      · next infinite => simp [infinite, Binary64.isFinite] at finite
      · rfl

theorem commandText_of_toBinary64 {value : Binary64} (same : number.toBinary64 = .ok value) :
    number.commandText = .ok (finiteText value) := by
  rw [commandText, same]
  rfl

/-- A small whole number is written as a binary64 number, which is read as a number with its
value. -/
theorem exists_finiteText (whole : number.whole? = some integer)
    (small : integer.natAbs ≤ 2 ^ 53) :
    ∃ value : Binary64, value.isFinite ∧ (Number.float value).whole? = some integer ∧
      number.commandText = .ok (finiteText value) ∧
        (Number.float value.unsignedZero).byValue = number.byValue := by
  rcases exists_float whole small with ⟨value, toInt, same⟩
  refine ⟨value, Binary64.isFinite_of_toInt? toInt, toInt, commandText_of_toBinary64 same, ?_⟩
  rw [byValue_of_whole? whole]
  exact byValue_of_whole? (by rw [whole?, Binary64.toInt?_unsignedZero, toInt])

theorem isPositive_of_whole? (whole : number.whole? = some integer) :
    number.isPositive = decide (0 < integer) := by
  cases number with
  | int held =>
      obtain rfl : held = integer := Option.some.inj whole
      simp [isPositive, isAbove]
  | float value =>
      rcases Binary64.toInt?_eq_some_iff.mp whole with
        ⟨numerator, denominator, quotient, positive, rfl⟩
      have above : value.isAbove 0 1 = decide (0 < integer * denominator) := by
        cases value <;> simp_all [Binary64.isAbove, Binary64.quotient?]
      rw [isPositive, isAbove, above, decide_eq_decide]
      exact mul_pos_iff_of_pos_right (by exact_mod_cast positive)

theorem isBelow_of_whole? (whole : number.whole? = some integer) :
    number.isBelow 0 1 = decide (integer < 0) := by
  cases number with
  | int held =>
      obtain rfl : held = integer := Option.some.inj whole
      simp [isBelow]
  | float value =>
      rcases Binary64.toInt?_eq_some_iff.mp whole with
        ⟨numerator, denominator, quotient, positive, rfl⟩
      have below : value.isBelow 0 1 = decide (integer * denominator < 0) := by
        cases value <;> simp_all [Binary64.isBelow, Binary64.quotient?]
      rw [isBelow, below, decide_eq_decide, ← not_le, ← not_le]
      exact not_congr (mul_nonneg_iff_of_pos_right (by exact_mod_cast positive))

end Number

end Retouch
