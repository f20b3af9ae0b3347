import Retouch.Number.Decimal
import Retouch.Proofs.Number.Rounding

/-!
# Values of decimals

Reading a decimal depends on its value only. The shortest decimal of a number reads back as the
number, also without the zeros at its end.
-/

namespace Retouch.Decimal

/-- The rational number that a decimal stands for. -/
def value (decimal : Decimal) : ℚ :=
  decimal.units * 10 ^ decimal.exponent

theorem value_pos {decimal : Decimal} (units_pos : 0 < decimal.units) : 0 < decimal.value := by
  have units_pos' : (0 : ℚ) < decimal.units := by exact_mod_cast units_pos
  unfold value
  positivity

theorem units_pos_of_value_pos {decimal : Decimal} (value_pos : 0 < decimal.value) :
    0 < decimal.units := by
  by_contra none
  have zero : decimal.units = 0 := by omega
  simp [value, zero] at value_pos

theorem value_eq_div (decimal : Decimal) :
    decimal.value = ((decimal.units * 10 ^ decimal.exponent.toNat : ℕ) : ℚ) /
      (10 ^ (-decimal.exponent).toNat : ℕ) := by
  have power := Binary64.zpow_eq_pow_div_pow 10 (by decide) decimal.exponent
  rw [Nat.cast_ofNat] at power
  rw [value, power, mul_div_assoc']
  push_cast
  rfl

/-- The place of the first digit is the logarithm of the value. -/
theorem digitCount_add_exponent {decimal : Decimal} (units_pos : 0 < decimal.units) :
    (digitCount decimal.units : ℤ) + decimal.exponent = Int.log 10 decimal.value + 1 := by
  have count_pos : 0 < digitCount decimal.units := Nat.length_toDigits_pos
  have upper : decimal.units < 10 ^ digitCount decimal.units :=
    (Nat.length_toDigits_le_iff (by decide) count_pos).mp le_rfl
  have lower : 10 ^ (digitCount decimal.units - 1) ≤ decimal.units := by
    rcases Nat.eq_zero_or_pos (digitCount decimal.units - 1) with one | more
    · rw [one]
      exact units_pos
    · by_contra less
      have short : digitCount decimal.units ≤ digitCount decimal.units - 1 :=
        (Nat.length_toDigits_le_iff (by decide) more).mpr (not_le.mp less)
      omega
  have scaled (count : ℤ) :
      ((10 : ℕ) : ℚ) ^ (count + decimal.exponent) = 10 ^ count * 10 ^ decimal.exponent := by
    rw [Nat.cast_ofNat, zpow_add₀ (by norm_num)]
  have above : (digitCount decimal.units : ℤ) - 1 + decimal.exponent ≤
      Int.log 10 decimal.value := by
    rw [← Int.zpow_le_iff_le_log (by decide) (value_pos units_pos), scaled, value]
    have lower' : (10 : ℚ) ^ ((digitCount decimal.units : ℤ) - 1) ≤ decimal.units := by
      have cast : ((digitCount decimal.units : ℤ) - 1) =
          ((digitCount decimal.units - 1 : ℕ) : ℤ) := by
        omega
      rw [cast, zpow_natCast]
      exact_mod_cast lower
    gcongr
  have below : Int.log 10 decimal.value < digitCount decimal.units + decimal.exponent := by
    rw [← Int.lt_zpow_iff_log_lt (by decide) (value_pos units_pos), scaled, value]
    have upper' : (decimal.units : ℚ) < 10 ^ (digitCount decimal.units : ℤ) := by
      rw [zpow_natCast]
      exact_mod_cast upper
    gcongr
  omega

/-- Decimals of one value read as one number. -/
theorem toBinary64_congr {decimal other : Decimal} (negative : Bool)
    (same : decimal.value = other.value) :
    decimal.toBinary64 negative = other.toBinary64 negative := by
  rcases Nat.eq_zero_or_pos decimal.units with zero | units_pos
  · have otherZero : other.units = 0 := by
      by_contra units_ne
      have other_pos := value_pos (Nat.pos_of_ne_zero units_ne)
      rw [← same, value, zero] at other_pos
      simp at other_pos
    simp [toBinary64, zero, otherZero]
  · have otherPos : 0 < other.units := units_pos_of_value_pos (same ▸ value_pos units_pos)
    have rounded := Binary64.round_congr negative (by positivity) (by positivity)
      (decimal.value_eq_div.symm.trans (same.trans other.value_eq_div))
    simp only [toBinary64, Nat.pow_eq, units_pos.ne', otherPos.ne', if_false,
      digitCount_add_exponent units_pos, digitCount_add_exponent otherPos, same, rounded]

theorem withSign_toBinary64 (decimal : Decimal) (negative : Bool) :
    (decimal.toBinary64 false).withSign negative = decimal.toBinary64 negative := by
  unfold toBinary64
  split
  · rfl
  · dsimp only
    split
    · rfl
    · split
      · rfl
      · exact Binary64.withSign_round _ _ _

theorem two_pow_le_ten_pow {binary decimal : ℕ}
    (le : Nat.ble (2 ^ binary) (10 ^ decimal) = true) :
    (2 : ℚ) ^ binary ≤ 10 ^ decimal := by
  have cast : ((2 ^ binary : ℕ) : ℚ) ≤ (10 ^ decimal : ℕ) :=
    Nat.cast_le.mpr (Nat.le_of_ble_eq_true le)
  simpa using cast

/-- A decimal whose value a canonical form stands for reads as that form. -/
theorem toBinary64_eq_finite {decimal : Decimal} {significand : ℕ} {exponent : ℤ}
    (negative : Bool) (canonical : Binary64.Canonical significand exponent)
    (same : decimal.value = significand * 2 ^ exponent) :
    decimal.toBinary64 negative = .finite negative significand exponent canonical := by
  have rounded := Binary64.round_eq_finite negative (by positivity) canonical
    (decimal.value_eq_div.symm.trans same)
  rcases Nat.eq_zero_or_pos decimal.units with zero | units_pos
  · rw [← rounded]
    simp [toBinary64, Binary64.round, zero]
  · have decimal_pos := value_pos units_pos
    have significand_pos : (0 : ℚ) < significand := by
      rw [same] at decimal_pos
      exact (pos_iff_pos_of_mul_pos decimal_pos).mpr (by positivity)
    -- Decimals beyond certain powers of ten are read without rounding; a canonical form is never
    -- among them.
    have notSmall : -331 ≤ Int.log 10 decimal.value := by
      rw [← Int.zpow_le_iff_le_log (by decide) decimal_pos, same]
      have one_le : (1 : ℚ) ≤ significand := by exact_mod_cast significand_pos
      have powers : (2 : ℚ) ^ 1074 ≤ 10 ^ 331 := two_pow_le_ten_pow (by decide +kernel)
      calc ((10 : ℕ) : ℚ) ^ (-331 : ℤ)
        _ = (10 ^ 331)⁻¹ := by rw [zpow_neg, Nat.cast_ofNat, zpow_ofNat]
        _ ≤ (2 ^ 1074)⁻¹ := inv_anti₀ (by positivity) powers
        _ = 1 * 2 ^ (-1074 : ℤ) := by rw [one_mul, zpow_neg, zpow_ofNat]
        _ ≤ significand * 2 ^ exponent :=
          mul_le_mul one_le (zpow_le_zpow_right₀ one_le_two canonical.2.1) (by positivity)
            significand_pos.le
    have notLarge : Int.log 10 decimal.value < 310 := by
      rw [← Int.lt_zpow_iff_log_lt (by decide) decimal_pos, same]
      have fits : (significand : ℚ) < 2 ^ (53 : ℤ) := by exact_mod_cast canonical.1
      have powers : (2 : ℚ) ^ 1024 ≤ 10 ^ 310 := two_pow_le_ten_pow (by decide +kernel)
      calc (significand : ℚ) * 2 ^ exponent
        _ < 2 ^ (53 : ℤ) * 2 ^ exponent := by gcongr
        _ ≤ 2 ^ (53 : ℤ) * 2 ^ (971 : ℤ) :=
          mul_le_mul_of_nonneg_left (zpow_le_zpow_right₀ one_le_two canonical.2.2.1)
            (by positivity)
        _ = 2 ^ 1024 := by rw [zpow_ofNat, zpow_ofNat, ← pow_add]
        _ ≤ 10 ^ 310 := powers
        _ = ((10 : ℕ) : ℚ) ^ (310 : ℤ) := by rw [Nat.cast_ofNat, zpow_ofNat]
    simp only [toBinary64, Nat.pow_eq, units_pos.ne', if_false, digitCount_add_exponent units_pos]
    rw [if_neg (by omega), if_neg (by omega), rounded]

theorem value_withoutTrailingZeros (decimal : Decimal) :
    decimal.withoutTrailingZeros.value = decimal.value := by
  induction decimal using withoutTrailingZeros.induct with
  | case1 decimal zero => simp [withoutTrailingZeros, zero, value]
  | case2 decimal nonzero divisible ih =>
      rw [withoutTrailingZeros, if_neg nonzero, if_pos divisible, ih]
      have units : (decimal.units : ℚ) = (decimal.units / 10 : ℕ) * 10 := by
        exact_mod_cast (Nat.div_mul_cancel (Nat.dvd_of_mod_eq_zero divisible)).symm
      rw [value, value, units, zpow_add₀ (by norm_num), zpow_one]
      ring
  | case3 decimal nonzero indivisible =>
      rw [withoutTrailingZeros, if_neg nonzero, if_neg indivisible]

theorem value_exact (significand : ℕ) (exponent : ℤ) :
    (exact significand exponent).value = significand * 2 ^ exponent := by
  simp only [value, exact, Nat.pow_eq]
  have two := Binary64.zpow_eq_pow_div_pow 2 (by decide) exponent
  rw [Nat.cast_ofNat] at two
  rcases le_or_gt 0 exponent with nonneg | negative
  · have none : (-exponent).toNat = 0 := by omega
    rw [min_eq_right nonneg, two, none]
    push_cast
    ring
  · have none : exponent.toNat = 0 := by omega
    have ten := Binary64.zpow_eq_pow_div_pow 10 (by decide) exponent
    rw [Nat.cast_ofNat] at ten
    have split : (10 : ℚ) ^ (-exponent).toNat =
        2 ^ (-exponent).toNat * 5 ^ (-exponent).toNat := by
      rw [← mul_pow]
      norm_num
    rw [min_eq_left negative.le, two, ten, none, split]
    push_cast
    field_simp

/-- The shortest decimal reads back as the number that it was made from. -/
theorem toBinary64_shortest {significand : ℕ} {exponent : ℤ}
    (canonical : Binary64.Canonical significand exponent) (negative : Bool) :
    (shortest significand exponent).toBinary64 negative =
      .finite negative significand exponent canonical := by
  have number : Binary64.ofForm false significand exponent =
      .finite false significand exponent canonical := by
    rw [Binary64.ofForm, dif_pos canonical]
  rw [← withSign_toBinary64]
  unfold shortest
  simp only [number]
  cases found : List.find? _ _ with
  | none =>
      rw [Option.getD_none, toBinary64_eq_finite false canonical (value_exact significand exponent)]
      rfl
  | some decimal =>
      have reads := List.find?_some found
      rw [decide_eq_true_eq] at reads
      rw [Option.getD_some, reads]
      rfl

end Retouch.Decimal
