import Mathlib.Algebra.Order.Field.Power
import Mathlib.Algebra.Order.Ring.Rat
import Mathlib.Data.Int.Log
import Mathlib.Data.Rat.Floor
import Mathlib.Tactic.FieldSimp
import Mathlib.Tactic.NormNum
import Mathlib.Tactic.Positivity
import Mathlib.Tactic.Ring
import Retouch.Number.Binary64

/-!
# Rounding depends on the value only

A quotient is rounded at an exponent that its binary logarithm determines, and rounding a scaled
quotient to an integer does not see how the quotient is written. So two ways of writing one rational
number are rounded alike, and a number that a canonical form stands for is rounded to that form.
-/

namespace Retouch.Binary64

theorem zpow_eq_pow_div_pow (base : ℕ) (base_pos : 0 < base) (exponent : ℤ) :
    (base : ℚ) ^ exponent = base ^ exponent.toNat / base ^ (-exponent).toNat := by
  have base_ne : (base : ℚ) ≠ 0 := by exact_mod_cast base_pos.ne'
  rw [← zpow_natCast, ← zpow_natCast, ← zpow_sub₀ base_ne]
  congr 1
  omega

theorem scale_value (numerator denominator : ℕ) (exponent : ℤ) :
    ((scale numerator denominator exponent).1 : ℚ) / (scale numerator denominator exponent).2 =
      numerator / denominator * 2 ^ (-exponent) := by
  have power := zpow_eq_pow_div_pow 2 (by decide) (-exponent)
  rw [neg_neg] at power
  simp only [scale, Nat.pow_eq, Nat.cast_mul, Nat.cast_pow, Nat.cast_ofNat] at power ⊢
  rw [power, div_mul_div_comm]

theorem scale_denominator_pos (numerator : ℕ) {denominator : ℕ}
    (denominator_pos : 0 < denominator)
    (exponent : ℤ) : 0 < (scale numerator denominator exponent).2 :=
  Nat.mul_pos denominator_pos (Nat.pow_pos (by decide))

/-- The logarithm of a quotient is the difference of the logarithms, or one less. -/
theorem log_div_bounds {numerator denominator : ℕ} (numerator_pos : 0 < numerator)
    (denominator_pos : 0 < denominator) :
    (numerator.log2 : ℤ) - denominator.log2 - 1 ≤
      Int.log 2 ((numerator : ℚ) / denominator) ∧
      Int.log 2 ((numerator : ℚ) / denominator) ≤
        (numerator.log2 : ℤ) - denominator.log2 := by
  have denominator_pos' : (0 : ℚ) < denominator := by exact_mod_cast denominator_pos
  have quotient_pos : (0 : ℚ) < numerator / denominator := by positivity
  have two_ne : (2 : ℚ) ≠ 0 := by norm_num
  constructor
  · rw [← Int.zpow_le_iff_le_log (by decide) quotient_pos, le_div_iff₀ denominator_pos']
    have below : (2 : ℚ) ^ numerator.log2 ≤ numerator := by
      exact_mod_cast Nat.log2_self_le numerator_pos.ne'
    have above : (denominator : ℚ) ≤ 2 ^ (denominator.log2 + 1) := by
      exact_mod_cast Nat.lt_log2_self.le
    have power : ((2 : ℕ) : ℚ) ^ ((numerator.log2 : ℤ) - denominator.log2 - 1) *
        2 ^ (denominator.log2 + 1) = 2 ^ numerator.log2 := by
      rw [Nat.cast_ofNat, ← zpow_natCast, ← zpow_natCast, ← zpow_add₀ two_ne]
      congr 1
      push_cast
      ring
    calc ((2 : ℕ) : ℚ) ^ ((numerator.log2 : ℤ) - denominator.log2 - 1) * denominator
      _ ≤ ((2 : ℕ) : ℚ) ^ ((numerator.log2 : ℤ) - denominator.log2 - 1) *
            2 ^ (denominator.log2 + 1) := by gcongr
      _ ≤ numerator := power ▸ below
  · rw [← Int.lt_add_one_iff, ← Int.lt_zpow_iff_log_lt (by decide) quotient_pos,
      div_lt_iff₀ denominator_pos']
    have above : (numerator : ℚ) < 2 ^ (numerator.log2 + 1) := by
      exact_mod_cast Nat.lt_log2_self
    have below : (2 : ℚ) ^ denominator.log2 ≤ denominator := by
      exact_mod_cast Nat.log2_self_le denominator_pos.ne'
    have power : ((2 : ℕ) : ℚ) ^ ((numerator.log2 : ℤ) - denominator.log2 + 1) *
        2 ^ denominator.log2 = 2 ^ (numerator.log2 + 1) := by
      rw [Nat.cast_ofNat, ← zpow_natCast, ← zpow_natCast, ← zpow_add₀ two_ne]
      congr 1
      push_cast
      ring
    calc (numerator : ℚ)
      _ < 2 ^ (numerator.log2 + 1) := above
      _ ≤ ((2 : ℕ) : ℚ) ^ ((numerator.log2 : ℤ) - denominator.log2 + 1) * denominator := by
        rw [← power]
        gcongr

/-- A quotient is rounded at the exponent that its logarithm leaves to 53 bits. -/
theorem exponentOf_eq {numerator denominator : ℕ} (numerator_pos : 0 < numerator)
    (denominator_pos : 0 < denominator) :
    exponentOf numerator denominator =
      max (-1074) (Int.log 2 ((numerator : ℚ) / denominator) - 52) := by
  obtain ⟨lower, upper⟩ := log_div_bounds numerator_pos denominator_pos
  have denominator_pos' : (0 : ℚ) < denominator := by exact_mod_cast denominator_pos
  have quotient_pos : (0 : ℚ) < numerator / denominator := by positivity
  set guess : ℤ := (numerator.log2 : ℤ) - denominator.log2 - 52 with guess_eq
  have enough : 2 ^ 52 * (scale numerator denominator guess).2 ≤
      (scale numerator denominator guess).1 ↔
      guess + 52 ≤ Int.log 2 ((numerator : ℚ) / denominator) := by
    have scaled_pos : (0 : ℚ) < (scale numerator denominator guess).2 := by
      exact_mod_cast scale_denominator_pos _ denominator_pos guess
    rw [← Int.zpow_le_iff_le_log (by decide) quotient_pos, ← Nat.cast_le (α := ℚ),
      Nat.cast_mul, ← le_div_iff₀ scaled_pos, scale_value, zpow_neg, ← div_eq_mul_inv,
      le_div_iff₀ (by positivity), Nat.cast_pow, Nat.cast_ofNat, ← zpow_natCast,
      ← zpow_add₀ (by norm_num), Int.add_comm]
    rfl
  rw [exponentOf]
  simp only [← guess_eq]
  split
  · next holds =>
      have := enough.mp holds
      omega
  · next fails =>
      have := mt enough.mpr fails
      omega

/-- Rounding to an integer depends on the quotient only. -/
theorem divNearest_congr {numerator denominator numerator' denominator' : ℕ}
    (denominator_pos : 0 < denominator) (denominator_pos' : 0 < denominator')
    (same : numerator * denominator' = numerator' * denominator) :
    divNearest numerator denominator = divNearest numerator' denominator' := by
  have scaled (numerator denominator factor : ℕ) (factor_pos : 0 < factor) :
      divNearest (numerator * factor) (denominator * factor) =
          divNearest numerator denominator := by
    have less (left right : ℕ) : 2 * (left * factor) < right * factor ↔ 2 * left < right := by
      rw [← mul_assoc, Nat.mul_lt_mul_right factor_pos]
    have greater (left right : ℕ) : right * factor < 2 * (left * factor) ↔
        right < 2 * left := by
      rw [← mul_assoc, Nat.mul_lt_mul_right factor_pos]
    simp only [divNearest, Nat.mul_div_mul_right _ _ factor_pos, Nat.mul_mod_mul_right,
      less, greater]
  rw [← scaled numerator denominator denominator' denominator_pos', same, mul_comm denominator,
    scaled numerator' denominator' denominator denominator_pos]

/-- Quotients of one value are rounded alike. -/
theorem round_congr {numerator denominator numerator' denominator' : ℕ} (negative : Bool)
    (denominator_pos : 0 < denominator) (denominator_pos' : 0 < denominator')
    (same : (numerator : ℚ) / denominator = numerator' / denominator') :
    round negative numerator denominator = round negative numerator' denominator' := by
  have denominator_ne : (denominator : ℚ) ≠ 0 := by exact_mod_cast denominator_pos.ne'
  have denominator_ne' : (denominator' : ℚ) ≠ 0 := by exact_mod_cast denominator_pos'.ne'
  have cross : numerator * denominator' = numerator' * denominator := by
    have := (div_eq_div_iff denominator_ne denominator_ne').mp same
    exact_mod_cast this
  rcases Nat.eq_zero_or_pos numerator with rfl | numerator_pos
  · have zero : numerator' = 0 := by
      simpa [denominator_pos.ne'] using cross.symm
    simp [round, zero]
  have numerator_pos' : 0 < numerator' :=
    Nat.pos_of_mul_pos_right (cross ▸ Nat.mul_pos numerator_pos denominator_pos')
  have exponents : exponentOf numerator denominator = exponentOf numerator' denominator' := by
    rw [exponentOf_eq numerator_pos denominator_pos,
      exponentOf_eq numerator_pos' denominator_pos', same]
  have significands (exponent : ℤ) :
      divNearest (scale numerator denominator exponent).1 (scale numerator denominator exponent).2 =
        divNearest (scale numerator' denominator' exponent).1
          (scale numerator' denominator' exponent).2 := by
    refine divNearest_congr (scale_denominator_pos _ denominator_pos _)
      (scale_denominator_pos _ denominator_pos' _) ?_
    simp only [scale]
    calc numerator * 2 ^ (-exponent).toNat * (denominator' * 2 ^ exponent.toNat)
      _ = numerator * denominator' * (2 ^ (-exponent).toNat * 2 ^ exponent.toNat) := by ring
      _ = numerator' * 2 ^ (-exponent).toNat * (denominator * 2 ^ exponent.toNat) := by
        rw [cross]
        ring
  simp only [round, numerator_pos.ne', numerator_pos'.ne', if_false, exponents, significands]

def withSign (negative : Bool) : Binary64 → Binary64
  | .finite _ significand exponent canonical => .finite negative significand exponent canonical
  | .infinite _ => .infinite negative
  | .nan => .nan

theorem withSign_ofForm (negative : Bool) (significand : ℕ) (exponent : ℤ) :
    (ofForm false significand exponent).withSign negative =
      ofForm negative significand exponent := by
  unfold ofForm
  split <;> rfl

theorem withSign_round (negative : Bool) (numerator denominator : ℕ) :
    (round false numerator denominator).withSign negative =
      round negative numerator denominator := by
  unfold round
  split
  · rfl
  · dsimp only
    split <;> exact withSign_ofForm _ _ _

/-- The logarithm of a canonical form that is not zero gives its exponent back. -/
theorem Canonical.exponent_eq {significand : ℕ} {exponent : ℤ}
    (canonical : Canonical significand exponent) (significand_pos : 0 < significand) :
    max (-1074) (Int.log 2 ((significand : ℚ) * 2 ^ exponent) - 52) = exponent := by
  obtain ⟨fits, least, -, full⟩ := canonical
  have significand_pos' : (0 : ℚ) < significand := by exact_mod_cast significand_pos
  have value_pos : (0 : ℚ) < significand * 2 ^ exponent := by positivity
  have below : Int.log 2 ((significand : ℚ) * 2 ^ exponent) < exponent + 53 := by
    rw [← Int.lt_zpow_iff_log_lt (by decide) value_pos, Nat.cast_ofNat, add_comm,
      zpow_add₀ (by norm_num)]
    have fits' : (significand : ℚ) < 2 ^ (53 : ℤ) := by exact_mod_cast fits
    gcongr
  rcases full with full | rfl
  · have above : exponent + 52 ≤ Int.log 2 ((significand : ℚ) * 2 ^ exponent) := by
      rw [← Int.zpow_le_iff_le_log (by decide) value_pos, Nat.cast_ofNat, add_comm,
        zpow_add₀ (by norm_num)]
      have full' : (2 : ℚ) ^ (52 : ℤ) ≤ significand := by exact_mod_cast full
      gcongr
    omega
  · omega

/-- A number is rounded to its canonical form. -/
theorem round_eq_finite {numerator denominator significand : ℕ} {exponent : ℤ} (negative : Bool)
    (denominator_pos : 0 < denominator) (canonical : Canonical significand exponent)
    (same : (numerator : ℚ) / denominator = significand * 2 ^ exponent) :
    round negative numerator denominator = .finite negative significand exponent canonical := by
  rcases Nat.eq_zero_or_pos significand with rfl | significand_pos
  · obtain ⟨-, -, -, full | rfl⟩ := canonical
    · simp at full
    · have denominator_ne : (denominator : ℚ) ≠ 0 := by exact_mod_cast denominator_pos.ne'
      have zero : numerator = 0 := by simpa [denominator_ne] using same
      simp [round, zero, Binary64.zero]
  have significand_pos' : (0 : ℚ) < significand := by exact_mod_cast significand_pos
  have denominator_pos' : (0 : ℚ) < denominator := by exact_mod_cast denominator_pos
  have numerator_pos : 0 < numerator := by
    have value_pos : (0 : ℚ) < numerator / denominator := by
      rw [same]
      positivity
    have := (div_pos_iff_of_pos_right denominator_pos').mp value_pos
    exact_mod_cast this
  have exponents : exponentOf numerator denominator = exponent := by
    rw [exponentOf_eq numerator_pos denominator_pos, same, canonical.exponent_eq significand_pos]
  have significands : divNearest (scale numerator denominator exponent).1
      (scale numerator denominator exponent).2 = significand := by
    have scaled_pos := scale_denominator_pos numerator denominator_pos exponent
    have scaled_ne : ((scale numerator denominator exponent).2 : ℚ) ≠ 0 := by
      exact_mod_cast scaled_pos.ne'
    have exact : (scale numerator denominator exponent).1 =
        significand * (scale numerator denominator exponent).2 := by
      have value := scale_value numerator denominator exponent
      rw [same, mul_assoc, ← zpow_add₀ (by norm_num), add_neg_cancel, zpow_zero, mul_one,
        div_eq_iff scaled_ne] at value
      exact_mod_cast value
    rw [exact]
    simp [divNearest, Nat.mul_div_cancel _ scaled_pos, scaled_pos]
  -- A canonical significand has 53 bits at most, so nothing was carried.
  have notCarried : significand ≠ Nat.pow 2 53 := canonical.1.ne
  simp only [round, numerator_pos.ne', if_false, exponents, significands, notCarried,
    ofForm, canonical, dif_pos]

end Retouch.Binary64
