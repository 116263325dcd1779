import BooleanQuery.Proofs.Binary.Neighbours
import BooleanQuery.Proofs.Decimal.Multipliers

/-!
# The double word of a literal

Digits that make up an integer of 53 bits are kept as they are, and one product or quotient is
rounded, that with the rounded power of ten.
-/

namespace BooleanQuery.Json

open Binary (Format Word)
open Decimal (multiplier)

/-- An integer of 53 bits has a double word of its own, so it is not rounded. -/
theorem value_of_isNearest_of_le {number word : Nat} (bounded : number ≤ 2 ^ 53)
    (nearest : Format.double.IsNearest number word) : Format.double.value word = number := by
  have unit : 2 * Format.double.unit = 2 ^ 53 := by decide
  have finite : (number : ℚ) * 2 ^ (0 : Int) ≤ Format.double.value Format.double.infinity := by
    have below : (number : ℚ) ≤ 2 ^ 53 := by exact_mod_cast bounded
    rw [Binary.value_infinity_double, zpow_zero, mul_one]
    calc (number : ℚ) ≤ 2 ^ 53 := below
      _ = (2 ^ 52 : Nat) * 2 ^ (1 : Int) := by norm_num
      _ ≤ (2 ^ 52 : Nat) * 2 ^ (972 : Int) := by gcongr <;> decide
  obtain ⟨code, within, same⟩ := Format.exists_code (bounded.trans_eq unit.symm) (by decide) finite
  rw [zpow_zero, mul_one] at same
  rw [nearest.eq_of_value_eq within same, same]

/-- A rounded power of ten is not zero. -/
theorem tenPower_pos (exponent : Nat) : 0 < (tenPower exponent).magnitude := by
  have nearest : Format.double.IsNearest (((10 ^ exponent : Nat) : ℚ) / (1 : Nat))
      (tenPower exponent).magnitude :=
    Format.double.isNearest_nearest (by decide) Nat.one_pos
  have least : Format.double.value 1 ≤ 1 := by
    have exponent : Format.double.leastExponent ≤ 0 := by decide
    rw [Format.value_of_lt_unit _ (by decide), Nat.cast_one, one_mul]
    exact zpow_le_one_of_nonpos₀ one_le_two exponent
  have atLeastOne : (1 : ℚ) ≤ (10 ^ exponent : Nat) := by exact_mod_cast Nat.one_le_pow' exponent 9
  refine nearest.gt_of_gt_middle (by decide) Nat.one_pos ?_
  rw [Format.value_zero, Nat.cast_one, div_one]
  linarith

/-- An integer of 53 bits times a power of ten is the nearest double word to the product with the
rounded power. -/
theorem exists_scaled {significand : Nat} {exponent : Int} (bounded : significand ≤ 2 ^ 53)
    (low : -greatestTenPower ≤ exponent) (high : exponent ≤ greatestTenPower) (negative : Bool) :
    ∃ product : Double, product.negative = negative ∧
      Format.double.IsNearest (significand * multiplier exponent) product.magnitude ∧
      (product.isFinite = true → scaled negative significand exponent = some product) := by
  have exact : Format.double.value (Word.nearest negative significand 1 : Double).magnitude =
      significand := by
    have nearest : Format.double.IsNearest ((significand : ℚ) / (1 : Nat))
        (Word.nearest negative significand 1 : Double).magnitude :=
      Format.double.isNearest_nearest (by decide) Nat.one_pos
    rw [Nat.cast_one, div_one] at nearest
    exact value_of_isNearest_of_le bounded nearest
  have within : exponent.natAbs ≤ greatestTenPower := by omega
  unfold scaled multiplier
  dsimp only
  split
  · refine ⟨Word.quotient (.nearest negative significand 1) (tenPower exponent.natAbs),
      by cases negative <;> rfl, ?_, fun _ => ?_⟩
    · rw [← exact, ← div_eq_mul_inv]
      exact Word.isNearest_quotient (by decide) _ (Word.ratio_pos (tenPower_pos _))
    · rw [scaleDown, if_pos within]
  · have sign : exponent.toNat = exponent.natAbs := by omega
    refine ⟨Word.product (.nearest negative significand 1) (tenPower exponent.natAbs),
      by cases negative <;> rfl, ?_, fun finite => ?_⟩
    · rw [← exact]
      exact Word.isNearest_product (by decide) _ _
    · rw [scaleUp, sign, if_pos within]
      exact if_pos finite

end BooleanQuery.Json
