import Mathlib.Tactic.LinearCombination
import BooleanQuery.Decimal.Shortest
import BooleanQuery.Json.Number
import BooleanQuery.Proofs.Binary.Rounding

/-!
# Rounded powers of ten

A decimal is read as its digits times a power of ten that has itself been rounded. This does no
harm as long as no multiple of the power comes so near to the middle between two weights that
rounding takes it across. Such a middle is a whole number of some power of two, with a bound on
its size, and the question is how near the multiples of one ratio come to whole numbers.

Two neighbouring fractions around the ratio answer it: every fraction with a numerator below the
sum of theirs is outside of them, so it is at least as far from the ratio as they are. For each
exponent such fractions are found and checked by computation.
-/

namespace BooleanQuery.Decimal

open Binary (Format floorLog2)
open Json (tenPower)

/-- Middles between weights are fewer than this many units of some power of two. -/
def wholeLimit : Nat := 2 ^ 25

/-- How far rounding once more, to 53 bits, may move a number that is next to a middle. -/
def margin : ℚ := 1 / 2 ^ 29

/-- The multiples of a rounded factor are on the same side of whole numbers as those of the exact
one, and off them by more than the margin. -/
structure KeepsSides (exact rounded : ℚ) : Prop where
  close : |rounded - exact| ≤ exact / 2 ^ 52
  /-- The factor is not next to the end of its binade. -/
  room : exact ≤ 2 - 1 / 2 ^ 20
  sides : ∀ multiple whole : Nat, 0 < multiple → whole < wholeLimit →
    multiple * exact = whole ∧ rounded = exact ∨
      multiple * exact < whole ∧ multiple * rounded + margin < whole ∨
      whole < multiple * exact ∧ whole + margin < multiple * rounded

section Brackets

/-- Two neighbouring fractions. -/
structure Bracket where
  lower : Nat
  lowerParts : Nat
  upper : Nat
  upperParts : Nat
  adjacent : upper * lowerParts = lower * upperParts + 1

namespace Bracket

/-- The bracket around everything between one and two. -/
def oneTwo : Bracket := ⟨1, 1, 2, 1, rfl⟩

/-- The lower fraction is replaced by the mediant. -/
def raised (bracket : Bracket) : Bracket where
  lower := bracket.lower + bracket.upper
  lowerParts := bracket.lowerParts + bracket.upperParts
  upper := bracket.upper
  upperParts := bracket.upperParts
  adjacent := by
    rw [Nat.mul_add, Nat.add_mul, bracket.adjacent]
    omega

/-- The upper fraction is replaced by the mediant. -/
def lowered (bracket : Bracket) : Bracket where
  lower := bracket.lower
  lowerParts := bracket.lowerParts
  upper := bracket.lower + bracket.upper
  upperParts := bracket.lowerParts + bracket.upperParts
  adjacent := by
    rw [Nat.mul_add, Nat.add_mul, bracket.adjacent]
    omega

/-- Narrow a bracket around a ratio until the numerators reach the limit. -/
def narrow (numerator denominator : Nat) : Nat → Bracket → Bracket
  | 0, bracket => bracket
  | steps + 1, bracket =>
      if wholeLimit ≤ bracket.lower + bracket.upper then bracket
      else if (bracket.lower + bracket.upper) * denominator <
          numerator * (bracket.lowerParts + bracket.upperParts) then
        narrow numerator denominator steps bracket.raised
      else narrow numerator denominator steps bracket.lowered

/-- What makes a bracket a proof that a factor may be rounded. -/
structure Certifies (bracket : Bracket) (exact rounded : ℚ) : Prop where
  wide : wholeLimit ≤ bracket.lower + bracket.upper
  above : bracket.lower < bracket.lowerParts * exact
  below : bracket.upperParts * exact < bracket.upper
  farAbove : bracket.lower + margin < bracket.lowerParts * rounded
  farBelow : bracket.upperParts * rounded + margin < bracket.upper

instance (bracket : Bracket) (exact rounded : ℚ) :
    Decidable (bracket.Certifies exact rounded) :=
  decidable_of_iff
    (wholeLimit ≤ bracket.lower + bracket.upper ∧
      bracket.lower < bracket.lowerParts * exact ∧ bracket.upperParts * exact < bracket.upper ∧
      bracket.lower + margin < bracket.lowerParts * rounded ∧
      bracket.upperParts * rounded + margin < bracket.upper)
    ⟨fun ⟨wide, above, below, farAbove, farBelow⟩ => ⟨wide, above, below, farAbove, farBelow⟩,
      fun ⟨wide, above, below, farAbove, farBelow⟩ => ⟨wide, above, below, farAbove, farBelow⟩⟩

/-- Every fraction is combined from those of a bracket. One whose numerator is below the sum of
theirs is not inside, so one of the two takes part with a negative sign, or not at all. -/
theorem exists_combination (bracket : Bracket) {multiple whole : Nat} (positive : 0 < multiple)
    (bounded : whole < bracket.lower + bracket.upper) :
    ∃ fromLower fromUpper : Int,
      (whole : Int) = bracket.lower * fromLower + bracket.upper * fromUpper ∧
      (multiple : Int) = bracket.lowerParts * fromLower + bracket.upperParts * fromUpper ∧
      (fromLower ≤ 0 ∧ 0 < fromUpper ∨ 0 < fromLower ∧ fromUpper ≤ 0) := by
  obtain ⟨lower, lowerParts, upper, upperParts, adjacent⟩ := bracket
  dsimp only at bounded ⊢
  have determinant : (upper : Int) * lowerParts = lower * upperParts + 1 := by
    exact_mod_cast adjacent
  obtain ⟨fromLower, fromUpper, wholeEq, multipleEq⟩ : ∃ fromLower fromUpper : Int,
      (whole : Int) = lower * fromLower + upper * fromUpper ∧
      (multiple : Int) = lowerParts * fromLower + upperParts * fromUpper :=
    ⟨upper * multiple - whole * upperParts, whole * lowerParts - lower * multiple,
      by linear_combination -(whole : Int) * determinant,
      by linear_combination -(multiple : Int) * determinant⟩
  refine ⟨fromLower, fromUpper, wholeEq, multipleEq, ?_⟩
  rcases le_or_gt fromLower 0 with noLower | someLower
  · refine .inl ⟨noLower, ?_⟩
    by_contra! noUpper
    have lowerPart : (lowerParts : Int) * fromLower ≤ 0 :=
      mul_nonpos_of_nonneg_of_nonpos (Int.natCast_nonneg _) noLower
    have upperPart : (upperParts : Int) * fromUpper ≤ 0 :=
      mul_nonpos_of_nonneg_of_nonpos (Int.natCast_nonneg _) noUpper
    omega
  · refine .inr ⟨someLower, ?_⟩
    by_contra! someUpper
    have lowerPart : (lower : Int) * 1 ≤ lower * fromLower :=
      mul_le_mul_of_nonneg_left someLower (Int.natCast_nonneg _)
    have upperPart : (upper : Int) * 1 ≤ upper * fromUpper :=
      mul_le_mul_of_nonneg_left someUpper (Int.natCast_nonneg _)
    omega

/-- A bracket around both factors keeps their multiples on the same side of whole numbers. -/
theorem Certifies.sides {bracket : Bracket} {exact rounded : ℚ}
    (certified : bracket.Certifies exact rounded) {multiple whole : Nat} (positive : 0 < multiple)
    (bounded : whole < wholeLimit) :
    multiple * exact < whole ∧ multiple * rounded + margin < whole ∨
      whole < multiple * exact ∧ whole + margin < multiple * rounded := by
  obtain ⟨wide, above, below, farAbove, farBelow⟩ := certified
  obtain ⟨fromLower, fromUpper, wholeEq, multipleEq, signs⟩ :=
    bracket.exists_combination positive (bounded.trans_le wide)
  have wholeSum : (whole : ℚ) = bracket.lower * fromLower + bracket.upper * fromUpper := by
    exact_mod_cast wholeEq
  have multipleSum : (multiple : ℚ) =
      bracket.lowerParts * fromLower + bracket.upperParts * fromUpper := by
    exact_mod_cast multipleEq
  have distance (factor : ℚ) : whole - multiple * factor =
      (bracket.upper - bracket.upperParts * factor) * fromUpper -
        (bracket.lowerParts * factor - bracket.lower) * fromLower := by
    rw [wholeSum, multipleSum]
    ring
  have exactDistance := distance exact
  have roundedDistance := distance rounded
  have marginPositive : 0 < margin := by decide +kernel
  rcases signs with ⟨noLower, someUpper⟩ | ⟨someLower, noUpper⟩
  · have atLeastOne : (1 : ℚ) ≤ fromUpper := by exact_mod_cast someUpper
    have atMostZero : (fromLower : ℚ) ≤ 0 := by exact_mod_cast noLower
    left
    constructor <;> nlinarith
  · have atLeastOne : (1 : ℚ) ≤ fromLower := by exact_mod_cast someLower
    have atMostZero : (fromUpper : ℚ) ≤ 0 := by exact_mod_cast noUpper
    right
    constructor <;> nlinarith

end Bracket

end Brackets

/-- The multiples of a ratio of few parts meet whole numbers or are off them by more than the
margin. -/
theorem sides_of_few_parts {exact : ℚ} (few : exact.den < 2 ^ 29) (multiple whole : Nat) :
    multiple * exact = whole ∨
      multiple * exact < whole ∧ multiple * exact + margin < whole ∨
      whole < multiple * exact ∧ whole + margin < multiple * exact := by
  have parts : (exact.den : ℚ) * margin < 1 := by
    have less : (exact.den : ℚ) < 2 ^ 29 := by exact_mod_cast few
    unfold margin
    linarith
  have positive : (0 : ℚ) < exact.den := by exact_mod_cast exact.den_pos
  have numerator : exact * exact.den = exact.num := Rat.mul_den_eq_num exact
  -- In units of one part both numbers are whole.
  rcases lt_trichotomy (multiple * exact.num : Int) (whole * exact.den) with less | same | greater
  · have step : (multiple * exact.num + 1 : ℚ) ≤ whole * exact.den := by exact_mod_cast less
    have far : multiple * exact + margin < whole := by nlinarith
    exact .inr (.inl ⟨by linarith [(by decide +kernel : 0 < margin)], far⟩)
  · have equal : (multiple * exact.num : ℚ) = whole * exact.den := by exact_mod_cast same
    left
    rw [← numerator, ← mul_assoc] at equal
    exact mul_right_cancel₀ positive.ne' equal
  · have step : (whole * exact.den + 1 : ℚ) ≤ multiple * exact.num := by exact_mod_cast greater
    have far : whole + margin < multiple * exact := by nlinarith
    exact .inr (.inr ⟨by linarith [(by decide +kernel : 0 < margin)], far⟩)

section PowersOfTen

/-- The binade of a power of ten. -/
def place (exponent : Int) : Int := floorLog2 (tenRatio exponent).1 (tenRatio exponent).2

/-- The rounded number that digits are multiplied by for a power of ten. -/
def multiplier (exponent : Int) : ℚ :=
  if exponent < 0 then (Format.double.value (tenPower exponent.natAbs).magnitude)⁻¹
  else Format.double.value (tenPower exponent.natAbs).magnitude

/-- What is checked for one exponent: the first two conditions on a factor, and for the third one
that there is nothing to round, or a bracket. -/
def IsChecked (exponent : Int) : Prop :=
  let exact : ℚ := 10 ^ exponent / 2 ^ place exponent
  let rounded : ℚ := multiplier exponent / 2 ^ place exponent
  |rounded - exact| ≤ exact / 2 ^ 52 ∧ exact ≤ 2 - 1 / 2 ^ 20 ∧
    (rounded = exact ∧ exact.den < 2 ^ 29 ∨
      (Bracket.oneTwo.narrow exact.num.toNat exact.den 1000).Certifies exact rounded)

instance (exponent : Int) : Decidable (IsChecked exponent) :=
  inferInstanceAs (Decidable (_ ∧ _ ∧ (_ ∨ _)))

/-- Every exponent that occurs in the text of a weight passes the check. -/
theorem isChecked : ∀ offset : Nat, offset < 93 → IsChecked (offset - 54) := by
  decide +kernel

/-- Multiplying with a rounded power of ten keeps the sides of whole numbers. -/
theorem keepsSides_multiplier {exponent : Int} (low : -54 ≤ exponent) (high : exponent ≤ 38) :
    KeepsSides (10 ^ exponent / 2 ^ place exponent) (multiplier exponent / 2 ^ place exponent) := by
  have checked := isChecked (exponent + 54).toNat (by omega)
  have shifted : ((exponent + 54).toNat : Int) - 54 = exponent := by omega
  rw [shifted] at checked
  obtain ⟨close, room, ⟨same, few⟩ | certified⟩ := checked
  · refine ⟨close, room, fun multiple whole _ _ => ?_⟩
    rw [same]
    exact (sides_of_few_parts few multiple whole).imp_left fun meets => ⟨meets, rfl⟩
  · exact ⟨close, room, fun _ _ positive bounded => .inr (certified.sides positive bounded)⟩

end PowersOfTen

end BooleanQuery.Decimal
