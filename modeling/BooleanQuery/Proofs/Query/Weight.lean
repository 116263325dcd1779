import BooleanQuery.Proofs.Decimal.Rereading
import BooleanQuery.Proofs.Decimal.Shortest
import BooleanQuery.Proofs.Decimal.Spelling
import BooleanQuery.Proofs.Json.Scaling

/-!
# Weights are read back from their texts

The text of a finite weight is the shortest decimal that rounds to it. The reader of numbers
rounds twice, and with a rounded power of ten in between, so it does not give the nearest double
word to every decimal; but the texts of weights are short, and for them the weight comes back.
-/

namespace BooleanQuery.Weight

open Binary (Format Word)
open Decimal (shortest ofCoefficient multiplier)
open Json (Reader Number Spelling)
open Text (encode)

variable {weight : Weight} {Mismatch : Type}

/-- A text is read as a number that becomes the weight. -/
def Reads (Mismatch : Type) (weight : Weight) (written : List Char) : Prop :=
  ∃ number : Number,
    (Json.number : Reader Mismatch Number).run (encode written) = .ok (number, []) ∧
      ofNumber number = weight

/-- A spelling is read as a weight, if every double word that its digits may be rounded to belongs
to the weight. -/
theorem reads_of_spelling (finite : weight.isFinite = true) {spelling : Spelling}
    (few : spelling.significand ≤ 2 ^ 53) (low : -54 ≤ spelling.unit) (high : spelling.unit ≤ 38)
    (exponents : ∀ exponent ∈ spelling.exponent, exponent.natAbs ≤ 100)
    (belongs : ∀ word,
      Format.double.IsNearest (spelling.significand * multiplier spelling.unit) word →
        Format.single.IsBetween (Format.double.value word) weight.magnitude) :
    Reads Mismatch weight ((if weight.negative then ['-'] else []) ++ spelling.text) := by
  obtain ⟨product, sign, nearest, isScaled⟩ :=
    @Json.exists_scaled spelling.significand spelling.unit few
      (by unfold Json.greatestTenPower; omega) (by unfold Json.greatestTenPower; omega)
      weight.negative
  have between := belongs product.magnitude nearest
  have inside : weight.magnitude < Format.single.infinity := of_decide_eq_true finite
  have productFinite : product.isFinite = true := by
    have next : Format.single.value (weight.magnitude + 1) ≤
        Format.single.value Format.single.infinity := Format.single.value_strictMono.monotone inside
    have order := Format.single.value_strictMono (Nat.lt_succ_self weight.magnitude)
    have wider := Binary.value_infinity_single_le_double
    refine decide_eq_true (Format.double.value_strictMono.lt_iff_lt.mp ?_)
    linarith [between.high]
  have evaluated := spelling.number_literal
    (few.trans (by unfold Json.greatestSignificand; omega))
    (fun exponent found => (exponents exponent found).trans (by unfold Json.greatestExponent; omega))
    weight.negative (isScaled productFinite)
  refine ⟨.float product,
    Json.takes_number.mpr ⟨_, spelling.takes_numberLiteral_text weight.negative, evaluated⟩, ?_⟩
  have converted := Word.isNearest_convert (by decide) Binary.value_infinity_single_le_double product
  exact Word.eq_of_isNearest (by rw [← sign]; exact product.negative_convert) converted
    (between.isNearest inside)

/-- What is used of the shortest decimal of a weight. -/
structure IsDecimalOf (decimal : Decimal) (code : Nat) : Prop where
  normal : decimal.IsNormal
  few : decimal.coefficient ≤ 10 ^ 10
  low : -54 ≤ decimal.last
  high : decimal.last ≤ 38
  leading : decimal.leading ≤ 100
  size : decimal.coefficient * 10 ^ decimal.last < (10 : ℚ) ^ (decimal.leading + 1)
  between : Format.single.IsBetween (decimal.coefficient * 10 ^ decimal.last) code
  near : |decimal.coefficient * 10 ^ decimal.last - Format.single.value code| ≤ 10 ^ decimal.last

/-- Weights that are not zero are within these powers of ten. -/
theorem value_bounds {code : Nat} (positive : 0 < code) (inside : code < Format.single.infinity) :
    (10 : ℚ) ^ (-45 : Int) < Format.single.value code ∧
      Format.single.value (code + 1) < 10 ^ (39 : Int) := by
  have least : Format.single.value 1 = 2 ^ (-149 : Int) := by
    have exponent : Format.single.leastExponent = -149 := by decide
    rw [Format.value_of_lt_unit _ (by decide), exponent, Nat.cast_one, one_mul]
  have atLeast := Format.single.value_strictMono.monotone (Nat.succ_le_of_lt positive)
  have atMost := Format.single.value_strictMono.monotone (Nat.succ_le_of_lt inside)
  rw [Nat.succ_eq_add_one, zero_add, least] at atLeast
  rw [Nat.succ_eq_add_one, Binary.value_infinity_single] at atMost
  constructor
  · refine lt_of_lt_of_le ?_ atLeast
    norm_num
  · refine atMost.trans_lt ?_
    norm_num

section Coefficients

variable {code point : Nat} {last : Int}

/-- The last of the nine places of a weight is not far below the least weights. -/
theorem low_of_fine (positive : 0 < code) (inside : code < Format.single.infinity)
    (fine : Format.single.value code < 10 ^ (last + 9)) : -53 ≤ last := by
  have exponents : (-45 : Int) < last + 9 :=
    (zpow_lt_zpow_iff_right₀ (by norm_num : (1 : ℚ) < 10)).mp
      ((value_bounds positive inside).1.trans fine)
  omega

/-- The last place of a decimal that belongs to a weight is not above the greatest weights. -/
theorem high_of_isBetween (positive : 0 < code) (inside : code < Format.single.infinity)
    (between : Format.single.IsBetween (point * 10 ^ last) code) : last ≤ 38 := by
  have some := Decimal.pos_of_isBetween positive between
  have power : (0 : ℚ) < 10 ^ last := zpow_pos (by norm_num) last
  have order := Format.single.value_strictMono (Nat.lt_succ_self code)
  have bound : (10 : ℚ) ^ last < 10 ^ (39 : Int) :=
    calc (10 : ℚ) ^ last ≤ point * 10 ^ last :=
          le_mul_of_one_le_left power.le (by exact_mod_cast some)
      _ ≤ Format.single.value (code + 1) := by linarith [between.high]
      _ < 10 ^ (39 : Int) := (value_bounds positive inside).2
  have exponents := (zpow_lt_zpow_iff_right₀ (by norm_num : (1 : ℚ) < 10)).mp bound
  omega

/-- A coefficient near a weight has no more places than the weight. -/
theorem few_of_near (near : |point * 10 ^ last - Format.single.value code| ≤ 10 ^ last)
    (fine : Format.single.value code < 10 ^ (last + 9)) : point ≤ 10 ^ 9 := by
  have step : (0 : ℚ) < 10 ^ last := zpow_pos (by norm_num) last
  have nine : (10 : ℚ) ^ (last + 9) = 10 ^ 9 * 10 ^ last := by
    rw [zpow_add₀ (by norm_num), mul_comm]
    norm_num
  have bound : (point : ℚ) * 10 ^ last < (10 ^ 9 + 1) * 10 ^ last := by
    rw [nine] at fine
    linarith [(abs_le.mp near).2]
  have few : (point : ℚ) < 10 ^ 9 + 1 := lt_of_mul_lt_mul_right bound step.le
  exact Nat.le_of_lt_succ (by exact_mod_cast few)

/-- A coefficient that is not far from a weight, and rounds to it, has a decimal of the weight. -/
theorem isDecimalOf_ofCoefficient (positive : 0 < code) (inside : code < Format.single.infinity)
    (between : Format.single.IsBetween (point * 10 ^ last) code)
    (near : |point * 10 ^ last - Format.single.value code| ≤ 10 ^ last)
    (fine : Format.single.value code < 10 ^ (last + 9)) :
    IsDecimalOf (ofCoefficient point last) code := by
  have pointPositive := Decimal.pos_of_isBetween positive between
  have pointFew := few_of_near near fine
  have lastLow := low_of_fine positive inside fine
  have lastHigh := high_of_isBetween positive inside between
  obtain ⟨count, split, lastEq⟩ := Decimal.exists_zeros_ofCoefficient last pointPositive
  have normal := Decimal.isNormal_ofCoefficient last pointPositive
  have leadingEq := Decimal.leading_ofCoefficient last point
  have length : (Decimal.digitsOf point).length ≤ 10 :=
    (Nat.length_toDigits_le_iff (by decide) (by decide)).mpr (by omega)
  have digits := (Decimal.digitsOf_bounds pointPositive).2
  generalize ofCoefficient point last = decimal at split lastEq normal leadingEq ⊢
  have same : (decimal.coefficient : ℚ) * 10 ^ decimal.last = point * 10 ^ last := by
    rw [lastEq, split, zpow_add₀ (by norm_num), zpow_natCast]
    push_cast
    ring
  refine {
    normal := normal
    few := ?_
    low := by omega
    high := high_of_isBetween positive inside (same ▸ between)
    leading := by omega
    size := ?_
    between := same ▸ between
    near := ?_ }
  · calc decimal.coefficient ≤ decimal.coefficient * 10 ^ count :=
          Nat.le_mul_of_pos_right _ (Nat.pow_pos (by decide))
      _ = point := split.symm
      _ ≤ 10 ^ 9 := pointFew
      _ ≤ 10 ^ 10 := by decide
  · have few : (point : ℚ) < 10 ^ (Decimal.digitsOf point).length := by exact_mod_cast digits
    rw [same, leadingEq, zpow_add₀ (by norm_num), zpow_natCast, mul_comm]
    exact mul_lt_mul_of_pos_left few (zpow_pos (by norm_num) last)
  · rw [same, lastEq]
    exact near.trans (zpow_le_zpow_right₀ (by norm_num) (by omega))

end Coefficients

/-- The shortest decimal of a weight has few digits, near the weight. -/
theorem isDecimalOf_shortest (finite : weight.isFinite = true) (nonzero : weight.isZero = false) :
    IsDecimalOf (shortest .toEven weight) weight.magnitude := by
  have positive : 0 < weight.magnitude := Nat.pos_of_ne_zero (of_decide_eq_false nonzero)
  obtain ⟨point, last, isShortest, taken, fine⟩ :=
    Decimal.exists_gridPoint nonzero .toEven (by decide : 8 * Format.single.unit ≤ 10 ^ 8)
      (by decide)
  have between := Decimal.Interval.isBetween_of_gridPoint? (by decide) positive taken
  have near := Decimal.Interval.abs_sub_le_of_gridPoint? taken
  rw [Decimal.Interval.centre_eq] at near
  rw [isShortest]
  exact isDecimalOf_ofCoefficient positive (of_decide_eq_true finite) between near
    (by rwa [add_assoc] at fine)

/-- The digits of a decimal of a weight are read as a double word that belongs to the weight. -/
theorem IsDecimalOf.isBetween {decimal : Decimal} {code word : Nat}
    (isDecimal : IsDecimalOf decimal code) (positive : 0 < code)
    (inside : code < Format.single.infinity)
    (nearest : Format.double.IsNearest (decimal.coefficient * multiplier decimal.last) word) :
    Format.single.IsBetween (Format.double.value word) code :=
  Decimal.isBetween_double isDecimal.low isDecimal.high positive inside isDecimal.between
    isDecimal.near nearest

section Whole

variable {decimal : Decimal} {code word : Nat}

theorem ten_zpow_eq_of_nonneg {exponent : Int} (whole : 0 ≤ exponent) :
    (10 : ℚ) ^ exponent = (10 ^ exponent.toNat : Nat) := by
  rw [Nat.cast_pow, ← zpow_natCast, Int.toNat_of_nonneg whole]
  rfl

/-- A whole number with its places written out has at most thirteen of them. -/
theorem IsDecimalOf.whole_lt (isDecimal : IsDecimalOf decimal code) (whole : 0 ≤ decimal.last)
    (small : decimal.leading ≤ 12) : decimal.coefficient * 10 ^ decimal.last.toNat < 10 ^ 13 := by
  have size := isDecimal.size
  rw [ten_zpow_eq_of_nonneg whole, ← Nat.cast_mul] at size
  have thirteen : (10 : ℚ) ^ (decimal.leading + 1) ≤ 10 ^ (13 : Int) :=
    zpow_le_zpow_right₀ (by norm_num) (by omega)
  exact_mod_cast size.trans_le thirteen

/-- A whole number is read as it is, also with a zero after its point. -/
theorem IsDecimalOf.isBetween_of_whole (isDecimal : IsDecimalOf decimal code)
    (whole : 0 ≤ decimal.last) (small : decimal.leading ≤ 12)
    (nearest : Format.double.IsNearest
      ((decimal.coefficient * 10 ^ (decimal.last.toNat + 1) : Nat) * multiplier (-1)) word) :
    Format.single.IsBetween (Format.double.value word) code := by
  have tenth : multiplier (-1) = 10⁻¹ := by decide +kernel
  have number : ((decimal.coefficient * 10 ^ (decimal.last.toNat + 1) : Nat) : ℚ) *
      multiplier (-1) = (decimal.coefficient * 10 ^ decimal.last.toNat : Nat) := by
    rw [tenth, pow_succ]
    push_cast
    ring
  have bounded : decimal.coefficient * 10 ^ decimal.last.toNat ≤ 2 ^ 53 :=
    (isDecimal.whole_lt whole small).le.trans (by decide)
  rw [number] at nearest
  rw [Json.value_of_isNearest_of_le bounded nearest, Nat.cast_mul, ← ten_zpow_eq_of_nonneg whole]
  exact isDecimal.between

end Whole

/-- A spelling with the digits of a decimal of the weight is read as the weight. -/
theorem reads_of_digits (finite : weight.isFinite = true) (nonzero : weight.isZero = false)
    {decimal : Decimal} (isDecimal : IsDecimalOf decimal weight.magnitude) {spelling : Spelling}
    (significand : spelling.significand = decimal.coefficient) (unit : spelling.unit = decimal.last)
    (exponents : ∀ exponent ∈ spelling.exponent, exponent.natAbs ≤ 100) :
    Reads Mismatch weight ((if weight.negative then ['-'] else []) ++ spelling.text) := by
  refine reads_of_spelling finite ?_ ?_ ?_ exponents fun word nearest => ?_
  · rw [significand]
    exact isDecimal.few.trans (by decide)
  · rw [unit]
    exact isDecimal.low
  · rw [unit]
    exact isDecimal.high
  · rw [significand, unit] at nearest
    exact isDecimal.isBetween (Nat.pos_of_ne_zero (of_decide_eq_false nonzero))
      (of_decide_eq_true finite) nearest

/-- A spelling of a whole number, with a zero after its point, is read as the weight. -/
theorem reads_of_whole (finite : weight.isFinite = true) {decimal : Decimal}
    (isDecimal : IsDecimalOf decimal weight.magnitude) (whole : 0 ≤ decimal.last)
    (small : decimal.leading ≤ 12) {spelling : Spelling}
    (significand : spelling.significand = decimal.coefficient * 10 ^ (decimal.last.toNat + 1))
    (unit : spelling.unit = -1) (exponent : spelling.exponent = none) :
    Reads Mismatch weight ((if weight.negative then ['-'] else []) ++ spelling.text) := by
  have bounded := isDecimal.whole_lt whole small
  refine reads_of_spelling finite ?_ (by omega) (by omega) (by simp [exponent])
    fun word nearest => ?_
  · rw [significand, pow_succ, ← mul_assoc]
    omega
  · rw [significand, unit] at nearest
    exact isDecimal.isBetween_of_whole whole small nearest

/-- A weight that is not zero is read back from its text. -/
theorem reads_json (finite : weight.isFinite = true) (nonzero : weight.isZero = false) :
    Reads Mismatch weight weight.json := by
  have isDecimal : IsDecimalOf (shortest jsonNotation.tie weight) weight.magnitude :=
    isDecimalOf_shortest finite nonzero
  rw [json, if_pos finite, Decimal.Notation.finite]
  generalize shortest jsonNotation.tie weight = decimal at isDecimal ⊢
  rw [Decimal.text]
  by_cases plain : jsonNotation.plain decimal.leading = true
  · rw [if_pos plain]
    have places : decimal.places jsonNotation.keepsFraction = decimal.places true := rfl
    rw [places]
    rcases lt_or_ge decimal.last 0 with fraction | whole
    · obtain ⟨spelling, spelled, exponent, significand, unit⟩ :=
        isDecimal.normal.exists_spelling_of_fraction fraction true
      rw [← spelled]
      exact reads_of_digits finite nonzero isDecimal significand unit (by simp [exponent])
    · obtain ⟨spelling, spelled, exponent, significand, unit⟩ :=
        isDecimal.normal.exists_spelling_of_whole whole
      have small : decimal.leading ≤ 12 := by
        simp only [jsonNotation, Bool.and_eq_true, decide_eq_true_eq] at plain
        exact plain.2
      rw [← spelled]
      exact reads_of_whole finite isDecimal whole small significand unit exponent
  · rw [if_neg plain]
    obtain ⟨spelling, spelled, exponent, significand, unit⟩ :=
      isDecimal.normal.exists_spelling_scientific
    rw [← spelled]
    refine reads_of_digits finite nonzero isDecimal significand unit fun other found => ?_
    obtain rfl : decimal.leading = other := by
      rw [exponent] at found
      exact Option.some.inj found
    have low := isDecimal.low
    have high := isDecimal.leading
    unfold Decimal.last at low
    omega

end BooleanQuery.Weight
