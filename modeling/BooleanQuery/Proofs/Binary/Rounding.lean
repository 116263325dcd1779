import Mathlib.Algebra.Order.Field.Power
import Mathlib.Algebra.Order.Ring.Rat
import Mathlib.Tactic.Linarith
import Mathlib.Tactic.Positivity
import Mathlib.Tactic.Ring
import BooleanQuery.Binary.Word

/-!
# Rounding to a binary format

A magnitude code is the nearest one to a target if the number of every other code is further
away, or as far away and the code itself is even. `Format.IsNearest` says this of rational
numbers, without significands and exponents, and `Format.nearest` finds the one code for which
it is true.

Codes are in the order of their numbers, so the nearest one is one of the two neighbours of the
target. Infinity takes part as the power of two that comes after the largest finite number,
which is how far overflow reaches down.
-/

namespace BooleanQuery.Binary

section Ratios

/-- A power of two is the ratio that it is written as. -/
theorem powerRatio_eq (exponent : Int) :
    ((powerRatio exponent).1 : ℚ) = 2 ^ exponent * (powerRatio exponent).2 := by
  have up : ((powerRatio exponent).1 : ℚ) = 2 ^ exponent.toNat := Nat.cast_pow 2 exponent.toNat
  have down : ((powerRatio exponent).2 : ℚ) = 2 ^ (-exponent).toNat :=
    Nat.cast_pow 2 (-exponent).toNat
  have sum : (exponent.toNat : Int) = exponent + (-exponent).toNat := by omega
  rw [up, down, ← zpow_natCast, ← zpow_natCast, sum, zpow_add₀ two_ne_zero]

theorem powerRatio_denominator_pos (exponent : Int) : 0 < ((powerRatio exponent).2 : ℚ) :=
  Nat.cast_pos.mpr (Nat.two_pow_pos (-exponent).toNat)

/-- A positive number is between the powers of two that its logarithm tells. -/
theorem log2_bounds {number : Nat} (positive : 0 < number) :
    (2 : ℚ) ^ (number.log2 : Int) ≤ number ∧ (number : ℚ) < 2 ^ (number.log2 + 1 : Int) := by
  constructor
  · rw [zpow_natCast]
    exact_mod_cast Nat.log2_self_le positive.ne'
  · exact_mod_cast Nat.lt_log2_self

/-- A positive ratio is between the powers of two that its logarithm tells. -/
theorem floorLog2_bounds {numerator denominator : Nat} (positive : 0 < numerator)
    (isRatio : 0 < denominator) :
    (2 : ℚ) ^ floorLog2 numerator denominator * denominator ≤ numerator ∧
      (numerator : ℚ) < 2 ^ (floorLog2 numerator denominator + 1) * denominator := by
  obtain ⟨numeratorLow, numeratorHigh⟩ := log2_bounds positive
  obtain ⟨denominatorLow, denominatorHigh⟩ := log2_bounds isRatio
  -- The logarithms leave two powers of two around the guess.
  have low : (2 : ℚ) ^ ((numerator.log2 : Int) - denominator.log2 - 1) * denominator ≤
      numerator := by
    calc (2 : ℚ) ^ ((numerator.log2 : Int) - denominator.log2 - 1) * denominator
        ≤ 2 ^ ((numerator.log2 : Int) - denominator.log2 - 1) *
            2 ^ (denominator.log2 + 1 : Int) := by gcongr
      _ = 2 ^ (numerator.log2 : Int) := by
          rw [← zpow_add₀ two_ne_zero]
          congr 1
          omega
      _ ≤ numerator := numeratorLow
  have high : (numerator : ℚ) <
      2 ^ ((numerator.log2 : Int) - denominator.log2 + 1) * denominator := by
    calc (numerator : ℚ) < 2 ^ (numerator.log2 + 1 : Int) := numeratorHigh
      _ = 2 ^ ((numerator.log2 : Int) - denominator.log2 + 1) * 2 ^ (denominator.log2 : Int) := by
          rw [← zpow_add₀ two_ne_zero]
          congr 1
          omega
      _ ≤ 2 ^ ((numerator.log2 : Int) - denominator.log2 + 1) * denominator := by gcongr
  unfold floorLog2
  generalize (numerator.log2 : Int) - denominator.log2 = guess at low high ⊢
  have written := powerRatio_eq guess
  have compares : numerator * (powerRatio guess).2 < denominator * (powerRatio guess).1 ↔
      (numerator : ℚ) < 2 ^ guess * denominator := by
    rw [← @Nat.cast_lt ℚ, Nat.cast_mul, Nat.cast_mul, written, ← mul_assoc,
      mul_lt_mul_iff_left₀ (powerRatio_denominator_pos guess), mul_comm (denominator : ℚ)]
  dsimp only
  split
  · next less =>
      refine ⟨low, ?_⟩
      rw [sub_add_cancel]
      exact compares.mp less
  · next notLess =>
      exact ⟨not_lt.mp fun less => notLess (compares.mpr less), high⟩

/-- How a neighbour of a target is chosen, given how far it is from the lower one and from the
upper one: it is the nearer one, or the even one if both are equally near. -/
inductive ChosenNeighbour (below above : ℚ) (lower : Nat) : Nat → Prop where
  | lower (nearer : below < above) : ChosenNeighbour below above lower lower
  | upper (nearer : above < below) : ChosenNeighbour below above lower (lower + 1)
  | lowerEven (equal : below = above) (even : Even lower) :
      ChosenNeighbour below above lower lower
  | upperEven (equal : below = above) (even : Even (lower + 1)) :
      ChosenNeighbour below above lower (lower + 1)

/-- The choice stays the same on a coarser scale that begins at an even number. -/
theorem ChosenNeighbour.scale {below above factor : ℚ} {lower number start : Nat}
    (chosen : ChosenNeighbour below above lower number) (positive : 0 < factor)
    (even : Even start) :
    ChosenNeighbour (below * factor) (above * factor) (start + lower) (start + number) := by
  cases chosen with
  | lower nearer => exact .lower (mul_lt_mul_of_pos_right nearer positive)
  | upper nearer => exact .upper (mul_lt_mul_of_pos_right nearer positive)
  | lowerEven equal evenLower =>
      exact .lowerEven (congrArg (· * factor) equal) (even.add evenLower)
  | upperEven equal evenUpper =>
      exact .upperEven (congrArg (· * factor) equal) (even.add evenUpper)

theorem ChosenNeighbour.bounds {below above : ℚ} {lower number : Nat}
    (chosen : ChosenNeighbour below above lower number) :
    lower ≤ number ∧ number ≤ lower + 1 := by
  cases chosen <;> omega

/-- A quotient is rounded to the chosen one of the two natural numbers around it. -/
theorem roundHalfEven_chosen {numerator denominator : Nat} {quotient : ℚ}
    (isRatio : 0 < denominator) (isQuotient : quotient * denominator = numerator) :
    ∃ lower : Nat, (lower : ℚ) ≤ quotient ∧ quotient < lower + 1 ∧
      ChosenNeighbour (quotient - lower) (lower + 1 - quotient) lower
        (roundHalfEven numerator denominator) := by
  have positive : (0 : ℚ) < denominator := Nat.cast_pos.mpr isRatio
  obtain ⟨part, split⟩ : ∃ part, quotient = (numerator / denominator : Nat) + part :=
    ⟨quotient - (numerator / denominator : Nat), (add_sub_cancel _ _).symm⟩
  have remains : part * denominator = (numerator % denominator : Nat) := by
    have whole : ((denominator * (numerator / denominator) + numerator % denominator : Nat) : ℚ) =
        numerator := congrArg Nat.cast (Nat.div_add_mod numerator denominator)
    push_cast at whole
    rw [split] at isQuotient
    linarith
  have notNegative : 0 ≤ part := by
    refine nonneg_of_mul_nonneg_left ?_ positive
    rw [remains]
    exact Nat.cast_nonneg _
  have lessOne : part < 1 := by
    rw [← mul_lt_mul_iff_left₀ positive, remains, one_mul, Nat.cast_lt]
    exact Nat.mod_lt numerator isRatio
  have lessHalf : 2 * part < 1 ↔ 2 * (numerator % denominator) < denominator := by
    rw [← mul_lt_mul_iff_left₀ positive, mul_assoc, remains, one_mul]
    norm_cast
  have moreHalf : 1 < 2 * part ↔ denominator < 2 * (numerator % denominator) := by
    rw [← mul_lt_mul_iff_left₀ positive, mul_assoc, remains, one_mul]
    norm_cast
  refine ⟨numerator / denominator, by linarith, by linarith, ?_⟩
  rw [split, add_sub_cancel_left, add_sub_add_left_eq_sub]
  unfold roundHalfEven
  dsimp only
  split
  · next less => exact .lower (by linarith [lessHalf.mpr less])
  · next notLess =>
      split
      · next more => exact .upper (by linarith [moreHalf.mpr more])
      · next notMore =>
          have half : part = 1 - part := by
            have atMost := not_lt.mp (mt moreHalf.mp notMore)
            have atLeast := not_lt.mp (mt lessHalf.mp notLess)
            linarith
          rcases Nat.mod_two_eq_zero_or_one (numerator / denominator) with even | odd
          · rw [even]
            exact .lowerEven half (Nat.even_iff.mpr even)
          · rw [odd]
            exact .upperEven half (Nat.odd_iff.mpr odd).add_one

end Ratios

namespace Format

variable (format : Format)

/-- The number that a magnitude code stands for; for the code of infinity, the power of two
after the largest finite number. -/
def value (code : Nat) : ℚ := format.significand code * 2 ^ format.exponent code

/-- A code is the nearest one to a target: the number of every other code is further away, or
it is as far away and this code is the even one. -/
structure IsNearest (target : ℚ) (code : Nat) : Prop where
  bounded : code ≤ format.infinity
  nearer : ∀ other ≤ format.infinity, other ≠ code →
    |target - format.value code| < |target - format.value other| ∨
      |target - format.value code| = |target - format.value other| ∧ Even code

/-- A significand below that of normal numbers stands at the least exponent. -/
theorem value_of_lt_unit {code : Nat} (small : code < format.unit) :
    format.value code = code * 2 ^ format.leastExponent := by
  have field : code / format.unit - 1 = 0 := by rw [Nat.div_eq_of_lt small]
  rw [value, Format.significand, Format.exponent, if_pos small, field, Nat.cast_zero, add_zero]

/-- A normal number stands in the binade that its exponent field tells. -/
theorem value_normal {binade offset : Nat} (small : offset < format.unit) :
    format.value (format.unit * (binade + 1) + offset) =
      (format.unit + offset : Nat) * 2 ^ (format.leastExponent + binade) := by
  have notSmall : ¬ format.unit * (binade + 1) + offset < format.unit := by
    have atLeast : format.unit ≤ format.unit * (binade + 1) :=
      Nat.le_mul_of_pos_right format.unit (Nat.succ_pos binade)
    omega
  have field : (format.unit * (binade + 1) + offset) / format.unit - 1 = binade := by
    rw [Nat.mul_add_div (Nat.zero_lt_of_lt small), Nat.div_eq_of_lt small]
    omega
  have fraction : (format.unit * (binade + 1) + offset) % format.unit = offset := by
    rw [Nat.mul_add_mod, Nat.mod_eq_of_lt small]
  rw [value, Format.significand, Format.exponent, if_neg notSmall, field, fraction]

/-- The number of a significand in some binade, the end of the binade included. -/
theorem value_place {binade significand : Nat} (atMost : significand ≤ 2 * format.unit)
    (normal : binade = 0 ∨ format.unit ≤ significand) :
    format.value (binade * format.unit + significand) =
      significand * 2 ^ (format.leastExponent + binade) := by
  have positive : 0 < format.unit := Nat.two_pow_pos _
  rcases lt_or_ge significand format.unit with small | large
  · obtain rfl := normal.resolve_right (not_le.mpr small)
    rw [zero_mul, zero_add, Nat.cast_zero, add_zero, value_of_lt_unit format small]
  · obtain ⟨offset, rfl⟩ := Nat.exists_eq_add_of_le large
    rcases Nat.lt_or_ge offset format.unit with inside | atEnd
    · have code : binade * format.unit + (format.unit + offset) =
          format.unit * (binade + 1) + offset := by ring
      rw [code, value_normal format inside]
    · -- The end of a binade is the beginning of the next one.
      obtain rfl : offset = format.unit := by omega
      have code : binade * format.unit + (format.unit + format.unit) =
          format.unit * (binade + 1 + 1) + 0 := by ring
      rw [code, value_normal format positive, Nat.cast_succ, ← add_assoc,
        zpow_add_one₀ two_ne_zero]
      push_cast
      ring

/-- Every code is a significand in some binade. -/
theorem exists_place (code : Nat) : ∃ binade significand,
    code = binade * format.unit + significand ∧ significand < 2 * format.unit ∧
      (binade = 0 ∨ format.unit ≤ significand) := by
  have positive : 0 < format.unit := Nat.two_pow_pos _
  rcases lt_or_ge code format.unit with small | large
  · exact ⟨0, code, by omega, by omega, .inl rfl⟩
  · obtain ⟨binade, field⟩ := Nat.exists_eq_succ_of_ne_zero (Nat.div_pos large positive).ne'
    refine ⟨binade, format.unit + code % format.unit, ?_, ?_, .inr (Nat.le_add_right _ _)⟩
    · rw [← add_assoc, ← Nat.succ_mul, ← field, Nat.mul_comm, Nat.div_add_mod]
    · have fraction := Nat.mod_lt code positive
      omega

/-- Codes are in the order of their numbers. -/
theorem value_strictMono : StrictMono format.value := by
  refine strictMono_nat_of_lt_succ fun code => ?_
  obtain ⟨binade, significand, rfl, within, normal⟩ := format.exists_place code
  rw [add_assoc, value_place format within.le normal,
    value_place format within (normal.imp_right Nat.le_succ_of_le)]
  gcongr
  exact Nat.lt_succ_self significand

section Neighbours

variable {format} {target : ℚ} {lower code : Nat}

/-- The chosen one of the two codes around a target is the nearest one. -/
theorem isNearest_of_chosen (inside : lower < format.infinity)
    (above : format.value lower ≤ target) (below : target < format.value (lower + 1))
    (chosen : ChosenNeighbour (target - format.value lower) (format.value (lower + 1) - target)
      lower code) : format.IsNearest target code := by
  -- How far the codes on each side of the target are.
  have beforeTarget {other : Nat} (before : other ≤ lower) :
      |target - format.value other| = target - format.value other := by
    have atMost := format.value_strictMono.monotone before
    exact abs_of_nonneg (by linarith)
  have afterTarget {other : Nat} (after : lower + 1 ≤ other) :
      |target - format.value other| = format.value other - target := by
    have atLeast := format.value_strictMono.monotone after
    rw [abs_sub_comm]
    exact abs_of_nonneg (by linarith)
  have besidesLower {other : Nat} (different : other ≠ lower) :
      target - format.value lower < |target - format.value other| ∨
        format.value (lower + 1) - target ≤ |target - format.value other| := by
    rcases lt_or_gt_of_ne different with before | after
    · have less := format.value_strictMono before
      rw [beforeTarget before.le]
      exact .inl (by linarith)
    · have atLeast := format.value_strictMono.monotone (Nat.succ_le_of_lt after)
      rw [afterTarget after]
      exact .inr (by linarith)
  have besidesUpper {other : Nat} (different : other ≠ lower + 1) :
      target - format.value lower ≤ |target - format.value other| ∨
        format.value (lower + 1) - target < |target - format.value other| := by
    rcases lt_or_gt_of_ne different with before | after
    · have atMost := format.value_strictMono.monotone (Nat.le_of_lt_succ before)
      rw [beforeTarget (Nat.le_of_lt_succ before)]
      exact .inl (by linarith)
    · have greater := format.value_strictMono after
      rw [afterTarget after.le]
      exact .inr (by linarith)
  refine ⟨chosen.bounds.2.trans inside, fun other _ different => ?_⟩
  cases chosen with
  | lower nearer =>
      rw [beforeTarget le_rfl]
      left
      rcases besidesLower different with further | further <;> linarith
  | upper nearer =>
      rw [afterTarget le_rfl]
      left
      rcases besidesUpper different with further | further <;> linarith
  | lowerEven equal even =>
      rw [beforeTarget le_rfl]
      refine (lt_or_eq_of_le ?_).imp_right fun same => ⟨same, even⟩
      rcases besidesLower different with further | further <;> linarith
  | upperEven equal even =>
      rw [afterTarget le_rfl]
      refine (lt_or_eq_of_le ?_).imp_right fun same => ⟨same, even⟩
      rcases besidesUpper different with further | further <;> linarith

/-- Infinity is the nearest code to everything from its number on. -/
theorem isNearest_infinity (beyond : format.value format.infinity ≤ target) :
    format.IsNearest target format.infinity where
  bounded := le_rfl
  nearer other finite different := by
    have less := format.value_strictMono (lt_of_le_of_ne finite different)
    left
    rw [abs_of_nonneg (by linarith), abs_of_nonneg (by linarith)]
    linarith

/-- Between two codes that are equally near and even there is a nearer one. -/
theorem not_equally_near {greater : Nat} (less : code < greater) (even : Even code)
    (evenGreater : Even greater)
    (equal : |target - format.value code| = |target - format.value greater|) :
    |target - format.value (code + 1)| < |target - format.value code| := by
  have inside : code + 1 < greater := by
    rcases even with ⟨half, rfl⟩
    rcases evenGreater with ⟨otherHalf, rfl⟩
    omega
  have first := format.value_strictMono (Nat.lt_succ_self code)
  have second := format.value_strictMono inside
  rcases abs_eq_abs.mp equal with same | opposite
  · linarith
  · rw [abs_of_nonneg (by linarith : 0 ≤ target - format.value code), abs_lt]
    constructor <;> linarith

/-- There is only one nearest code. -/
theorem IsNearest.eq {other : Nat} (nearest : format.IsNearest target code)
    (otherNearest : format.IsNearest target other) : code = other := by
  by_contra different
  have here := nearest.nearer other otherNearest.bounded (Ne.symm different)
  have there := otherNearest.nearer code nearest.bounded different
  obtain ⟨equal, even⟩ := here.resolve_left fun further => by
    rcases there with back | ⟨back, -⟩ <;> linarith
  obtain ⟨-, evenOther⟩ := there.resolve_left fun further => by linarith
  rcases lt_or_gt_of_ne different with less | greater
  · have between := not_equally_near less even evenOther equal
    have bounded : code + 1 ≤ format.infinity := (Nat.succ_le_of_lt less).trans otherNearest.bounded
    rcases nearest.nearer (code + 1) bounded (Nat.succ_ne_self code) with further | ⟨same, -⟩ <;>
      linarith
  · have between := not_equally_near greater evenOther even equal.symm
    have bounded : other + 1 ≤ format.infinity := (Nat.succ_le_of_lt greater).trans nearest.bounded
    rcases otherNearest.nearer (other + 1) bounded (Nat.succ_ne_self other) with
      further | ⟨same, -⟩ <;> linarith

end Neighbours

/-- The exponent at which a ratio is rounded. -/
def lastPlace (numerator denominator : Nat) : Int :=
  max format.leastExponent (floorLog2 numerator denominator - (format.precision - 1 : Nat))

/-- At the exponent at which it is rounded a ratio is within the significands, and not below
the normal ones unless the exponent is the least one. -/
theorem lastPlace_bounds {numerator denominator : Nat} (positive : 0 < numerator)
    (isRatio : 0 < denominator) :
    (numerator / denominator : ℚ) <
        (2 * format.unit : Nat) * 2 ^ format.lastPlace numerator denominator ∧
      (format.lastPlace numerator denominator = format.leastExponent ∨
        format.unit * 2 ^ format.lastPlace numerator denominator ≤
          (numerator / denominator : ℚ)) := by
  have unit : (format.unit : ℚ) = 2 ^ ((format.precision - 1 : Nat) : Int) := by
    rw [zpow_natCast]
    exact Nat.cast_pow 2 _
  have denominatorPositive : (0 : ℚ) < denominator := Nat.cast_pos.mpr isRatio
  obtain ⟨low, high⟩ := floorLog2_bounds positive isRatio
  rw [← le_div_iff₀ denominatorPositive] at low
  rw [← div_lt_iff₀ denominatorPositive] at high
  unfold lastPlace
  generalize floorLog2 numerator denominator = logarithm at low high ⊢
  constructor
  · refine high.trans_le ?_
    rw [Nat.cast_mul, unit, Nat.cast_ofNat, ← zpow_one_add₀ two_ne_zero, ← zpow_add₀ two_ne_zero]
    exact zpow_le_zpow_right₀ one_le_two (by omega)
  · rcases le_total (logarithm - (format.precision - 1 : Nat)) format.leastExponent with
      least | normal
    · exact .inl (max_eq_left least)
    · right
      rw [max_eq_right normal, unit, ← zpow_add₀ two_ne_zero]
      exact (zpow_le_zpow_right₀ one_le_two (by omega)).trans low

theorem value_zero : format.value 0 = 0 := by
  rw [value_of_lt_unit format (Nat.two_pow_pos _), Nat.cast_zero, zero_mul]

/-- Zero is the nearest code to nothing. -/
theorem isNearest_zero : format.IsNearest 0 0 where
  bounded := Nat.zero_le _
  nearer other _ different := by
    have positive := format.value_strictMono (Nat.pos_of_ne_zero different)
    left
    rw [value_zero] at positive ⊢
    rw [sub_zero, abs_zero, zero_sub, abs_neg]
    exact abs_pos_of_pos positive

/-- A positive ratio is rounded to a significand at its exponent. -/
theorem nearest_eq {numerator denominator : Nat} (positive : 0 < numerator) :
    format.nearest numerator denominator =
      min format.infinity
        ((format.lastPlace numerator denominator - format.leastExponent).toNat * format.unit +
          roundHalfEven
            (numerator * (powerRatio (format.lastPlace numerator denominator)).2)
            (denominator * (powerRatio (format.lastPlace numerator denominator)).1)) := by
  rw [nearest, if_neg positive.ne']
  rfl

/-- In a binade the codes around a target are the natural numbers around its significand, so
the one that is chosen of these gives the nearest code. -/
theorem isNearest_of_significand (even : Even format.unit) {binade lower significand : Nat}
    {scaled : ℚ} (above : lower ≤ scaled) (below : scaled < lower + 1)
    (within : lower < 2 * format.unit) (normal : binade = 0 ∨ format.unit ≤ lower)
    (chosen : ChosenNeighbour (scaled - lower) (lower + 1 - scaled) lower significand) :
    format.IsNearest (scaled * 2 ^ (format.leastExponent + binade))
      (min format.infinity (binade * format.unit + significand)) := by
  have step : (0 : ℚ) < 2 ^ (format.leastExponent + binade) := zpow_pos two_pos _
  have valueLower := format.value_place within.le normal
  have valueUpper : format.value (binade * format.unit + lower + 1) =
      (lower + 1 : ℚ) * 2 ^ (format.leastExponent + binade) := by
    rw [add_assoc, value_place format within (normal.imp_right Nat.le_succ_of_le), Nat.cast_succ]
  have choice := chosen.scale step (even.mul_left binade)
  rw [sub_mul, sub_mul, ← valueLower, ← valueUpper] at choice
  rcases lt_or_ge (binade * format.unit + lower) format.infinity with inside | outside
  · rw [min_eq_right (choice.bounds.2.trans inside)]
    refine isNearest_of_chosen inside ?_ ?_ choice
    · rw [valueLower]
      gcongr
    · rw [valueUpper]
      gcongr
  · rw [min_eq_left (outside.trans choice.bounds.1)]
    refine isNearest_infinity ?_
    calc format.value format.infinity
        ≤ format.value (binade * format.unit + lower) := format.value_strictMono.monotone outside
      _ = lower * 2 ^ (format.leastExponent + binade) := valueLower
      _ ≤ scaled * 2 ^ (format.leastExponent + binade) := by gcongr

/-- The code that a positive ratio is rounded to is the nearest one. -/
theorem isNearest_nearest_of_pos (even : Even format.unit) {numerator denominator : Nat}
    (positive : 0 < numerator) (isRatio : 0 < denominator) :
    format.IsNearest (numerator / denominator) (format.nearest numerator denominator) := by
  obtain ⟨within, normal⟩ := format.lastPlace_bounds positive isRatio
  have least : format.leastExponent ≤ format.lastPlace numerator denominator := le_max_left _ _
  rw [nearest_eq format positive]
  generalize format.lastPlace numerator denominator = exponent at within normal least ⊢
  have step : (0 : ℚ) < 2 ^ exponent := zpow_pos two_pos exponent
  obtain ⟨scaled, isScaled⟩ :
      ∃ scaled : ℚ, (numerator / denominator : ℚ) = scaled * 2 ^ exponent :=
    ⟨_, (div_mul_cancel₀ _ step.ne').symm⟩
  have quotient : scaled * (denominator * (powerRatio exponent).1 : Nat) =
      (numerator * (powerRatio exponent).2 : Nat) := by
    have whole : (numerator : ℚ) = scaled * 2 ^ exponent * denominator := by
      rw [← isScaled, div_mul_cancel₀]
      exact Nat.cast_ne_zero.mpr isRatio.ne'
    rw [Nat.cast_mul, Nat.cast_mul, powerRatio_eq, whole]
    ring
  have isScaledRatio : 0 < denominator * (powerRatio exponent).1 :=
    Nat.mul_pos isRatio (Nat.two_pow_pos _)
  obtain ⟨lower, above, below, chosen⟩ := roundHalfEven_chosen isScaledRatio quotient
  obtain ⟨binade, place⟩ := Int.le.dest least
  rw [isScaled] at within normal ⊢
  have significands : lower < 2 * format.unit := by
    have less := above.trans_lt (lt_of_mul_lt_mul_right within step.le)
    exact_mod_cast less
  have inBinade : binade = 0 ∨ format.unit ≤ lower := by
    refine normal.imp (fun isLeast => by omega) fun large => ?_
    have less := (le_of_mul_le_mul_right large step).trans_lt below
    exact Nat.le_of_lt_succ (by exact_mod_cast less)
  have nearest := format.isNearest_of_significand even above below significands inBinade chosen
  have binadeOf : (exponent - format.leastExponent).toNat = binade := by omega
  rw [binadeOf, ← place]
  rw [← place] at nearest
  exact nearest

/-- The code that a ratio is rounded to is the nearest one. -/
theorem isNearest_nearest (even : Even format.unit) {numerator denominator : Nat}
    (isRatio : 0 < denominator) :
    format.IsNearest (numerator / denominator) (format.nearest numerator denominator) := by
  rcases Nat.eq_zero_or_pos numerator with zero | positive
  · rw [zero, nearest, if_pos rfl, Nat.cast_zero, zero_div]
    exact format.isNearest_zero
  · exact format.isNearest_nearest_of_pos even positive isRatio

end Format

namespace Word

variable {format target : Format}

/-- The ratio of a word is the number that its magnitude stands for. -/
theorem ratio_eq_value (word : Word format) :
    ((word.ratio.1 : ℚ) / (word.ratio.2 : ℚ)) = format.value word.magnitude := by
  have positive := powerRatio_denominator_pos (format.exponent word.magnitude)
  have numerator : (word.ratio.1 : ℚ) = format.significand word.magnitude *
      (powerRatio (format.exponent word.magnitude)).1 := Nat.cast_mul _ _
  rw [numerator, powerRatio_eq, ← mul_assoc]
  exact mul_div_cancel_right₀ _ positive.ne'

/-- The magnitude of the word for an integer is the nearest one. -/
theorem isNearest_ofInt (even : Even target.unit) (number : Int) :
    target.IsNearest |(number : ℚ)| (ofInt number : Word target).magnitude := by
  have nearest : target.IsNearest ((number.natAbs : ℚ) / (1 : Nat))
      (target.nearest number.natAbs 1) := target.isNearest_nearest even Nat.one_pos
  rw [Nat.cast_one, div_one, Nat.cast_natAbs, Int.cast_abs] at nearest
  exact nearest

/-- The magnitude of a word of another format is the nearest one, if infinity is not nearer
there. -/
theorem isNearest_convert (even : Even target.unit)
    (wider : target.value target.infinity ≤ format.value format.infinity) (word : Word format) :
    target.IsNearest (format.value word.magnitude) (word.convert : Word target).magnitude := by
  unfold convert
  split
  · have positive : 0 < word.ratio.2 := Nat.two_pow_pos _
    rw [← ratio_eq_value]
    exact target.isNearest_nearest even positive
  · next notFinite =>
      have beyond : format.infinity ≤ word.magnitude := by
        rw [isFinite, decide_eq_true_iff, not_lt] at notFinite
        exact notFinite
      exact Format.isNearest_infinity (wider.trans (format.value_strictMono.monotone beyond))

/-- The magnitude of a product is the nearest one to the product of the numbers. -/
theorem isNearest_product (even : Even format.unit) (left right : Word format) :
    format.IsNearest (format.value left.magnitude * format.value right.magnitude)
      (left.product right).magnitude := by
  have isRatio : 0 < left.ratio.2 * right.ratio.2 :=
    Nat.mul_pos (Nat.two_pow_pos _) (Nat.two_pow_pos _)
  rw [← ratio_eq_value, ← ratio_eq_value, div_mul_div_comm, ← Nat.cast_mul, ← Nat.cast_mul]
  exact format.isNearest_nearest even isRatio

/-- The magnitude of a quotient is the nearest one to the quotient of the numbers. -/
theorem isNearest_quotient (even : Even format.unit) (left : Word format) {right : Word format}
    (divisor : 0 < right.ratio.1) :
    format.IsNearest (format.value left.magnitude / format.value right.magnitude)
      (left.quotient right).magnitude := by
  have isRatio : 0 < left.ratio.2 * right.ratio.1 := Nat.mul_pos (Nat.two_pow_pos _) divisor
  rw [← ratio_eq_value, ← ratio_eq_value, div_div_div_eq, ← Nat.cast_mul, ← Nat.cast_mul]
  exact format.isNearest_nearest even isRatio

/-- A word is known by its sign and the number that is nearest to it. -/
theorem eq_of_isNearest {left right : Word target} {number : ℚ}
    (negative : left.negative = right.negative)
    (leftNearest : target.IsNearest number left.magnitude)
    (rightNearest : target.IsNearest number right.magnitude) : left = right := by
  have magnitude := leftNearest.eq rightNearest
  cases left
  cases right
  cases negative
  cases magnitude
  rfl

theorem negative_convert (word : Word format) :
    (word.convert : Word target).negative = word.negative := by
  unfold convert
  split <;> rfl

end Word

/-- Infinity of 32 bits is the power of two after the finite numbers. -/
theorem value_infinity_single :
    Format.single.value Format.single.infinity = (2 ^ 23 : Nat) * 2 ^ (105 : Int) := by
  have significand : Format.single.significand Format.single.infinity = 2 ^ 23 := by decide
  have exponent : Format.single.exponent Format.single.infinity = 105 := by decide
  rw [Format.value, significand, exponent]

/-- Infinity of 64 bits is the power of two after the finite numbers. -/
theorem value_infinity_double :
    Format.double.value Format.double.infinity = (2 ^ 52 : Nat) * 2 ^ (972 : Int) := by
  have significand : Format.double.significand Format.double.infinity = 2 ^ 52 := by decide
  have exponent : Format.double.exponent Format.double.infinity = 972 := by decide
  rw [Format.value, significand, exponent]

theorem value_infinity_single_le_double :
    Format.single.value Format.single.infinity ≤ Format.double.value Format.double.infinity := by
  rw [value_infinity_single, value_infinity_double]
  gcongr <;> decide

end BooleanQuery.Binary
