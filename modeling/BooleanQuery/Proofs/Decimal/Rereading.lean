import Mathlib.Tactic.FieldSimp
import BooleanQuery.Proofs.Binary.Neighbours
import BooleanQuery.Proofs.Decimal.Multipliers

/-!
# Rounding to 64 bits and then to 32

A decimal is rounded twice on its way to a weight: to a double word, and from there to a single
one. The first rounding moves the decimal, but it does not take it across a middle between two
weights: the middle and the numbers a margin away from it are themselves double words, and the
product that is rounded is further from the middle than these, or meets it.
-/

namespace BooleanQuery.Decimal

open Binary (Format)

/-- The middle between two weights next to each other, as a number of units of a power of two. -/
structure Middle where
  whole : Nat
  unit : Int
  positive : 0 < whole
  few : whole < wholeLimit
  least : -151 ≤ unit

namespace Middle

/-- The number in the middle. -/
def value (middle : Middle) : ℚ := middle.whole * 2 ^ middle.unit

/-- The unit of a middle, which is the distance of the weights next to it. -/
def gap (middle : Middle) : ℚ := 2 ^ middle.unit

theorem gap_pos (middle : Middle) : 0 < middle.gap := zpow_pos two_pos middle.unit

theorem value_lt (middle : Middle) : middle.value < 2 ^ 25 * middle.gap := by
  have few : (middle.whole : ℚ) < 2 ^ 25 := by exact_mod_cast middle.few
  exact mul_lt_mul_of_pos_right few middle.gap_pos

section Weights

variable {code : Nat}

/-- There is a middle to the weight after another one. -/
theorem exists_above (code : Nat) : ∃ middle : Middle,
    Format.single.value code + Format.single.value (code + 1) = 2 * middle.value ∧
      middle.value = Format.single.value code + middle.gap := by
  have significand := Format.single.significand_lt code
  have unit : Format.single.unit = 2 ^ 23 := by decide
  refine ⟨⟨2 * Format.single.significand code + 1, Format.single.exponent code - 1,
    Nat.succ_pos _, ?_, ?_⟩, ?_, ?_⟩
  · unfold wholeLimit
    omega
  · have least : Format.single.leastExponent = -149 := by decide
    unfold Format.exponent
    omega
  · rw [Format.value_succ, Format.value, value, zpow_sub_one₀ two_ne_zero]
    push_cast
    ring
  · rw [Format.value, value, gap, zpow_sub_one₀ two_ne_zero]
    push_cast
    ring

/-- There is a middle to the weight before another one. -/
theorem exists_below (positive : 0 < code) : ∃ middle : Middle,
    Format.single.value (code - 1) + Format.single.value code = 2 * middle.value ∧
      middle.value + middle.gap = Format.single.value code := by
  have significand := Format.single.significand_lt code
  have some := Format.single.significand_pos positive
  have unit : Format.single.unit = 2 ^ 23 := by decide
  have least : Format.single.leastExponent = -149 := by decide
  have value : Format.single.value code =
    Format.single.significand code * 2 ^ Format.single.exponent code := rfl
  by_cases dense : code % Format.single.unit = 0 ∧ Format.single.unit < code
  · -- Below a power of two weights are twice as dense.
    refine ⟨⟨4 * Format.single.significand code - 1, Format.single.exponent code - 2,
      by omega, ?_, ?_⟩, ?_, ?_⟩
    · have atUnit : Format.single.significand code = Format.single.unit := by
        rw [Format.significand, if_neg (by omega), dense.1, Nat.add_zero]
      unfold wholeLimit
      omega
    · unfold Format.exponent
      omega
    · rw [Format.value_pred_of_dense _ dense.1 dense.2, value, Middle.value,
        zpow_sub₀ two_ne_zero, zpow_sub₀ two_ne_zero, Nat.cast_sub (by omega)]
      push_cast
      ring
    · rw [value, Middle.value, gap, zpow_sub₀ two_ne_zero, Nat.cast_sub (by omega)]
      push_cast
      ring
  · refine ⟨⟨2 * Format.single.significand code - 1, Format.single.exponent code - 1,
      by omega, ?_, ?_⟩, ?_, ?_⟩
    · unfold wholeLimit
      omega
    · unfold Format.exponent
      omega
    · rw [Format.value_pred _ positive dense, value, Middle.value, zpow_sub_one₀ two_ne_zero,
        Nat.cast_sub (by omega)]
      push_cast
      ring
    · rw [value, Middle.value, gap, zpow_sub_one₀ two_ne_zero, Nat.cast_sub (by omega)]
      push_cast
      ring

end Weights

section Sides

variable {power approximation : ℚ} {place : Int} {multiple : Nat} {middle : Middle}

/-- A middle whose unit is not coarser than a factor is a whole number of parts of the factor. -/
theorem sides (keeps : KeepsSides (power / 2 ^ place) (approximation / 2 ^ place))
    (fine : middle.unit ≤ place) (positive : 0 < multiple) :
    multiple * power = middle.value ∧ approximation = power ∨
      multiple * power < middle.value ∧
        multiple * approximation + margin * middle.gap < middle.value ∨
      middle.value < multiple * power ∧
        middle.value + margin * middle.gap < multiple * approximation := by
  obtain ⟨shift, rfl⟩ := Int.le.dest fine
  have step := middle.gap_pos
  have binade : (2 : ℚ) ^ (middle.unit + shift) = middle.gap * 2 ^ shift := by
    rw [zpow_add₀ two_ne_zero, zpow_natCast, gap]
  have scaled (factor : ℚ) : multiple * factor =
      (multiple * 2 ^ shift : Nat) * (factor / 2 ^ (middle.unit + shift)) * middle.gap := by
    rw [binade]
    push_cast
    field_simp
  have whole : middle.value = middle.whole * middle.gap := rfl
  rw [whole, scaled power, scaled approximation, ← add_mul, ← add_mul,
    mul_lt_mul_iff_left₀ step, mul_lt_mul_iff_left₀ step, mul_lt_mul_iff_left₀ step,
    mul_lt_mul_iff_left₀ step]
  rcases keeps.sides (multiple * 2 ^ shift) middle.whole
    (Nat.mul_pos positive (Nat.two_pow_pos shift)) middle.few with ⟨meets, same⟩ | off
  · rw [meets]
    exact .inl ⟨rfl, (div_left_inj' (zpow_ne_zero _ two_ne_zero)).mp same⟩
  · exact .inr off

/-- A factor that is about as large as a unit is not in a lower binade. -/
theorem unit_le_place (keeps : KeepsSides (power / 2 ^ place) (approximation / 2 ^ place))
    (large : (1 - 1 / 2 ^ 22) * middle.gap ≤ power) : middle.unit ≤ place := by
  by_contra! coarse
  have step := middle.gap_pos
  have binade : (2 : ℚ) * 2 ^ place ≤ middle.gap := by
    rw [mul_comm, ← zpow_add_one₀ two_ne_zero]
    exact zpow_le_zpow_right₀ one_le_two coarse
  have room : power ≤ (2 - 1 / 2 ^ 20) * 2 ^ place :=
    (div_le_iff₀ (zpow_pos two_pos place)).mp keeps.room
  linarith

/-- Rounding the factor does not move a multiple far. -/
theorem abs_multiple_sub_le (keeps : KeepsSides (power / 2 ^ place) (approximation / 2 ^ place))
    (multiple : Nat) :
    |multiple * approximation - multiple * power| ≤ multiple * power / 2 ^ 52 := by
  have close := keeps.close
  rw [← sub_div, abs_div, abs_of_pos (zpow_pos two_pos place : (0 : ℚ) < 2 ^ place), div_right_comm,
    div_le_div_iff_of_pos_right (zpow_pos two_pos place)] at close
  rw [← mul_sub, abs_mul, Nat.abs_cast, mul_div_assoc]
  exact mul_le_mul_of_nonneg_left close (Nat.cast_nonneg multiple)

/-- A multiple near a weight that is not above the middle after it is not taken across. -/
theorem below_of_near {value : ℚ}
    (keeps : KeepsSides (power / 2 ^ place) (approximation / 2 ^ place)) (positive : 0 < multiple)
    (next : middle.value = value + middle.gap) (atMost : multiple * power ≤ middle.value)
    (near : multiple * power - value ≤ power) :
    multiple * power = middle.value ∧ approximation = power ∨
      multiple * approximation + margin * middle.gap < middle.value := by
  rcases lt_or_ge (multiple * approximation + margin * middle.gap) middle.value with far | moved
  · exact .inr far
  -- The multiple is almost at the middle, so the factor spans the distance from there to the weight.
  have fine : middle.unit ≤ place := by
    refine unit_le_place keeps ?_
    have rounding := (abs_le.mp (abs_multiple_sub_le keeps multiple)).2
    have few := middle.value_lt
    have step := middle.gap_pos
    unfold margin at moved
    linarith
  rcases sides keeps fine positive with meets | ⟨-, far⟩ | ⟨above, -⟩
  · exact .inl meets
  · exact .inr far
  · exact absurd atMost above.not_ge

/-- A multiple near a weight that is not below the middle before it is not taken across. -/
theorem above_of_near {value : ℚ}
    (keeps : KeepsSides (power / 2 ^ place) (approximation / 2 ^ place)) (positive : 0 < multiple)
    (next : middle.value + middle.gap = value) (atLeast : middle.value ≤ multiple * power)
    (near : value - multiple * power ≤ power) :
    multiple * power = middle.value ∧ approximation = power ∨
      middle.value + margin * middle.gap < multiple * approximation := by
  rcases lt_or_ge (middle.value + margin * middle.gap) (multiple * approximation) with far | moved
  · exact .inr far
  have fine : middle.unit ≤ place := by
    refine unit_le_place keeps ?_
    have rounding := (abs_le.mp (abs_multiple_sub_le keeps multiple)).1
    have few := middle.value_lt
    have step := middle.gap_pos
    unfold margin at moved
    linarith
  rcases sides keeps fine positive with meets | ⟨below, -⟩ | ⟨-, far⟩
  · exact .inl meets
  · exact absurd atLeast below.not_ge
  · exact .inr far

end Sides

section Doubles

variable {middle : Middle} {target : ℚ} {word : Nat}

/-- A number that is some margins away from nothing is a double word. -/
theorem exists_double (middle : Middle) {count : Nat} (few : count ≤ 2 ^ 53)
    (bounded : count * (2 * margin * middle.gap) ≤
      Format.double.value Format.double.infinity) :
    ∃ code ≤ Format.double.infinity,
      Format.double.value code = count * (2 * margin * middle.gap) := by
  have step : 2 * margin * middle.gap = 2 ^ (middle.unit - 28) := by
    rw [margin, gap, zpow_sub₀ two_ne_zero]
    norm_num
    ring
  have least := middle.least
  have unit : Format.double.unit = 2 ^ 52 := by decide
  have leastExponent : Format.double.leastExponent = -1074 := by decide
  rw [step] at bounded ⊢
  exact Format.exists_code (by omega) (by omega) bounded

theorem value_eq_margins (middle : Middle) :
    middle.value = (middle.whole * 2 ^ 28 : Nat) * (2 * margin * middle.gap) := by
  rw [value, margin, gap]
  push_cast
  ring

/-- A middle is a double word. -/
theorem exists_double_value (middle : Middle)
    (bounded : middle.value ≤ Format.double.value Format.double.infinity) :
    ∃ code ≤ Format.double.infinity, Format.double.value code = middle.value := by
  have few := middle.few
  rw [value_eq_margins] at bounded ⊢
  exact exists_double middle (by unfold wholeLimit at few; omega) bounded

/-- What is below a middle by more than the margin is rounded to a number below it. -/
theorem double_lt (nearest : Format.double.IsNearest target word)
    (bounded : middle.value ≤ Format.double.value Format.double.infinity)
    (below : target + margin * middle.gap < middle.value) :
    Format.double.value word < middle.value := by
  have step := middle.gap_pos
  have marginPositive : 0 < margin := by decide +kernel
  have few := middle.few
  have some := middle.positive
  obtain ⟨code, within, atMiddle⟩ := exists_double_value middle bounded
  have before : ((middle.whole * 2 ^ 28 - 1 : Nat) : ℚ) * (2 * margin * middle.gap) =
      middle.value - 2 * margin * middle.gap := by
    rw [value_eq_margins, Nat.cast_sub (by omega)]
    push_cast
    ring
  obtain ⟨lower, -, atLower⟩ :=
    @exists_double middle (middle.whole * 2 ^ 28 - 1) (by unfold wholeLimit at few; omega)
      (by rw [before]; nlinarith)
  rw [before] at atLower
  have less : lower < code := by
    rw [← Format.double.value_strictMono.lt_iff_lt, atLower, atMiddle]
    nlinarith
  rw [← atMiddle]
  exact Format.double.value_strictMono
    (nearest.lt_of_lt_middle within less (by rw [atLower, atMiddle]; linarith))

/-- What is above a middle by more than the margin is rounded to a number above it. -/
theorem lt_double (nearest : Format.double.IsNearest target word)
    (bounded : middle.value + middle.gap ≤ Format.double.value Format.double.infinity)
    (above : middle.value + margin * middle.gap < target) :
    middle.value < Format.double.value word := by
  have step := middle.gap_pos
  have few := middle.few
  obtain ⟨code, within, atMiddle⟩ := exists_double_value middle (by linarith)
  have after : ((middle.whole * 2 ^ 28 + 1 : Nat) : ℚ) * (2 * margin * middle.gap) =
      middle.value + 2 * margin * middle.gap := by
    rw [value_eq_margins]
    push_cast
    ring
  obtain ⟨upper, within, atUpper⟩ :=
    @exists_double middle (middle.whole * 2 ^ 28 + 1) (by unfold wholeLimit at few; omega)
      (by rw [after]; unfold margin; linarith)
  rw [after] at atUpper
  have greater : code < upper := by
    rw [← Format.double.value_strictMono.lt_iff_lt, atUpper, atMiddle]
    unfold margin
    linarith
  rw [← atMiddle]
  exact Format.double.value_strictMono
    (nearest.gt_of_gt_middle within greater (by rw [atUpper, atMiddle]; linarith))

/-- A middle itself is not moved. -/
theorem double_eq (nearest : Format.double.IsNearest middle.value word)
    (bounded : middle.value ≤ Format.double.value Format.double.infinity) :
    Format.double.value word = middle.value := by
  obtain ⟨code, within, same⟩ := exists_double_value middle bounded
  rw [nearest.eq_of_value_eq within same, same]

end Doubles

end Middle

section Weights

variable {code multiple word : Nat}

section Sides

variable {power approximation : ℚ} {place : Int}

/-- What is not above the middle after a weight stays below it when it is read as a double word, or
meets it if that belongs to the weight. -/
theorem double_lt_or_even (keeps : KeepsSides (power / 2 ^ place) (approximation / 2 ^ place))
    (some : 0 < multiple)
    (largest : Format.single.value (code + 1) ≤ Format.double.value Format.double.infinity)
    (high : 2 * (multiple * power) ≤ Format.single.value code + Format.single.value (code + 1))
    (tie : 2 * (multiple * power) = Format.single.value code + Format.single.value (code + 1) →
      Even code)
    (near : multiple * power - Format.single.value code ≤ power)
    (nearest : Format.double.IsNearest (multiple * approximation) word) :
    2 * Format.double.value word < Format.single.value code + Format.single.value (code + 1) ∨
      2 * Format.double.value word =
        Format.single.value code + Format.single.value (code + 1) ∧ Even code := by
  have order := Format.single.value_strictMono.monotone (Nat.le_succ code)
  obtain ⟨middle, isMiddle, next⟩ := Middle.exists_above code
  have bounded : middle.value ≤ Format.double.value Format.double.infinity := by linarith
  rw [isMiddle] at high tie ⊢
  rcases Middle.below_of_near keeps some next (by linarith) near with ⟨meets, same⟩ | far
  · rw [same, meets] at nearest
    rw [Middle.double_eq nearest bounded]
    exact .inr ⟨rfl, tie (by rw [meets])⟩
  · have less := Middle.double_lt nearest bounded far
    exact .inl (by linarith)

/-- What is not below the middle before a weight stays above it when it is read as a double word, or
meets it if that belongs to the weight. -/
theorem lt_double_or_even (keeps : KeepsSides (power / 2 ^ place) (approximation / 2 ^ place))
    (some : 0 < multiple) (positive : 0 < code)
    (largest : Format.single.value (code + 1) ≤ Format.double.value Format.double.infinity)
    (low : Format.single.value (code - 1) + Format.single.value code ≤ 2 * (multiple * power))
    (tie : 2 * (multiple * power) = Format.single.value (code - 1) + Format.single.value code →
      Even code)
    (near : Format.single.value code - multiple * power ≤ power)
    (nearest : Format.double.IsNearest (multiple * approximation) word) :
    Format.single.value (code - 1) + Format.single.value code < 2 * Format.double.value word ∨
      2 * Format.double.value word =
        Format.single.value (code - 1) + Format.single.value code ∧ Even code := by
  have order := Format.single.value_strictMono.monotone (Nat.le_succ code)
  obtain ⟨middle, isMiddle, next⟩ := Middle.exists_below positive
  have bounded : middle.value + middle.gap ≤ Format.double.value Format.double.infinity := by
    linarith
  rw [isMiddle] at low tie ⊢
  rcases Middle.above_of_near keeps some next (by linarith) near with ⟨meets, same⟩ | far
  · rw [same, meets] at nearest
    rw [Middle.double_eq nearest (by linarith [middle.gap_pos])]
    exact .inr ⟨rfl, tie (by rw [meets])⟩
  · have greater := Middle.lt_double nearest bounded far
    exact .inl (by linarith)

end Sides

/-- A decimal that belongs to a weight is not zero. -/
theorem pos_of_isBetween {power : ℚ} (positive : 0 < code)
    (between : Format.single.IsBetween (multiple * power) code) : 0 < multiple := by
  have before := Format.single.value_strictMono.monotone (Nat.zero_le (code - 1))
  have value := Format.single.value_strictMono positive
  rw [Format.value_zero] at before value
  rcases Nat.eq_zero_or_pos multiple with rfl | some
  · have atMost := between.low
    rw [Nat.cast_zero, zero_mul] at atMost
    linarith
  · exact some

/-- A decimal that belongs to a weight, and is no further from it than its last place, still belongs
to the weight after it has been read as a double word. -/
theorem isBetween_double {exponent : Int} (low : -54 ≤ exponent) (high : exponent ≤ 38)
    (positive : 0 < code) (finite : code < Format.single.infinity)
    (between : Format.single.IsBetween (multiple * 10 ^ exponent) code)
    (near : |multiple * 10 ^ exponent - Format.single.value code| ≤ 10 ^ exponent)
    (nearest : Format.double.IsNearest (multiple * multiplier exponent) word) :
    Format.single.IsBetween (Format.double.value word) code := by
  have keeps := keepsSides_multiplier low high
  have some := pos_of_isBetween positive between
  have largest : Format.single.value (code + 1) ≤ Format.double.value Format.double.infinity :=
    (Format.single.value_strictMono.monotone finite).trans Binary.value_infinity_single_le_double
  obtain ⟨below, above⟩ := abs_le.mp near
  have upper := double_lt_or_even keeps some largest between.high
    (fun same => between.tie (.inr same)) above nearest
  have lower := lt_double_or_even keeps some positive largest between.low
    (fun same => between.tie (.inl same)) (by linarith) nearest
  refine ⟨?_, ?_, ?_⟩
  · exact lower.elim le_of_lt fun meets => meets.1.ge
  · exact upper.elim le_of_lt fun meets => meets.1.le
  · rintro (atLower | atUpper)
    · exact lower.elim (fun less => absurd atLower less.ne') And.right
    · exact upper.elim (fun less => absurd atUpper less.ne) And.right

end Weights

end BooleanQuery.Decimal
