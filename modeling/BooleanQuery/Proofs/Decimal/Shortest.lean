import BooleanQuery.Decimal.Shortest
import BooleanQuery.Proofs.Binary.Neighbours

/-!
# What the shortest search finds

The shortest decimal of a word rounds to the word, and no decimal of its grid is between it and
the value of the word. A grid as fine as a quarter of the last place of the word has a point
inside the interval of the word, so the search comes to an end early.
-/

namespace BooleanQuery

open Binary (Format Word powerRatio powerRatio_eq powerRatio_denominator_pos)

namespace Decimal

/-- A power of ten is the ratio that it is written as. -/
theorem tenRatio_eq (exponent : Int) :
    ((tenRatio exponent).1 : ℚ) = 10 ^ exponent * (tenRatio exponent).2 := by
  have up : ((tenRatio exponent).1 : ℚ) = 10 ^ exponent.toNat := Nat.cast_pow 10 exponent.toNat
  have down : ((tenRatio exponent).2 : ℚ) = 10 ^ (-exponent).toNat :=
    Nat.cast_pow 10 (-exponent).toNat
  have sum : (exponent.toNat : Int) = exponent + (-exponent).toNat := by omega
  rw [up, down, ← zpow_natCast, ← zpow_natCast, sum, zpow_add₀ (by norm_num)]

theorem tenRatio_denominator_pos (exponent : Int) : 0 < ((tenRatio exponent).2 : ℚ) :=
  Nat.cast_pos.mpr (Nat.pow_pos (by decide))

namespace Interval

section Grid

variable (interval : Interval) (last : Int)

/-- A quarter of the last place of a word, in the unit in which it is compared with decimals. -/
def binaryStep : Nat := (powerRatio interval.exponent).1 * (tenRatio last).2

/-- The spacing of the decimals, in the unit in which they are compared with words. -/
def decimalStep : Nat := (tenRatio last).1 * (powerRatio interval.exponent).2

/-- Whether a point of the grid rounds to the word. -/
def contains (point : Nat) : Bool :=
  if interval.closed then
    interval.lower * interval.binaryStep last ≤ point * interval.decimalStep last &&
      point * interval.decimalStep last ≤ interval.upper * interval.binaryStep last
  else
    interval.lower * interval.binaryStep last < point * interval.decimalStep last &&
      point * interval.decimalStep last < interval.upper * interval.binaryStep last

/-- The last point of the grid that is not above the value of the word. -/
def below : Nat := interval.centre * interval.binaryStep last / interval.decimalStep last

/-- The point of the grid that is nearest to the value of the word. -/
def nearer (tie : Tie) : Nat :=
  let twice := 2 * (interval.centre * interval.binaryStep last % interval.decimalStep last)
  if twice < interval.decimalStep last then interval.below last
  else if interval.decimalStep last < twice then interval.below last + 1
  else match tie with
    | .toEven => interval.below last + interval.below last % 2
    | .up => interval.below last + 1

/-- The nearest point is next to the value of the word. -/
theorem nearer_eq (tie : Tie) :
    interval.nearer last tie = interval.below last ∨
      interval.nearer last tie = interval.below last + 1 := by
  have parity := Nat.mod_two_eq_zero_or_one (interval.below last)
  unfold nearer
  dsimp only
  split
  · exact .inl rfl
  · split
    · exact .inr rfl
    · cases tie with
      | toEven => exact parity.imp (congrArg _) (congrArg _)
      | up => exact .inr rfl

/-- The search tries the nearest point, and then those next to the value of the word. -/
theorem gridPoint?_eq (tie : Tie) :
    interval.gridPoint? tie last =
      if interval.contains last (interval.nearer last tie) then some (interval.nearer last tie)
      else if interval.contains last (interval.below last) then some (interval.below last)
      else if interval.contains last (interval.below last + 1) then
        some (interval.below last + 1)
      else none := by
  cases tie <;> rfl

variable {interval last} {tie : Tie}

/-- The search takes a point that rounds to the word, and is next to the value of the word. -/
theorem of_gridPoint?_eq_some {point : Nat} (found : interval.gridPoint? tie last = some point) :
    interval.contains last point = true ∧
      (point = interval.below last ∨ point = interval.below last + 1) := by
  rw [gridPoint?_eq] at found
  split_ifs at found with isNearer isBelow isAbove
  · obtain rfl := Option.some.inj found
    exact ⟨isNearer, nearer_eq ..⟩
  · obtain rfl := Option.some.inj found
    exact ⟨isBelow, .inl rfl⟩
  · obtain rfl := Option.some.inj found
    exact ⟨isAbove, .inr rfl⟩

/-- The search takes a point if the last one that is not above the value rounds to the word. -/
theorem isSome_gridPoint? (rounds : interval.contains last (interval.below last) = true) :
    (interval.gridPoint? tie last).isSome := by
  rw [gridPoint?_eq, if_pos rounds]
  split <;> rfl

end Grid

section Rationals

variable (interval : Interval) (last : Int)

/-- The unit in which words and decimals are compared. -/
def scale : ℚ := (powerRatio interval.exponent).2 * (tenRatio last).2

theorem scale_pos : 0 < interval.scale last :=
  mul_pos (powerRatio_denominator_pos _) (tenRatio_denominator_pos _)

theorem binaryStep_eq : (interval.binaryStep last : ℚ) = 2 ^ interval.exponent * interval.scale last := by
  unfold binaryStep scale
  rw [Nat.cast_mul, powerRatio_eq]
  ring

theorem decimalStep_eq : (interval.decimalStep last : ℚ) = 10 ^ last * interval.scale last := by
  unfold decimalStep scale
  rw [Nat.cast_mul, tenRatio_eq]
  ring

/-- Comparing multiples of the two steps compares rational numbers. -/
theorem binary_le_decimal_iff {quarters point : Nat} :
    quarters * interval.binaryStep last ≤ point * interval.decimalStep last ↔
      (quarters * 2 ^ interval.exponent : ℚ) ≤ point * 10 ^ last := by
  rw [← @Nat.cast_le ℚ, Nat.cast_mul, Nat.cast_mul, binaryStep_eq, decimalStep_eq, ← mul_assoc,
    ← mul_assoc, mul_le_mul_iff_left₀ (interval.scale_pos last)]

/-- Comparing multiples of the two steps compares rational numbers. -/
theorem decimal_le_binary_iff {quarters point : Nat} :
    point * interval.decimalStep last ≤ quarters * interval.binaryStep last ↔
      (point * 10 ^ last : ℚ) ≤ quarters * 2 ^ interval.exponent := by
  rw [← @Nat.cast_le ℚ, Nat.cast_mul, Nat.cast_mul, binaryStep_eq, decimalStep_eq, ← mul_assoc,
    ← mul_assoc, mul_le_mul_iff_left₀ (interval.scale_pos last)]

/-- A point rounds to the word if it is in the interval, of which the ends belong to it or not. -/
theorem contains_iff {point : Nat} :
    interval.contains last point = true ↔
      ((interval.lower * 2 ^ interval.exponent : ℚ) < point * 10 ^ last ∨
        interval.closed = true ∧ (interval.lower * 2 ^ interval.exponent : ℚ) = point * 10 ^ last) ∧
      ((point * 10 ^ last : ℚ) < interval.upper * 2 ^ interval.exponent ∨
        interval.closed = true ∧ (point * 10 ^ last : ℚ) = interval.upper * 2 ^ interval.exponent) := by
  unfold contains
  cases interval.closed with
  | true =>
      simp only [if_true, Bool.and_eq_true, decide_eq_true_eq, binary_le_decimal_iff,
        decimal_le_binary_iff, true_and, ← le_iff_lt_or_eq]
  | false =>
      simp only [Bool.false_eq_true, if_false, Bool.and_eq_true, decide_eq_true_eq, false_and,
        or_false, ← not_le, binary_le_decimal_iff, decimal_le_binary_iff]

/-- The value of a word is between the last point that is not above it and the next one. -/
theorem below_bounds :
    (interval.below last * 10 ^ last : ℚ) ≤ interval.centre * 2 ^ interval.exponent ∧
      (interval.centre * 2 ^ interval.exponent : ℚ) <
        (interval.below last + 1 : Nat) * 10 ^ last := by
  have positive : 0 < interval.decimalStep last := by
    rw [← @Nat.cast_pos ℚ, decimalStep_eq]
    exact mul_pos (zpow_pos (by norm_num) last) (interval.scale_pos last)
  rw [← decimal_le_binary_iff, ← not_le, ← decimal_le_binary_iff, not_le]
  exact ⟨Nat.div_mul_le_self .., (Nat.div_lt_iff_lt_mul positive).mp (Nat.lt_succ_self _)⟩

variable {interval last} {tie : Tie} {point : Nat}

/-- No point of the grid is between the one that is taken and the value of the word. -/
theorem abs_sub_le_of_gridPoint? (found : interval.gridPoint? tie last = some point) :
    |(point * 10 ^ last : ℚ) - interval.centre * 2 ^ interval.exponent| ≤ 10 ^ last := by
  obtain ⟨atMost, above⟩ := interval.below_bounds last
  have positive : (0 : ℚ) < 10 ^ last := zpow_pos (by norm_num) last
  rw [Nat.cast_succ, add_mul, one_mul] at above
  rcases (of_gridPoint?_eq_some found).2 with rfl | rfl
  · rw [abs_le]
    constructor <;> linarith
  · rw [Nat.cast_succ, add_mul, one_mul, abs_le]
    constructor <;> linarith

/-- A grid that is as fine as a quarter of the last place of a word has a point that rounds to the
word. -/
theorem isSome_gridPoint?_of_fine (low : interval.lower < interval.centre)
    (high : interval.centre < interval.upper) (fine : (10 : ℚ) ^ last ≤ 2 ^ interval.exponent) :
    (interval.gridPoint? tie last).isSome := by
  obtain ⟨atMost, above⟩ := interval.below_bounds last
  have unit : (0 : ℚ) < 2 ^ interval.exponent := zpow_pos (by norm_num) interval.exponent
  rw [Nat.cast_succ, add_mul, one_mul] at above
  have lower : (interval.lower : ℚ) + 1 ≤ interval.centre := by exact_mod_cast low
  have upper : (interval.centre : ℚ) < interval.upper := by exact_mod_cast high
  refine isSome_gridPoint? ((interval.contains_iff last).mpr ⟨.inl ?_, .inl ?_⟩)
  · have quarter : (interval.lower + 1) * 2 ^ interval.exponent ≤
        (interval.centre * 2 ^ interval.exponent : ℚ) := by gcongr
    rw [add_mul, one_mul] at quarter
    linarith
  · exact atMost.trans_lt (mul_lt_mul_of_pos_right upper unit)

end Rationals

section Magnitudes

variable {format : Format} {code : Nat}

/-- The interval of a word is around its value. -/
theorem centre_eq (format : Format) (code : Nat) :
    ((ofMagnitude format code).centre : ℚ) * 2 ^ (ofMagnitude format code).exponent =
      format.value code := by
  unfold ofMagnitude Format.value
  dsimp only
  rw [zpow_sub₀ two_ne_zero]
  push_cast
  ring

/-- The upper end of the interval is in the middle to the next word. -/
theorem upper_eq (format : Format) (code : Nat) :
    2 * (((ofMagnitude format code).upper : ℚ) * 2 ^ (ofMagnitude format code).exponent) =
      format.value code + format.value (code + 1) := by
  rw [Format.value_succ, Format.value]
  unfold ofMagnitude
  dsimp only
  rw [zpow_sub₀ two_ne_zero]
  push_cast
  ring

/-- The interval has room below the value of a word that is not zero. -/
theorem lower_lt_centre (positive : 0 < code) :
    (ofMagnitude format code).lower < (ofMagnitude format code).centre := by
  have significand := format.significand_pos positive
  unfold ofMagnitude
  dsimp only
  split <;> omega

theorem centre_lt_upper (format : Format) (code : Nat) :
    (ofMagnitude format code).centre < (ofMagnitude format code).upper :=
  Nat.lt_add_of_pos_right (by decide)

/-- The lower end of the interval is in the middle to the word before. -/
theorem lower_eq (positive : 0 < code) :
    2 * (((ofMagnitude format code).lower : ℚ) * 2 ^ (ofMagnitude format code).exponent) =
      format.value (code - 1) + format.value code := by
  have significand := format.significand_pos positive
  have value : format.value code = format.significand code * 2 ^ format.exponent code := rfl
  unfold ofMagnitude
  dsimp only
  rw [zpow_sub₀ two_ne_zero, value]
  by_cases dense : code % format.unit = 0 ∧ format.unit < code
  · rw [Format.value_pred_of_dense format dense.1 dense.2, zpow_sub₀ two_ne_zero, zpow_one,
      if_pos (by simpa using dense), Nat.cast_sub (by omega)]
    push_cast
    ring
  · rw [Format.value_pred format positive dense, if_neg (by simpa using dense),
      Nat.cast_sub (by omega)]
    push_cast
    ring

/-- The ends of the interval of a word belong to it if its code is even. -/
theorem closed_iff (even : Even format.unit) :
    (ofMagnitude format code).closed = true ↔ Even code := by
  have fields : code % format.unit % 2 = code % 2 := Nat.mod_mod_of_dvd code even.two_dvd
  have unitEven : format.unit % 2 = 0 := Nat.even_iff.mp even
  unfold ofMagnitude Format.significand
  dsimp only
  rw [decide_eq_true_iff, Nat.even_iff]
  split <;> omega

/-- A point that is taken for a word belongs to it. -/
theorem isBetween_of_gridPoint? (even : Even format.unit) (positive : 0 < code) {tie : Tie}
    {last : Int} {point : Nat} (found : (ofMagnitude format code).gridPoint? tie last = some point) :
    format.IsBetween (point * 10 ^ last) code := by
  have contained := (contains_iff _ last).mp (of_gridPoint?_eq_some found).1
  have lower := @lower_eq format code positive
  have upper := upper_eq format code
  rw [closed_iff even] at contained
  obtain ⟨low, high⟩ := contained
  refine ⟨?_, ?_, ?_⟩
  · rw [← lower]
    rcases low with less | ⟨-, same⟩ <;> linarith
  · rw [← upper]
    rcases high with less | ⟨-, same⟩ <;> linarith
  · rw [← lower, ← upper]
    rintro (atLower | atUpper)
    · rcases low with less | ⟨even, -⟩
      · linarith
      · exact even
    · rcases high with less | ⟨even, -⟩
      · linarith
      · exact even

end Magnitudes

end Interval

section Leading

/-- A number is between the powers of ten that the number of its digits tells. -/
theorem digitsOf_bounds {number : Nat} (positive : 0 < number) :
    10 ^ ((digitsOf number).length - 1) ≤ number ∧ number < 10 ^ (digitsOf number).length := by
  have some : 0 < (digitsOf number).length := Nat.length_toDigits_pos
  constructor
  · by_contra! fewer
    rcases Nat.eq_zero_or_pos ((digitsOf number).length - 1) with one | more
    · rw [one, pow_zero] at fewer
      omega
    · have shorter : (digitsOf number).length ≤ (digitsOf number).length - 1 :=
        (Nat.length_toDigits_le_iff (by decide) more).mpr fewer
      omega
  · exact (Nat.length_toDigits_le_iff (by decide) some).mp le_rfl

/-- A positive ratio is between the powers of ten that its first digit tells. -/
theorem leadingExponent_bounds {numerator denominator : Nat} (positive : 0 < numerator)
    (isRatio : 0 < denominator) :
    (10 : ℚ) ^ leadingExponent numerator denominator * denominator ≤ numerator ∧
      (numerator : ℚ) < 10 ^ (leadingExponent numerator denominator + 1) * denominator := by
  unfold leadingExponent
  split
  · next whole =>
      obtain ⟨low, high⟩ := digitsOf_bounds (Nat.div_pos whole isRatio)
      have some : 0 < (digitsOf (numerator / denominator)).length := Nat.length_toDigits_pos
      generalize (digitsOf (numerator / denominator)).length = length at *
      have exponent : ((length - 1 : Nat) : Int) + 1 = length := by omega
      rw [exponent, zpow_natCast, zpow_natCast]
      have atMost : 10 ^ (length - 1) * denominator ≤ numerator :=
        (Nat.le_div_iff_mul_le isRatio).mp low
      have less : numerator < 10 ^ length * denominator := (Nat.div_lt_iff_lt_mul isRatio).mp high
      exact ⟨by exact_mod_cast atMost, by exact_mod_cast less⟩
  · next small =>
      -- One less than the reciprocal rounded up, which is not above the reciprocal.
      obtain ⟨quotient, rounded⟩ : ∃ quotient,
          (denominator + numerator - 1) / numerator = quotient + 1 :=
        ⟨_, (Nat.sub_add_cancel ((Nat.le_div_iff_mul_le positive).mpr (by omega))).symm⟩
      have notAbove : (quotient + 1) * numerator ≤ denominator + numerator - 1 :=
        rounded ▸ Nat.div_mul_le_self ..
      have below : denominator + numerator - 1 < (quotient + 1 + 1) * numerator :=
        (Nat.div_lt_iff_lt_mul positive).mp (rounded ▸ Nat.lt_succ_self _)
      have quotientPositive : 0 < quotient := by
        rcases Nat.eq_zero_or_pos quotient with rfl | positive
        · omega
        · exact positive
      rw [rounded, Nat.add_sub_cancel]
      obtain ⟨low, high⟩ := digitsOf_bounds quotientPositive
      have some : 0 < (digitsOf quotient).length := Nat.length_toDigits_pos
      generalize (digitsOf quotient).length = length at *
      have exponent : -(length : Int) + 1 = -((length - 1 : Nat) : Int) := by omega
      rw [exponent, zpow_neg, zpow_neg, zpow_natCast, zpow_natCast,
        inv_mul_le_iff₀ (by positivity), lt_inv_mul_iff₀ (by positivity)]
      have atMost : denominator ≤ 10 ^ length * numerator := by
        have enough : (quotient + 1) * numerator ≤ 10 ^ length * numerator := by gcongr; omega
        have split : (quotient + 1 + 1) * numerator = (quotient + 1) * numerator + numerator := by
          ring
        omega
      have less : 10 ^ (length - 1) * numerator < denominator := by
        have few : 10 ^ (length - 1) * numerator ≤ quotient * numerator := by gcongr
        have split : (quotient + 1) * numerator = quotient * numerator + numerator := by ring
        omega
      exact ⟨by exact_mod_cast atMost, by exact_mod_cast less⟩

end Leading

section Search

variable {format : Format}

/-- What stands before a number in a range are the smaller numbers. -/
theorem eq_range_of_range_eq_append {count first : Nat} {before after : List Nat}
    (split : List.range count = before ++ first :: after) : before = List.range first := by
  rw [List.range_eq_range', List.range'_eq_append_iff] at split
  obtain ⟨passed, -, rfl, rest⟩ := split
  cases later : count - passed with
  | zero =>
      rw [later] at rest
      nomatch rest
  | succ more =>
      rw [later, List.range'_succ] at rest
      obtain rfl := (List.cons.inj rest).1
      simp [List.range_eq_range']

/-- The value of a word is between the powers of ten that its first digit tells. -/
theorem leading_bounds {word : Word format} (positive : 0 < word.magnitude) :
    (10 : ℚ) ^ leadingExponent word.ratio.1 word.ratio.2 ≤ format.value word.magnitude ∧
      format.value word.magnitude < 10 ^ (leadingExponent word.ratio.1 word.ratio.2 + 1) := by
  have down : 0 < word.ratio.2 := Nat.two_pow_pos _
  have isRatio : (0 : ℚ) < word.ratio.2 := Nat.cast_pos.mpr down
  rw [← word.ratio_eq_value, le_div_iff₀ isRatio, div_lt_iff₀ isRatio]
  exact leadingExponent_bounds (Word.ratio_pos positive) down

/-- A grid with enough places after the first digit of a word is as fine as a quarter of its last
place. -/
theorem le_quarter_of_leading {code count : Nat} {leading : Int}
    (low : (10 : ℚ) ^ leading ≤ format.value code) (enough : 8 * format.unit ≤ 10 ^ count) :
    (10 : ℚ) ^ (leading - count) ≤ 2 ^ (Interval.ofMagnitude format code).exponent := by
  have significand : (format.significand code : ℚ) ≤ 2 * format.unit := by
    exact_mod_cast (format.significand_lt code).le
  have places : (8 * format.unit : ℚ) ≤ 10 ^ count := by exact_mod_cast enough
  have quarter : (Interval.ofMagnitude format code).exponent = format.exponent code - 2 := rfl
  rw [zpow_sub₀ (by norm_num), zpow_natCast, div_le_iff₀ (by positivity), quarter,
    zpow_sub₀ two_ne_zero]
  calc (10 : ℚ) ^ leading ≤ format.significand code * 2 ^ format.exponent code := low
    _ ≤ 2 * format.unit * 2 ^ format.exponent code := by gcongr
    _ = 2 ^ format.exponent code / 2 ^ (2 : Int) * (8 * format.unit) := by ring
    _ ≤ 2 ^ format.exponent code / 2 ^ (2 : Int) * 10 ^ count := by gcongr

/-- The search for the shortest decimal of a word takes a point of a grid that is at least as
coarse as one with which it is certain to succeed. -/
theorem exists_gridPoint {word : Word format} (nonzero : word.isZero = false) (tie : Tie)
    {count : Nat} (fine : 8 * format.unit ≤ 10 ^ count) (bounded : count ≤ format.precision) :
    ∃ point last, shortest tie word = ofCoefficient point last ∧
      (Interval.ofMagnitude format word.magnitude).gridPoint? tie last = some point ∧
      format.value word.magnitude < 10 ^ (last + count + 1) := by
  let interval := Interval.ofMagnitude format word.magnitude
  let leading := leadingExponent word.ratio.1 word.ratio.2
  let attempt (count : Nat) : Option Decimal :=
    (interval.gridPoint? tie (leading - count)).map (ofCoefficient · (leading - count))
  have search : shortest tie word =
      ((List.range (format.precision + 1)).findSome? attempt).getD zero := by
    unfold shortest
    rw [if_neg (by simp [nonzero])]
  have positive : 0 < word.magnitude := by
    have different : word.magnitude ≠ 0 := of_decide_eq_false nonzero
    omega
  obtain ⟨low, high⟩ := leading_bounds positive
  have succeeds : (attempt count).isSome := by
    rw [Option.isSome_map]
    exact Interval.isSome_gridPoint?_of_fine (Interval.lower_lt_centre positive)
      (Interval.centre_lt_upper format word.magnitude) (le_quarter_of_leading low fine)
  rcases found : (List.range (format.precision + 1)).findSome? attempt with _ | decimal
  · have failed := List.findSome?_eq_none_iff.mp found count (List.mem_range.mpr (by omega))
    rw [failed] at succeeds
    nomatch succeeds
  · obtain ⟨before, first, after, split, attempted, failed⟩ := List.findSome?_eq_some_iff.mp found
    obtain rfl := eq_range_of_range_eq_append split
    have early : first ≤ count := by
      by_contra! late
      rw [failed count (List.mem_range.mpr late)] at succeeds
      nomatch succeeds
    obtain ⟨point, taken, rfl⟩ := Option.map_eq_some_iff.mp attempted
    refine ⟨point, leading - first, by rw [search, found, Option.getD_some], taken, ?_⟩
    refine high.trans_le (zpow_le_zpow_right₀ (by norm_num) ?_)
    omega

end Search

end Decimal

end BooleanQuery
