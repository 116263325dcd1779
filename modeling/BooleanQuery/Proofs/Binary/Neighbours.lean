import BooleanQuery.Proofs.Binary.Rounding

/-!
# Neighbours of a code

The codes next to a code bound what is rounded to it: everything between the middles on both
sides. Rounding keeps the order, and what has a code of its own is not moved. So a target stays
on its side of every number that has a code.
-/

namespace BooleanQuery.Binary

namespace Format

variable (format : Format)

theorem significand_pos {code : Nat} (positive : 0 < code) : 0 < format.significand code := by
  have unitPositive : 0 < format.unit := Nat.two_pow_pos _
  unfold Format.significand
  split <;> omega

theorem significand_lt (code : Nat) : format.significand code < 2 * format.unit := by
  have unitPositive : 0 < format.unit := Nat.two_pow_pos _
  have field := Nat.mod_lt code unitPositive
  unfold Format.significand
  split <;> omega

/-- A code is a significand in a binade. -/
theorem significand_exponent_place {binade significand : Nat}
    (within : significand < 2 * format.unit) (normal : binade = 0 ∨ format.unit ≤ significand) :
    format.significand (binade * format.unit + significand) = significand ∧
      format.exponent (binade * format.unit + significand) = format.leastExponent + binade := by
  have positive : 0 < format.unit := Nat.two_pow_pos _
  unfold Format.significand Format.exponent
  rcases lt_or_ge significand format.unit with small | large
  · obtain rfl := normal.resolve_right (not_le.mpr small)
    simp [small, Nat.div_eq_of_lt small]
  · obtain ⟨offset, rfl⟩ := Nat.exists_eq_add_of_le large
    have code : binade * format.unit + (format.unit + offset) =
        format.unit * (binade + 1) + offset := by ring
    have inside : offset < format.unit := by omega
    have notSmall : ¬ format.unit * (binade + 1) + offset < format.unit := by
      rw [← code]
      omega
    rw [code, if_neg notSmall, Nat.mul_add_mod, Nat.mod_eq_of_lt inside,
      Nat.mul_add_div positive, Nat.div_eq_of_lt inside]
    simp

/-- The next code stands for one more unit in the last place, also where a new binade begins. -/
theorem value_succ (code : Nat) :
    format.value (code + 1) = (format.significand code + 1) * 2 ^ format.exponent code := by
  obtain ⟨binade, significand, rfl, within, normal⟩ := format.exists_place code
  obtain ⟨digits, exponent⟩ := format.significand_exponent_place within normal
  rw [digits, exponent, add_assoc,
    value_place format within (normal.imp_right Nat.le_succ_of_le), Nat.cast_succ]

/-- The code before another one is in the same binade, with one unit less, or it is the last one in
the binade below. -/
theorem exists_place_pred {code : Nat} (positive : 0 < code) :
    ∃ binade significand, code - 1 = binade * format.unit + significand ∧
      format.value (code - 1) = significand * 2 ^ (format.leastExponent + binade) ∧
      ((format.significand code = significand + 1 ∧
          format.exponent code = format.leastExponent + binade ∧
          ¬(code % format.unit = 0 ∧ format.unit < code)) ∨
        (significand + 1 = 2 * format.unit ∧ format.significand code = format.unit ∧
          format.exponent code = format.leastExponent + binade + 1 ∧
          code % format.unit = 0 ∧ format.unit < code)) := by
  have unitPositive : 0 < format.unit := Nat.two_pow_pos _
  obtain ⟨binade, significand, before, within, normal⟩ := format.exists_place (code - 1)
  refine ⟨binade, significand, before, ?_, ?_⟩
  · rw [before, value_place format within.le normal]
  obtain rfl : code = binade * format.unit + (significand + 1) := by omega
  rcases lt_or_eq_of_le (Nat.succ_le_of_lt within) with inside | atEnd
  · obtain ⟨digits, exponent⟩ :=
      format.significand_exponent_place inside (normal.imp_right Nat.le_succ_of_le)
    refine .inl ⟨digits, exponent, ?_⟩
    rintro ⟨atStart, above⟩
    -- A significand below that of normal numbers has no binade below it.
    have atUnit : significand + 1 = format.unit := by
      rw [Nat.mul_add_mod_self_right] at atStart
      rcases lt_or_ge (significand + 1) format.unit with small | large
      · rw [Nat.mod_eq_of_lt small] at atStart
        omega
      · obtain ⟨offset, same⟩ := Nat.exists_eq_add_of_le large
        rw [same, Nat.add_mod_left, Nat.mod_eq_of_lt (by omega)] at atStart
        omega
    obtain rfl := normal.resolve_right (by omega)
    omega
  · have next : binade * format.unit + (significand + 1) =
        (binade + 1) * format.unit + format.unit := by
      have split : (binade + 1) * format.unit = binade * format.unit + format.unit := by ring
      omega
    have inside : format.unit < 2 * format.unit := by omega
    obtain ⟨digits, exponent⟩ :=
      @significand_exponent_place format (binade + 1) format.unit inside (.inr le_rfl)
    rw [next]
    refine .inr ⟨atEnd, digits, ?_, ?_, ?_⟩
    · rw [exponent, Nat.cast_succ, add_assoc]
    · simp
    · have atLeast : format.unit ≤ (binade + 1) * format.unit :=
        Nat.le_mul_of_pos_left format.unit (Nat.succ_pos binade)
      omega

/-- The code before that of a power of two stands for half a unit less, unless it is one of the
smallest numbers. -/
theorem value_pred_of_dense {code : Nat} (atStart : code % format.unit = 0)
    (above : format.unit < code) :
    format.value (code - 1) =
      (2 * format.significand code - 1) * 2 ^ (format.exponent code - 1) := by
  obtain ⟨binade, significand, -, value, ⟨-, -, notDense⟩ | ⟨atEnd, digits, exponent, -⟩⟩ :=
    format.exists_place_pred (Nat.zero_lt_of_lt above)
  · exact absurd ⟨atStart, above⟩ notDense
  · have last : (significand : ℚ) + 1 = 2 * format.unit := by exact_mod_cast atEnd
    rw [value, digits, exponent, add_sub_cancel_right, ← last, add_sub_cancel_right]

/-- The code before another one stands for one unit less. -/
theorem value_pred {code : Nat} (positive : 0 < code)
    (notDense : ¬(code % format.unit = 0 ∧ format.unit < code)) :
    format.value (code - 1) = (format.significand code - 1) * 2 ^ format.exponent code := by
  obtain ⟨binade, significand, -, value, ⟨digits, exponent, -⟩ | ⟨-, -, -, dense⟩⟩ :=
    format.exists_place_pred positive
  · rw [value, digits, exponent, Nat.cast_succ, add_sub_cancel_right]
  · exact absurd dense notDense

section Nearest

variable {format} {target : ℚ} {code other : Nat}

/-- Rounding does not move what has a code. -/
theorem IsNearest.eq_of_value_eq (nearest : format.IsNearest target code)
    (bounded : other ≤ format.infinity) (same : format.value other = target) : code = other := by
  by_contra different
  have next := nearest.nearer other bounded (Ne.symm different)
  rw [same, sub_self, abs_zero] at next
  rcases next with nearer | ⟨atTarget, -⟩
  · exact absurd nearer (abs_nonneg _).not_gt
  · have reached := sub_eq_zero.mp (abs_eq_zero.mp atTarget)
    exact different (format.value_strictMono.injective (reached.symm.trans same.symm))

/-- Rounding goes to the side of a middle on which the target is. -/
theorem IsNearest.lt_of_lt_middle {lower : Nat} (nearest : format.IsNearest target code)
    (bounded : other ≤ format.infinity) (less : lower < other)
    (below : 2 * target < format.value lower + format.value other) : code < other := by
  by_contra! passed
  have lowerLess := format.value_strictMono less
  have beyond := format.value_strictMono.monotone passed
  have distance : |target - format.value lower| < |target - format.value code| := by
    rw [abs_sub_comm target (format.value code),
      abs_of_nonneg (by linarith : 0 ≤ format.value code - target), abs_lt]
    constructor <;> linarith
  rcases nearest.nearer lower (less.le.trans bounded) (less.trans_le passed).ne with
    nearer | ⟨equal, -⟩
  · exact lt_asymm nearer distance
  · exact distance.ne' equal

/-- Rounding goes to the side of a middle on which the target is. -/
theorem IsNearest.gt_of_gt_middle {upper : Nat} (nearest : format.IsNearest target code)
    (bounded : upper ≤ format.infinity) (greater : other < upper)
    (above : format.value other + format.value upper < 2 * target) : other < code := by
  by_contra! passed
  have upperGreater := format.value_strictMono greater
  have beyond := format.value_strictMono.monotone passed
  have distance : |target - format.value upper| < |target - format.value code| := by
    rw [abs_of_nonneg (by linarith : 0 ≤ target - format.value code), abs_lt]
    constructor <;> linarith
  rcases nearest.nearer upper bounded (passed.trans_lt greater).ne' with nearer | ⟨equal, -⟩
  · exact lt_asymm nearer distance
  · exact distance.ne' equal

/-- A target is between the middles to the codes next to a code, where a middle itself counts if
the code is even. -/
structure IsBetween (format : Format) (target : ℚ) (code : Nat) : Prop where
  low : format.value (code - 1) + format.value code ≤ 2 * target
  high : 2 * target ≤ format.value code + format.value (code + 1)
  tie : (2 * target = format.value (code - 1) + format.value code ∨
    2 * target = format.value code + format.value (code + 1)) → Even code

/-- A code is the nearest one to everything between the middles next to it. -/
theorem IsBetween.isNearest (between : format.IsBetween target code)
    (finite : code < format.infinity) : format.IsNearest target code where
  bounded := finite.le
  nearer other bounded different := by
    obtain ⟨low, high, tie⟩ := between
    rcases lt_or_gt_of_ne different with less | greater
    · have below := format.value_strictMono less
      have far : format.value other ≤ format.value (code - 1) :=
        format.value_strictMono.monotone (Nat.le_sub_one_of_lt less)
      have distance : |target - format.value other| = target - format.value other :=
        abs_of_nonneg (by linarith)
      have atMost : |target - format.value code| ≤ target - format.value other := by
        rw [abs_le]
        constructor <;> linarith
      rw [distance]
      refine (lt_or_eq_of_le atMost).imp_right fun same => ⟨same, tie (.inl ?_)⟩
      rcases abs_choice (target - format.value code) with sign | sign <;>
        rw [sign] at same <;> linarith
    · have above := format.value_strictMono greater
      have far : format.value (code + 1) ≤ format.value other :=
        format.value_strictMono.monotone greater
      have distance : |target - format.value other| = format.value other - target := by
        rw [abs_sub_comm]
        exact abs_of_nonneg (by linarith)
      have atMost : |target - format.value code| ≤ format.value other - target := by
        rw [abs_le]
        constructor <;> linarith
      rw [distance]
      refine (lt_or_eq_of_le atMost).imp_right fun same => ⟨same, tie (.inr ?_)⟩
      rcases abs_choice (target - format.value code) with sign | sign <;>
        rw [sign] at same <;> linarith

/-- What is written in a binade of a format has a code. -/
theorem exists_code {significand : Nat} {exponent : Int}
    (atMost : significand ≤ 2 * format.unit) (least : format.leastExponent ≤ exponent)
    (bounded : (significand : ℚ) * 2 ^ exponent ≤ format.value format.infinity) :
    ∃ code ≤ format.infinity, format.value code = significand * 2 ^ exponent := by
  suffices found : ∃ code, format.value code = significand * 2 ^ exponent by
    obtain ⟨code, same⟩ := found
    refine ⟨code, ?_, same⟩
    rw [← same] at bounded
    exact format.value_strictMono.le_iff_le.mp bounded
  obtain ⟨binade, rfl⟩ : ∃ binade : Nat, exponent = format.leastExponent + binade :=
    ⟨(exponent - format.leastExponent).toNat, by omega⟩
  clear least bounded
  -- A significand that is too small for its binade is doubled in the binade below.
  induction binade generalizing significand with
  | zero => exact ⟨_, format.value_place atMost (.inl rfl)⟩
  | succ binade inductionHypothesis =>
      rcases lt_or_ge significand format.unit with small | large
      · obtain ⟨code, same⟩ := @inductionHypothesis (2 * significand) (by omega)
        refine ⟨code, same.trans ?_⟩
        rw [Nat.cast_succ, ← add_assoc, zpow_add_one₀ two_ne_zero]
        push_cast
        ring
      · exact ⟨_, format.value_place atMost (.inr large)⟩

end Nearest

end Format

theorem Word.ratio_pos {format : Format} {word : Word format} (positive : 0 < word.magnitude) :
    0 < word.ratio.1 :=
  Nat.mul_pos (format.significand_pos positive) (Nat.two_pow_pos _)

end BooleanQuery.Binary
