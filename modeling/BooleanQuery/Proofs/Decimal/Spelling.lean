import Mathlib.Algebra.Order.Ring.Rat
import BooleanQuery.Proofs.Decimal.Digits
import BooleanQuery.Proofs.Json.Spelling

/-!
# Decimals are spelled exactly

The texts of a decimal, with all places written out or with an exponent, are spellings of its
coefficient in units of its last place. Only a whole number with its places written out is
spelled with more digits: those of its zeros and the one after the point.
-/

namespace BooleanQuery.Decimal

open Json (Spelling digitValue)

/-- The digits as one integer. -/
def coefficient (decimal : Decimal) : Nat := Nat.ofDigitChars 10 decimal.digits 0

/-- The decimal exponent of the last digit. -/
def last (decimal : Decimal) : Int := decimal.leading - (decimal.digits.length - 1 : Nat)

/-- A decimal is made of digits, of which the first is not zero. -/
structure IsNormal (decimal : Decimal) : Prop where
  digits : ∀ digit ∈ decimal.digits, digit.isDigit
  leading : ∃ first others, decimal.digits = first :: others ∧ digitValue first ≠ 0

section Coefficients

variable {coefficient : Nat} (last : Int)

/-- Only zeros are dropped from the digits of a coefficient. -/
theorem digitsOf_eq_append_zeros (coefficient : Nat) : ∃ count,
    digitsOf coefficient = (ofCoefficient coefficient last).digits ++ zeros count := by
  refine ⟨((digitsOf coefficient).reverse.takeWhile (· == '0')).length, ?_⟩
  have dropped : (digitsOf coefficient).reverse.takeWhile (· == '0') =
      zeros ((digitsOf coefficient).reverse.takeWhile (· == '0')).length :=
    List.eq_replicate_of_mem fun digit member => by
      simpa using List.all_eq_true.mp List.all_takeWhile digit member
  have whole := congrArg List.reverse
    (@List.takeWhile_append_dropWhile _ (· == '0') (digitsOf coefficient).reverse)
  rw [List.reverse_append, List.reverse_reverse, dropped, zeros, List.reverse_replicate] at whole
  exact whole.symm

/-- The decimal of a positive coefficient starts with a digit that is not zero. -/
theorem isNormal_ofCoefficient (positive : 0 < coefficient) :
    (ofCoefficient coefficient last).IsNormal where
  digits _ := isDigit_of_mem_ofCoefficient
  leading := by
    obtain ⟨count, split⟩ := digitsOf_eq_append_zeros last coefficient
    obtain ⟨first, others, shape, nonzero⟩ := Json.toDigits_shape_of_pos positive
    rw [digitsOf, shape] at split
    cases found : (ofCoefficient coefficient last).digits with
    | nil =>
        rw [found, List.nil_append] at split
        have isZero : first = '0' := List.eq_of_mem_replicate (split ▸ List.mem_cons_self)
        rw [isZero] at nonzero
        exact absurd rfl nonzero
    | cons head tail =>
        rw [found, List.cons_append] at split
        obtain rfl := (List.cons.inj split).1
        exact ⟨first, tail, rfl, nonzero⟩

/-- The first digit stands as many places above the last one as there are digits. -/
theorem leading_ofCoefficient (coefficient : Nat) :
    (ofCoefficient coefficient last).leading + 1 = last + (digitsOf coefficient).length := by
  have some : 0 < (digitsOf coefficient).length := Nat.length_toDigits_pos
  have leading : (ofCoefficient coefficient last).leading =
      last + ((digitsOf coefficient).length - 1 : Nat) := rfl
  omega

/-- The decimal of a coefficient is the coefficient, in units of its last place. -/
theorem exists_zeros_ofCoefficient (positive : 0 < coefficient) : ∃ count : Nat,
    coefficient = (ofCoefficient coefficient last).coefficient * 10 ^ count ∧
      (ofCoefficient coefficient last).last = last + count := by
  obtain ⟨count, split⟩ := digitsOf_eq_append_zeros last coefficient
  obtain ⟨first, others, shape, -⟩ := (isNormal_ofCoefficient last positive).leading
  refine ⟨count, ?_, ?_⟩
  · have value := congrArg (Nat.ofDigitChars 10 · 0) split
    simp only [digitsOf, Nat.ofDigitChars_ten_toDigits, Nat.ofDigitChars_append, zeros,
      Nat.ofDigitChars_replicate_zero] at value
    exact value.trans (Nat.mul_comm _ _)
  · have lengths := congrArg List.length split
    rw [List.length_append, zeros, List.length_replicate] at lengths
    have some := congrArg List.length shape
    rw [List.length_cons] at some
    have first := leading_ofCoefficient last coefficient
    rw [Decimal.last]
    omega

end Coefficients

section Texts

variable {decimal : Decimal}

theorem ofDigitChars_zeros_append (count : Nat) (digits : List Char) :
    Nat.ofDigitChars 10 (zeros count ++ digits) 0 = Nat.ofDigitChars 10 digits 0 := by
  rw [Nat.ofDigitChars_append, zeros, Nat.ofDigitChars_replicate_zero, Nat.mul_zero]

theorem isDigit_of_mem_zeros {count : Nat} {digit : Char} (member : digit ∈ zeros count) :
    digit.isDigit := by
  rw [List.eq_of_mem_replicate member]
  decide

/-- A decimal below one is spelled with zeros in front. -/
theorem IsNormal.exists_spelling_of_small (normal : decimal.IsNormal) (small : decimal.leading < 0)
    (keepsFraction : Bool) : ∃ spelling : Spelling,
      spelling.text = decimal.places keepsFraction ∧ spelling.exponent = none ∧
        spelling.significand = decimal.coefficient ∧ spelling.unit = decimal.last := by
  obtain ⟨digits, first, others, shape, nonzero⟩ := normal
  refine ⟨{
    whole := ['0']
    fraction := zeros (-decimal.leading - 1).toNat ++ decimal.digits
    exponent := none
    digits := ?_
    leading := ⟨'0', [], rfl, .inr rfl⟩
    marked := .inl (by simp [shape]) }, ?_, rfl, ?_, ?_⟩
  · rw [List.forall_mem_append, List.forall_mem_append]
    exact ⟨fun _ => @isDigit_of_mem_zeros 1 _, fun _ => isDigit_of_mem_zeros, digits⟩
  · simp [Spelling.text, Spelling.fractionText, Spelling.exponentText, places, small, shape]
  · rw [Spelling.significand]
    exact (ofDigitChars_zeros_append 1 _).trans (ofDigitChars_zeros_append _ _)
  · rw [Spelling.unit, last]
    simp only [Option.getD_none, List.length_append, zeros, List.length_replicate, shape,
      List.length_cons]
    omega

/-- A decimal with places on both sides of the point is spelled with its own digits. -/
theorem IsNormal.exists_spelling_of_pointed (normal : decimal.IsNormal)
    (large : 0 ≤ decimal.leading) (pointed : decimal.leading.toNat + 1 < decimal.digits.length)
    (keepsFraction : Bool) : ∃ spelling : Spelling,
      spelling.text = decimal.places keepsFraction ∧ spelling.exponent = none ∧
        spelling.significand = decimal.coefficient ∧ spelling.unit = decimal.last := by
  obtain ⟨digits, first, others, shape, nonzero⟩ := normal
  have split := List.take_append_drop (decimal.leading.toNat + 1) decimal.digits
  have some : decimal.digits.drop (decimal.leading.toNat + 1) ≠ [] := by
    rw [Ne, List.drop_eq_nil_iff]
    omega
  refine ⟨{
    whole := decimal.digits.take (decimal.leading.toNat + 1)
    fraction := decimal.digits.drop (decimal.leading.toNat + 1)
    exponent := none
    digits := by rwa [split]
    leading := ⟨first, others.take decimal.leading.toNat, by rw [shape, List.take_succ_cons],
      .inl nonzero⟩
    marked := .inl some }, ?_, rfl, ?_, ?_⟩
  · have full : min (decimal.leading.toNat + 1) decimal.digits.length =
        decimal.leading.toNat + 1 := by omega
    simp [Spelling.text, Spelling.fractionText, Spelling.exponentText, places, Int.not_lt.mpr large, some,
      full, zeros]
  · rw [Spelling.significand, split, coefficient]
  · rw [Spelling.unit, last]
    simp only [Option.getD_none, List.length_drop]
    omega

/-- A decimal with places after the point is spelled with its own digits. -/
theorem IsNormal.exists_spelling_of_fraction (normal : decimal.IsNormal)
    (fraction : decimal.last < 0) (keepsFraction : Bool) : ∃ spelling : Spelling,
      spelling.text = decimal.places keepsFraction ∧ spelling.exponent = none ∧
        spelling.significand = decimal.coefficient ∧ spelling.unit = decimal.last := by
  by_cases small : decimal.leading < 0
  · exact normal.exists_spelling_of_small small keepsFraction
  · refine normal.exists_spelling_of_pointed (Int.not_lt.mp small) ?_ keepsFraction
    unfold last at fraction
    omega

/-- A whole number is spelled with its zeros and one more after the point. -/
theorem IsNormal.exists_spelling_of_whole (normal : decimal.IsNormal) (whole : 0 ≤ decimal.last) :
    ∃ spelling : Spelling, spelling.text = decimal.places true ∧ spelling.exponent = none ∧
      spelling.significand = decimal.coefficient * 10 ^ (decimal.last.toNat + 1) ∧
        spelling.unit = -1 := by
  obtain ⟨digits, first, others, shape, nonzero⟩ := normal
  have length : decimal.digits.length = others.length + 1 := by rw [shape, List.length_cons]
  have position : decimal.last = decimal.leading - (decimal.digits.length - 1 : Nat) := rfl
  have large : 0 ≤ decimal.leading := by omega
  have short : decimal.digits.length ≤ decimal.leading.toNat + 1 := by omega
  have count : decimal.leading.toNat + 1 - decimal.digits.length = decimal.last.toNat := by omega
  refine ⟨{
    whole := decimal.digits ++ zeros decimal.last.toNat
    fraction := ['0']
    exponent := none
    digits := ?_
    leading := ⟨first, others ++ zeros decimal.last.toNat, by rw [shape, List.cons_append],
      .inl nonzero⟩
    marked := .inl (List.cons_ne_nil _ _) }, ?_, rfl, ?_, rfl⟩
  · rw [List.forall_mem_append, List.forall_mem_append]
    exact ⟨⟨digits, fun _ => isDigit_of_mem_zeros⟩, fun _ => @isDigit_of_mem_zeros 1 _⟩
  · have noFraction : decimal.digits.drop (decimal.leading.toNat + 1) = [] :=
      List.drop_eq_nil_iff.mpr short
    have all : decimal.digits.take (decimal.leading.toNat + 1) = decimal.digits :=
      List.take_of_length_le short
    simp [Spelling.text, Spelling.fractionText, Spelling.exponentText, places, Int.not_lt.mpr large,
      noFraction, all, count]
  · rw [Spelling.significand, List.append_assoc, Nat.ofDigitChars_append, coefficient]
    have oneMore : zeros decimal.last.toNat ++ ['0'] = zeros (decimal.last.toNat + 1) :=
      List.replicate_succ'.symm
    rw [oneMore, zeros, Nat.ofDigitChars_replicate_zero, Nat.mul_comm]

/-- A decimal with an exponent is spelled with its own digits. -/
theorem IsNormal.exists_spelling_scientific (normal : decimal.IsNormal) : ∃ spelling : Spelling,
    spelling.text = decimal.scientific ∧ spelling.exponent = some decimal.leading ∧
      spelling.significand = decimal.coefficient ∧ spelling.unit = decimal.last := by
  obtain ⟨digits, first, others, shape, nonzero⟩ := normal
  rw [shape] at digits
  refine ⟨{
    whole := [first]
    fraction := others
    exponent := some decimal.leading
    digits := digits
    leading := ⟨first, [], rfl, .inr rfl⟩
    marked := .inr rfl }, ?_, rfl, ?_, ?_⟩
  · simp [Spelling.text, Spelling.fractionText, Spelling.exponentText, scientific, shape]
  · rw [Spelling.significand, coefficient, shape, List.singleton_append]
  · rw [Spelling.unit, last, shape, Option.getD_some, List.length_cons, Nat.add_sub_cancel]

end Texts

end BooleanQuery.Decimal
