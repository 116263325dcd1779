import BooleanQuery.Proofs.Decimal.Digits
import BooleanQuery.Proofs.Json.Number

/-!
# Spellings of numbers

A number that is no integer is spelled with a point, an exponent, or both. Its literal has the
digits of the spelling, and it is evaluated as the digits without the point, in units of the
power of ten that the last digit stands for.
-/

namespace BooleanQuery.Json

open Text (Bytes encode encode_append encode_cons)
open Decimal (digitsOf isDigit_of_mem_digitsOf)

variable {Mismatch : Type}

/-- How a number is spelled after its sign, if it is not spelled as an integer. -/
structure Spelling where
  whole : List Char
  fraction : List Char
  exponent : Option Int
  digits : ∀ digit ∈ whole ++ fraction, digit.isDigit
  leading : ∃ first others, whole = first :: others ∧ (digitValue first ≠ 0 ∨ others = [])
  marked : fraction ≠ [] ∨ exponent.isSome

namespace Spelling

variable (spelling : Spelling)

/-- The text of the fraction with its point. -/
def fractionText : List Char :=
  if spelling.fraction.isEmpty then [] else '.' :: spelling.fraction

/-- The text of the exponent with its mark. -/
def exponentText : List Char :=
  match spelling.exponent with
  | none => []
  | some exponent => 'e' :: (if exponent < 0 then '-' else '+') :: digitsOf exponent.natAbs

/-- The text of a spelling. -/
def text : List Char := spelling.whole ++ (spelling.fractionText ++ spelling.exponentText)

/-- The literal that is read. -/
def literal (negative : Bool) : NumberLiteral where
  negative := negative
  whole := spelling.whole.map digitValue
  fraction :=
    if spelling.fraction.isEmpty then none else some (spelling.fraction.map digitValue)
  exponent := spelling.exponent.map fun exponent =>
    (exponent < 0, (digitsOf exponent.natAbs).map digitValue)

/-- The digits without the point. -/
def significand : Nat := Nat.ofDigitChars 10 (spelling.whole ++ spelling.fraction) 0

/-- The power of ten that the last digit stands for. -/
def unit : Int := spelling.exponent.getD 0 - spelling.fraction.length

section Reading

/-- Digits go on as far as those of what follows. -/
theorem spanDigits_encode_append {digits : List Char} (each : ∀ digit ∈ digits, digit.isDigit)
    (rest : Bytes) : spanDigits (encode digits ++ rest) =
      (digits.map digitValue ++ (spanDigits rest).1, (spanDigits rest).2) := by
  induction digits with
  | nil => rfl
  | cons digit digits inductionHypothesis =>
      rw [List.forall_mem_cons] at each
      obtain ⟨bytes, value⟩ := digit?_of_isDigit each.1
      rw [encode_cons, bytes, List.append_assoc, List.singleton_append, spanDigits, value]
      simp only [inductionHypothesis each.2, List.map_cons, List.cons_append]

theorem takes_someDigits_encode {digits : List Char} (each : ∀ digit ∈ digits, digit.isDigit)
    (present : digits ≠ []) {rest : Bytes} (stops : spanDigits rest = ([], rest)) :
    (@someDigits Mismatch).Takes (encode digits ++ rest) (digits.map digitValue) rest := by
  refine takes_someDigits.mpr ⟨?_, by simpa using present⟩
  rw [spanDigits_encode_append each, stops, List.append_nil]

/-- The exponent is taken. -/
theorem exponentPart_encode :
    @exponentPart Mismatch (encode spelling.exponentText) =
      .ok ((spelling.literal false).exponent, []) := by
  unfold exponentText literal
  cases spelling.exponent with
  | none => rfl
  | some exponent =>
      have taken := @takes_someDigits_encode Mismatch (digitsOf exponent.natAbs)
        (fun _ => isDigit_of_mem_digitsOf) (by simp [digitsOf]) [] rfl
      rw [List.append_nil] at taken
      by_cases sign : exponent < 0
      · simp only [Option.map_some, sign, decide_true]
        exact takes_map.mpr ⟨_, taken, rfl⟩
      · simp only [Option.map_some, sign, decide_false]
        exact takes_map.mpr ⟨_, taken, rfl⟩

theorem spanDigits_exponentText :
    spanDigits (encode spelling.exponentText) = ([], encode spelling.exponentText) := by
  unfold exponentText
  cases spelling.exponent <;> rfl

/-- The fraction is taken before the exponent. -/
theorem fractionPart_encode :
    @fractionPart Mismatch (encode (spelling.fractionText ++ spelling.exponentText)) =
      .ok ((spelling.literal false).fraction, encode spelling.exponentText) := by
  have stops := spelling.spanDigits_exponentText
  unfold fractionText literal
  dsimp only
  split
  · unfold exponentText
    cases spelling.exponent <;> rfl
  · next some =>
      have taken := @takes_someDigits_encode Mismatch spelling.fraction
        (fun digit member => spelling.digits digit (List.mem_append_right _ member))
        (by simpa using some) _ stops
      rw [List.cons_append, encode_cons, encode_append]
      exact takes_map.mpr ⟨_, taken, rfl⟩

/-- A spelling is taken as its literal. -/
theorem takes_unsignedLiteral_text (negative : Bool) :
    (@unsignedLiteral Mismatch negative).Takes (encode spelling.text) (spelling.literal negative)
      [] := by
  obtain ⟨first, others, shape, -⟩ := spelling.leading
  have stops : spanDigits (encode (spelling.fractionText ++ spelling.exponentText)) =
      ([], encode (spelling.fractionText ++ spelling.exponentText)) := by
    unfold fractionText
    split
    · exact spelling.spanDigits_exponentText
    · rfl
  have whole : (@wholeDigits Mismatch).Takes (encode spelling.text) (spelling.whole.map digitValue)
      (encode (spelling.fractionText ++ spelling.exponentText)) := by
    rw [text, encode_append]
    exact takes_wholeDigits.mpr ⟨takes_someDigits_encode
      (fun digit member => spelling.digits digit (List.mem_append_left _ member))
      (by simp [shape]) stops, ne_zero_cons_of_leading spelling.leading⟩
  exact takes_unsignedLiteral.mpr ⟨_, _, _, _, _, whole, spelling.fractionPart_encode,
    spelling.exponentPart_encode, rfl⟩

/-- A spelling behind its sign is taken as its literal. -/
theorem takes_numberLiteral_text (negative : Bool) :
    (@numberLiteral Mismatch).Takes (encode ((if negative then ['-'] else []) ++ spelling.text))
      (spelling.literal negative) [] := by
  have taken := @takes_unsignedLiteral_text Mismatch spelling negative
  cases negative with
  | true => exact takes_numberLiteral.mpr (.inl ⟨rfl, taken⟩)
  | false =>
      obtain ⟨first, others, shape, -⟩ := spelling.leading
      have isDigit := spelling.digits first (by simp [shape])
      have bytes := (digit?_of_isDigit isDigit).1
      rw [text, shape, List.cons_append, encode_cons, bytes] at taken
      rw [text, shape]
      simp only [Bool.false_eq_true, if_false, List.nil_append, List.cons_append, encode_cons, bytes]
      exact takes_numberLiteral.mpr (.inr ⟨ne_minus_of_isDigit isDigit, taken⟩)

end Reading

section Evaluation

/-- The digits of a spelling are its significand, if they fit. -/
theorem significand_literal (bounded : spelling.significand ≤ greatestSignificand)
    (negative : Bool) : (spelling.literal negative).significand =
      (spelling.significand, -(spelling.fraction.length : Int)) := by
  unfold significand at bounded ⊢
  rw [Nat.ofDigitChars_append] at bounded ⊢
  have whole := @gather_eq greatestSignificand spelling.whole 0
    (Nat.le_trans (le_ofDigitChars spelling.fraction _) bounded)
  have fraction := gather_eq bounded
  unfold NumberLiteral.significand literal
  dsimp only
  rw [whole]
  by_cases none : spelling.fraction = []
  · simp [none]
  · simp [none, fraction]

/-- A spelling is evaluated as its significand in its unit. -/
theorem number_literal (bounded : spelling.significand ≤ greatestSignificand)
    (exponents : ∀ exponent ∈ spelling.exponent, exponent.natAbs ≤ greatestExponent)
    (negative : Bool) {value : Double}
    (isScaled : scaled negative spelling.significand spelling.unit = some value) :
    (spelling.literal negative).number = .ok (.float value) := by
  have noInteger : (spelling.literal negative).integer? = none := by
    unfold NumberLiteral.integer? literal
    dsimp only
    rcases spelling.marked with point | mark
    · simp [point]
    · obtain ⟨exponent, found⟩ := Option.isSome_iff_exists.mp mark
      simp [found]
  have sign : (spelling.literal negative).negative = negative := rfl
  have exponentEq : (spelling.literal negative).exponent =
      spelling.exponent.map fun exponent =>
        (decide (exponent < 0), (digitsOf exponent.natAbs).map digitValue) := rfl
  unfold NumberLiteral.number
  rw [noInteger, significand_literal spelling bounded, sign, exponentEq]
  unfold unit at isScaled
  cases found : spelling.exponent with
  | none =>
      rw [found, Option.getD_none, Int.zero_sub] at isScaled
      simp only [Option.map_none, isScaled]
  | some exponent =>
      have gathered : gather greatestExponent 0 ((digitsOf exponent.natAbs).map digitValue) =
          (exponent.natAbs, []) := by
        have digits := @gather_eq greatestExponent (Nat.toDigits 10 exponent.natAbs) 0
        rw [Nat.ofDigitChars_ten_toDigits] at digits
        exact digits (exponents exponent found)
      have total : (if exponent < 0 then -(spelling.fraction.length : Int) - exponent.natAbs
          else -(spelling.fraction.length : Int) + exponent.natAbs) =
          exponent - spelling.fraction.length := by
        split <;> omega
      rw [found, Option.getD_some] at isScaled
      simp only [Option.map_some, gathered, decide_eq_true_eq, total, isScaled]

end Evaluation

end Spelling

end BooleanQuery.Json
