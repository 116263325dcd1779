import BooleanQuery.Proofs.Json.Number

/-!
# What is read as an integer spells it

Whatever a text goes on with, a number is read from it as an integer only if the text starts with
a spelling of this integer. Together with `SpellsInteger.takes_number` this says which literals are
integers: those of digits alone, perhaps after a minus sign.
-/

namespace BooleanQuery.Json

open Text (Bytes encode encode_cons)

variable {Mismatch : Type} {text rest : Bytes}

/-- A byte with the value of a digit is the byte of this digit. -/
theorem exists_isDigit_of_digit? {byte : UInt8} {value : Nat} (found : digit? byte = some value) :
    ∃ digit : Char, digit.isDigit ∧ String.utf8EncodeChar digit = [byte] ∧
      digitValue digit = value := by
  have digits : ∀ value < 10, (Nat.digitChar value).isDigit ∧
      (Nat.digitChar value).toUInt8.toNat = 48 + value ∧
      digitValue (Nat.digitChar value) = value := by
    decide
  unfold digit? at found
  split at found
  · next range =>
      simp only [UInt8.le_iff_toNat_le] at range
      have low : 48 ≤ byte.toNat := range.1
      have high : byte.toNat ≤ 57 := range.2
      have isValue : byte.toNat - 48 = value := Option.some.inj found
      obtain ⟨isDigit, spelled, valued⟩ := digits value (by omega)
      have same : (Nat.digitChar value).toUInt8 = byte := UInt8.toNat_inj.mp (by omega)
      exact ⟨Nat.digitChar value, isDigit, same ▸ (digit?_of_isDigit isDigit).1, valued⟩
  · cases found

/-- The digits that a text starts with are those of characters. -/
theorem exists_encode_of_spanDigits {values : List Nat} (span : spanDigits text = (values, rest)) :
    ∃ digits : List Char, text = encode digits ++ rest ∧ (∀ digit ∈ digits, digit.isDigit) ∧
      digits.map digitValue = values := by
  induction text generalizing values with
  | nil =>
      cases span
      exact ⟨[], rfl, nofun, rfl⟩
  | cons byte text inductionHypothesis =>
      rw [spanDigits] at span
      split at span
      · cases span
        exact ⟨[], rfl, nofun, rfl⟩
      · next value found =>
          obtain ⟨digit, isDigit, bytes, rfl⟩ := exists_isDigit_of_digit? found
          cases span
          obtain ⟨digits, shape, each, valued⟩ := inductionHypothesis rfl
          refine ⟨digit :: digits, ?_, List.forall_mem_cons.mpr ⟨isDigit, each⟩, ?_⟩
          · rw [encode_cons, bytes, List.append_assoc, ← shape, List.singleton_append]
          · rw [List.map_cons, valued]

/-- Digits that are all gathered are gathered to their number. -/
theorem ofDigitChars_eq_of_gather {limit start number : Nat} {digits : List Char}
    (gathered : gather limit start (digits.map digitValue) = (number, [])) :
    Nat.ofDigitChars 10 digits start = number := by
  induction digits generalizing start with
  | nil =>
      cases gathered
      rfl
  | cons digit digits inductionHypothesis =>
      rw [List.map_cons, gather] at gathered
      split at gathered
      · rw [Nat.ofDigitChars_cons, Nat.mul_comm]
        exact inductionHypothesis gathered
      · cases gathered

/-- Without a fraction nothing is read. -/
theorem eq_of_fractionPart (read : @fractionPart Mismatch text = .ok (none, rest)) :
    rest = text := by
  unfold fractionPart at read
  split at read
  · cases read
    rfl
  · split at read
    · obtain ⟨_, -, made⟩ := takes_map.mp read
      cases made
    · cases read
      rfl

/-- Without an exponent nothing is read. -/
theorem eq_of_exponentPart (read : @exponentPart Mismatch text = .ok (none, rest)) :
    rest = text := by
  unfold exponentPart at read
  split at read
  · cases read
    rfl
  · split at read
    · obtain ⟨_, -, made⟩ := takes_map.mp read
      cases made
    · cases read
      rfl

/-- A literal has an integer for its number only if it spells an integer. -/
theorem NumberLiteral.integer?_of_number {literal : NumberLiteral} {value : Int}
    (valued : literal.number = .ok (.integer value)) : literal.integer? = some value := by
  unfold number at valued
  split at valued
  · next found =>
      cases valued
      exact found
  · grind

/-- A literal that spells an integer has neither fraction nor exponent, its digits are those of the
integer, and this is not zero after a minus sign. -/
theorem NumberLiteral.eq_of_integer? {literal : NumberLiteral} {value : Int}
    (found : literal.integer? = some value) :
    ∃ number, literal = ⟨literal.negative, literal.whole, none, none⟩ ∧
      gather greatestSignificand 0 literal.whole = (number, []) ∧
      (literal.negative = false ∧ value = number ∨
        literal.negative = true ∧ 0 < number ∧ value = -number) := by
  obtain ⟨negative, whole, fraction, exponent⟩ := literal
  unfold integer? at found
  split at found
  · next number noFraction noExponent gathered =>
      refine ⟨number, ?_, gathered, ?_⟩
      · dsimp only at noFraction noExponent
        rw [noFraction, noExponent]
      · cases negative with
        | false => exact .inl ⟨rfl, (Option.some.inj found).symm⟩
        | true =>
            simp only [Bool.not_true, Bool.false_eq_true, if_false] at found
            split at found
            · next fits => exact .inr ⟨rfl, fits.1, (Option.some.inj found).symm⟩
            · cases found
  · cases found

/-- The digits of a literal without fraction and exponent spell the number that is gathered. -/
theorem exists_spellsNatural {negative : Bool} {whole : List Nat} {number : Nat}
    (taken : (@unsignedLiteral Mismatch negative).Takes text ⟨negative, whole, none, none⟩ rest)
    (gathered : gather greatestSignificand 0 whole = (number, [])) :
    ∃ digits, text = encode digits ++ rest ∧ SpellsNatural digits number := by
  obtain ⟨_, afterWhole, _, _, _, readWhole, readFraction, readExponent, made⟩ :=
    takes_unsignedLiteral.mp taken
  cases made
  obtain rfl := eq_of_fractionPart readFraction
  obtain rfl := eq_of_exponentPart readExponent
  obtain ⟨some, noZero⟩ := takes_wholeDigits.mp readWhole
  obtain ⟨span, present⟩ := takes_someDigits.mp some
  obtain ⟨digits, shape, each, rfl⟩ := exists_encode_of_spanDigits span
  refine ⟨digits, shape, each, ?_, ofDigitChars_eq_of_gather gathered⟩
  cases digits with
  | nil => exact absurd rfl present
  | cons first others =>
      refine ⟨first, others, rfl, ?_⟩
      cases others with
      | nil => exact .inr rfl
      | cons second later =>
          refine .inl fun isZero => noZero (digitValue second) (later.map digitValue) ?_
          rw [List.map_cons, isZero, List.map_cons]

theorem negative_of_takes {negative : Bool} {literal : NumberLiteral}
    (taken : (@unsignedLiteral Mismatch negative).Takes text literal rest) :
    literal.negative = negative := by
  obtain ⟨_, _, _, _, _, -, -, -, rfl⟩ := takes_unsignedLiteral.mp taken
  rfl

/-- A text starts with a spelling of the integer that is read from it. -/
theorem exists_spellsInteger {value : Int}
    (taken : (@number Mismatch).Takes text (.integer value) rest) :
    ∃ literal, text = literal ++ rest ∧ SpellsInteger literal value := by
  obtain ⟨⟨negative, whole, fraction, exponent⟩, read, valued⟩ := takes_number.mp taken
  obtain ⟨number, shape, gathered, sign⟩ :=
    NumberLiteral.eq_of_integer? (NumberLiteral.integer?_of_number valued)
  cases shape
  cases text with
  | nil => cases read
  | cons byte text =>
      rcases takes_numberLiteral.mp read with ⟨rfl, read⟩ | ⟨-, read⟩
      · obtain rfl := negative_of_takes read
        rcases sign with ⟨noSign, -⟩ | ⟨-, positive, rfl⟩
        · cases noSign
        · obtain ⟨digits, rfl, spells⟩ := exists_spellsNatural read gathered
          exact ⟨_, rfl, .negated spells positive⟩
      · obtain rfl := negative_of_takes read
        rcases sign with ⟨-, rfl⟩ | ⟨sign, -⟩
        · obtain ⟨digits, shape, spells⟩ := exists_spellsNatural read gathered
          exact ⟨_, shape, .natural spells⟩
        · cases sign

/-- No spelling of an integer starts with a quotation mark. -/
theorem SpellsInteger.ne_mark_cons {literal : Bytes} {value : Int}
    (spells : SpellsInteger literal value) (others : Bytes) : literal ≠ '"'.toUInt8 :: others := by
  intro shape
  cases spells with
  | natural spells =>
      obtain ⟨first, later, rfl, -⟩ := spells.leading
      obtain ⟨bytes, value⟩ := digit?_of_isDigit (spells.each first List.mem_cons_self)
      rw [encode_cons, bytes] at shape
      rw [(List.cons.inj shape).1] at value
      cases value
  | negated => nomatch (List.cons.inj shape).1

end BooleanQuery.Json
