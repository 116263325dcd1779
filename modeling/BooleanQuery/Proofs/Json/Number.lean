import BooleanQuery.Json.Writer
import BooleanQuery.Proofs.Json.Takes
import BooleanQuery.Proofs.Text.Utf8

/-!
# Numbers are read up to their end

A number ends where no digit, point or exponent goes on with it. What is read of a number
text does not depend on what follows its end, so a number that is read from a text of its
own is also read inside a document. The text of an integer is read back as the integer.
-/

namespace BooleanQuery.Json

open Text (Bytes encode encode_cons utf8EncodeChar_of_ascii)

variable {Mismatch : Type}

section Parts

variable {text rest : Bytes}

/-- Digits are taken if there are any. -/
theorem takes_someDigits {digits : List Nat} :
    (@someDigits Mismatch).Takes text digits rest ↔
      spanDigits text = (digits, rest) ∧ digits ≠ [] := by
  unfold Reader.Takes someDigits
  dsimp only
  rcases spanDigits text with ⟨_ | ⟨digit, others⟩, _ | ⟨byte, after⟩⟩
  · simp +contextual
  · simp +contextual
  · grind
  · grind

/-- The whole part is taken if no digit follows a leading zero. -/
theorem takes_wholeDigits {digits : List Nat} :
    (@wholeDigits Mismatch).Takes text digits rest ↔
      (@someDigits Mismatch).Takes text digits rest ∧
        ∀ second others, digits ≠ 0 :: second :: others := by
  unfold Reader.Takes wholeDigits
  dsimp only
  split
  · next second others after read =>
      simp only [read, reduceCtorEq, false_iff, Except.ok.injEq, Prod.mk.injEq, not_and]
      rintro ⟨rfl, -⟩ noZero
      exact noZero second others rfl
  · next noZero =>
      constructor
      · intro read
        exact ⟨read, fun second others leading => noZero second others rest (leading ▸ read)⟩
      · exact And.left

/-- A literal is taken as its three parts. -/
theorem takes_unsignedLiteral {negative : Bool} {literal : NumberLiteral} :
    (@unsignedLiteral Mismatch negative).Takes text literal rest ↔
      ∃ whole afterWhole fraction afterFraction exponent,
        (@wholeDigits Mismatch).Takes text whole afterWhole ∧
        @fractionPart Mismatch afterWhole = .ok (fraction, afterFraction) ∧
        @exponentPart Mismatch afterFraction = .ok (exponent, rest) ∧
        literal = ⟨negative, whole, fraction, exponent⟩ := by
  unfold Reader.Takes unsignedLiteral
  dsimp only
  constructor
  · intro taken
    split at taken
    · cases taken
    · next whole afterWhole readWhole =>
        split at taken
        · cases taken
        · next fraction afterFraction readFraction =>
            split at taken
            · cases taken
            · next exponent after readExponent =>
                cases taken
                exact ⟨whole, afterWhole, fraction, afterFraction, exponent, readWhole,
                  readFraction, readExponent, rfl⟩
  · rintro ⟨whole, afterWhole, fraction, afterFraction, exponent, readWhole, readFraction,
      readExponent, rfl⟩
    simp only [readWhole, readFraction, readExponent]

/-- A literal is taken after its sign, if it has one. -/
theorem takes_numberLiteral {byte : UInt8} {literal : NumberLiteral} :
    (@numberLiteral Mismatch).Takes (byte :: text) literal rest ↔
      byte = '-'.toUInt8 ∧ (@unsignedLiteral Mismatch true).Takes text literal rest ∨
        byte ≠ '-'.toUInt8 ∧
          (@unsignedLiteral Mismatch false).Takes (byte :: text) literal rest := by
  unfold Reader.Takes numberLiteral
  dsimp only
  split
  · next minus => simp [minus]
  · next noMinus => simp [noMinus]

/-- A number is taken as a literal that has a value. -/
theorem takes_number {value : Number} :
    (@number Mismatch).Takes text value rest ↔
      ∃ literal, (@numberLiteral Mismatch).Takes text literal rest ∧
        literal.number = .ok value := by
  unfold Reader.Takes number
  dsimp only
  constructor
  · intro taken
    split at taken
    · cases taken
    · next literal after read =>
        split at taken
        · next found valued =>
            cases taken
            exact ⟨literal, read, valued⟩
        · cases taken
  · rintro ⟨literal, read, valued⟩
    simp only [read, valued]

end Parts

/-- No number goes on with a text. -/
def EndsNumber (rest : Bytes) : Prop :=
  ∀ byte ∈ rest.head?, digit? byte = none ∧ byte ≠ '.'.toUInt8 ∧ byte ≠ 'e'.toUInt8 ∧
    byte ≠ 'E'.toUInt8

section Following

variable {text middle rest : Bytes}

/-- Digits end where the number does. -/
theorem spanDigits_append (ends : EndsNumber rest) (text : Bytes) :
    spanDigits (text ++ rest) = ((spanDigits text).1, (spanDigits text).2 ++ rest) := by
  induction text with
  | nil =>
      cases rest with
      | nil => rfl
      | cons byte rest => simp [spanDigits, (ends byte rfl).1]
  | cons byte text inductionHypothesis =>
      rw [List.cons_append, spanDigits, spanDigits]
      cases digit? byte with
      | none => rfl
      | some digit => simp only [inductionHypothesis]

theorem takes_someDigits_append (ends : EndsNumber rest) {digits : List Nat}
    (taken : (@someDigits Mismatch).Takes text digits middle) :
    (@someDigits Mismatch).Takes (text ++ rest) digits (middle ++ rest) := by
  obtain ⟨span, present⟩ := takes_someDigits.mp taken
  exact takes_someDigits.mpr ⟨by rw [spanDigits_append ends, span], present⟩

/-- An optional fraction is taken whatever follows the number. -/
theorem fractionPart_append (ends : EndsNumber rest) {part : Option (List Nat)}
    (read : @fractionPart Mismatch text = .ok (part, middle)) :
    @fractionPart Mismatch (text ++ rest) = .ok (part, middle ++ rest) := by
  cases text with
  | nil =>
      cases read
      cases rest with
      | nil => rfl
      | cons byte rest => exact if_neg (ends byte rfl).2.1
  | cons byte text =>
      rw [fractionPart] at read
      rw [List.cons_append, fractionPart]
      split at read
      · next point =>
          rw [if_pos point]
          obtain ⟨digits, taken, made⟩ := takes_map.mp read
          exact takes_map.mpr ⟨digits, takes_someDigits_append ends taken, made⟩
      · next noPoint =>
          cases read
          exact if_neg noPoint

/-- The sign of an exponent is that of its first byte. -/
theorem exponentSign_append {byte : UInt8} (text rest : Bytes) :
    exponentSign (byte :: text ++ rest) =
      ((exponentSign (byte :: text)).1, (exponentSign (byte :: text)).2 ++ rest) := by
  simp only [exponentSign, List.cons_append]
  split
  · rfl
  · split <;> rfl

/-- An optional exponent is taken whatever follows the number. -/
theorem exponentPart_append (ends : EndsNumber rest) {part : Option (Bool × List Nat)}
    (read : @exponentPart Mismatch text = .ok (part, middle)) :
    @exponentPart Mismatch (text ++ rest) = .ok (part, middle ++ rest) := by
  cases text with
  | nil =>
      cases read
      cases rest with
      | nil => rfl
      | cons byte rest => exact if_neg (not_or.mpr (ends byte rfl).2.2)
  | cons byte text =>
      rw [exponentPart] at read
      rw [List.cons_append, exponentPart]
      split at read
      · next isExponent =>
          rw [if_pos isExponent]
          obtain ⟨digits, taken, made⟩ := takes_map.mp read
          -- A digit has been read after the mark of the exponent, so no sign can follow it later.
          cases text with
          | nil => cases taken
          | cons sign text =>
              rw [exponentSign_append]
              exact takes_map.mpr ⟨digits, takes_someDigits_append ends taken, made⟩
      · next noExponent =>
          cases read
          exact if_neg noExponent

/-- A literal is taken whatever follows the number. -/
theorem takes_unsignedLiteral_append (ends : EndsNumber rest) {negative : Bool}
    {literal : NumberLiteral}
    (taken : (@unsignedLiteral Mismatch negative).Takes text literal middle) :
    (@unsignedLiteral Mismatch negative).Takes (text ++ rest) literal (middle ++ rest) := by
  obtain ⟨whole, afterWhole, fraction, afterFraction, exponent, readWhole, readFraction,
    readExponent, made⟩ := takes_unsignedLiteral.mp taken
  obtain ⟨digits, noZero⟩ := takes_wholeDigits.mp readWhole
  exact takes_unsignedLiteral.mpr ⟨whole, _, fraction, _, exponent,
    takes_wholeDigits.mpr ⟨takes_someDigits_append ends digits, noZero⟩,
    fractionPart_append ends readFraction, exponentPart_append ends readExponent, made⟩

/-- A number is taken whatever follows it. -/
theorem takes_number_append (ends : EndsNumber rest) {value : Number}
    (taken : (@number Mismatch).Takes text value middle) :
    (@number Mismatch).Takes (text ++ rest) value (middle ++ rest) := by
  obtain ⟨literal, read, valued⟩ := takes_number.mp taken
  refine takes_number.mpr ⟨literal, ?_, valued⟩
  cases text with
  | nil => cases read
  | cons byte text =>
      rcases takes_numberLiteral.mp read with ⟨minus, read⟩ | ⟨noMinus, read⟩
      · exact takes_numberLiteral.mpr (.inl ⟨minus, takes_unsignedLiteral_append ends read⟩)
      · exact takes_numberLiteral.mpr (.inr ⟨noMinus, takes_unsignedLiteral_append ends read⟩)

end Following

/-- A number starts with a minus sign or a digit. -/
theorem head_of_takes_number {text middle : Bytes} {value : Number}
    (taken : (@number Mismatch).Takes text value middle) :
    ∃ byte others, text = byte :: others ∧ (byte = '-'.toUInt8 ∨ (digit? byte).isSome) := by
  obtain ⟨literal, read, -⟩ := takes_number.mp taken
  cases text with
  | nil => cases read
  | cons byte others =>
      refine ⟨byte, others, rfl, ?_⟩
      rcases takes_numberLiteral.mp read with ⟨minus, -⟩ | ⟨-, read⟩
      · exact .inl minus
      · obtain ⟨whole, _, _, _, _, readWhole, -⟩ := takes_unsignedLiteral.mp read
        obtain ⟨span, present⟩ := takes_someDigits.mp (takes_wholeDigits.mp readWhole).1
        refine .inr ?_
        cases found : digit? byte with
        | some digit => rfl
        | none =>
            simp only [spanDigits, found, Prod.mk.injEq] at span
            exact absurd span.1.symm present

/-- What is neither a minus sign nor a digit starts no number. -/
theorem ne_of_startsNumber {byte other : UInt8}
    (start : byte = '-'.toUInt8 ∨ (digit? byte).isSome) (noMinus : other ≠ '-'.toUInt8)
    (noDigit : digit? other = none) : byte ≠ other := by
  rintro rfl
  rcases start with minus | digit
  · exact noMinus minus
  · simp [noDigit] at digit

/-- A number that is read from a text of its own is also read as a scalar inside a
document. -/
theorem scalar_run_of_takes_number {text rest : Bytes} {value : Number}
    (taken : (@number Mismatch).Takes text value []) (ends : EndsNumber rest) :
    (@scalar Mismatch).run (text ++ rest) = .ok (.number value, rest) := by
  obtain ⟨byte, others, rfl, start⟩ := head_of_takes_number taken
  have following := takes_number_append ends taken
  have differs (other : UInt8) := @ne_of_startsNumber byte other start
  have noWord : word? byte = none := by
    rw [word?, if_neg (differs _ (by decide) (by decide)),
      if_neg (differs _ (by decide) (by decide)), if_neg (differs _ (by decide) (by decide))]
  have noMark : byte ≠ '"'.toUInt8 := differs _ (by decide) (by decide)
  change ((@number Mismatch).Takes _ _ rest) at following
  unfold Reader.Takes at following
  rw [List.cons_append] at following ⊢
  simp only [scalar, noWord, if_neg noMark, if_pos start, Reader.map, following]

section Integers

/-- The value of a decimal digit. -/
def digitValue (digit : Char) : Nat := digit.toNat - '0'.toNat

/-- A decimal digit is one byte, which has its value. -/
theorem digit?_of_isDigit {digit : Char} (isDigit : digit.isDigit) :
    String.utf8EncodeChar digit = [digit.toUInt8] ∧
      digit? digit.toUInt8 = some (digitValue digit) := by
  have range : '0'.toNat ≤ digit.toNat ∧ digit.toNat ≤ '9'.toNat := by
    simp only [Char.isDigit, Bool.and_eq_true, decide_eq_true_eq] at isDigit
    exact isDigit
  have ascii : digit.toNat < 0x80 := Nat.lt_of_le_of_lt range.2 (by decide)
  have number : digit.toUInt8.toNat = digit.toNat :=
    Nat.mod_eq_of_lt (Nat.lt_trans ascii (by decide))
  have bytes : '0'.toUInt8 ≤ digit.toUInt8 ∧ digit.toUInt8 ≤ '9'.toUInt8 := by
    rw [UInt8.le_iff_toNat_le, UInt8.le_iff_toNat_le, number]
    exact range
  refine ⟨utf8EncodeChar_of_ascii ascii, ?_⟩
  rw [digit?, if_pos bytes, number]
  rfl

/-- Decimal digits are all taken. -/
theorem spanDigits_encode {digits : List Char} (each : ∀ digit ∈ digits, digit.isDigit) :
    spanDigits (encode digits) = (digits.map digitValue, []) := by
  induction digits with
  | nil => rfl
  | cons digit digits inductionHypothesis =>
      rw [List.forall_mem_cons] at each
      obtain ⟨bytes, value⟩ := digit?_of_isDigit each.1
      rw [encode_cons, bytes, List.singleton_append, spanDigits, value]
      simp only [inductionHypothesis each.2, List.map_cons]

/-- Digits that are read make a number larger. -/
theorem le_ofDigitChars (digits : List Char) (start : Nat) :
    start ≤ Nat.ofDigitChars 10 digits start := by
  induction digits generalizing start with
  | nil => exact Nat.le_refl _
  | cons digit digits inductionHypothesis =>
      rw [Nat.ofDigitChars_cons]
      exact Nat.le_trans (by omega) (inductionHypothesis _)

/-- Digits are all gathered if they stay below the limit. -/
theorem gather_eq {limit : Nat} {digits : List Char} {start : Nat}
    (bounded : Nat.ofDigitChars 10 digits start ≤ limit) :
    gather limit start (digits.map digitValue) = (Nat.ofDigitChars 10 digits start, []) := by
  induction digits generalizing start with
  | nil => rfl
  | cons digit digits inductionHypothesis =>
      rw [Nat.ofDigitChars_cons, Nat.mul_comm] at bounded ⊢
      have within : start * 10 + digitValue digit ≤ limit :=
        Nat.le_trans (le_ofDigitChars digits _) bounded
      rw [List.map_cons, gather, if_pos within]
      exact inductionHypothesis bounded

/-- The digits of a positive number do not start with a zero. -/
theorem toDigits_shape_of_pos {number : Nat} (positive : 0 < number) :
    ∃ first others, Nat.toDigits 10 number = first :: others ∧ digitValue first ≠ 0 := by
  induction number using Nat.strongRecOn with
  | ind number inductionHypothesis =>
      by_cases small : number < 10
      · have digits : ∀ number < 10, 0 < number → digitValue number.digitChar ≠ 0 := by decide
        exact ⟨_, [], Nat.toDigits_of_lt_base small, digits number small positive⟩
      · obtain ⟨first, others, shape, nonzero⟩ :=
          inductionHypothesis (number / 10) (by omega) (by omega)
        rw [Nat.toDigits_of_base_le (by decide) (Nat.le_of_not_lt small), shape]
        exact ⟨first, _, List.cons_append, nonzero⟩

/-- The digits of a number start with a zero only if this is the number. -/
theorem toDigits_shape (number : Nat) :
    ∃ first others, Nat.toDigits 10 number = first :: others ∧
      (digitValue first ≠ 0 ∨ others = []) := by
  rcases Nat.eq_zero_or_pos number with rfl | positive
  · exact ⟨'0', [], rfl, .inr rfl⟩
  · obtain ⟨first, others, shape, nonzero⟩ := toDigits_shape_of_pos positive
    exact ⟨first, others, shape, .inl nonzero⟩

/-- Where a digit follows the first one, the first is not a zero. -/
theorem ne_zero_cons_of_leading {digits : List Char}
    (leading : ∃ first others, digits = first :: others ∧ (digitValue first ≠ 0 ∨ others = []))
    (second : Nat) (later : List Nat) : digits.map digitValue ≠ 0 :: second :: later := by
  obtain ⟨first, others, rfl, leading⟩ := leading
  rw [List.map_cons]
  intro same
  obtain ⟨isZero, more⟩ := List.cons_eq_cons.mp same
  rcases leading with nonzero | rfl
  · exact nonzero isZero
  · cases more

/-- A digit is not a minus sign. -/
theorem ne_minus_of_isDigit {digit : Char} (isDigit : digit.isDigit) :
    digit.toUInt8 ≠ '-'.toUInt8 := by
  have value := (digit?_of_isDigit isDigit).2
  intro minus
  rw [minus] at value
  cases value

/-- Decimal digits spell a natural number; no digit follows a leading zero. -/
structure SpellsNatural (digits : List Char) (number : Nat) : Prop where
  each : ∀ digit ∈ digits, digit.isDigit
  leading : ∃ first others, digits = first :: others ∧ (digitValue first ≠ 0 ∨ others = [])
  value : Nat.ofDigitChars 10 digits 0 = number

/-- A text spells an integer: digits, perhaps after a minus sign. Minus zero is no integer. -/
inductive SpellsInteger : Bytes → Int → Prop where
  | natural {digits : List Char} {number : Nat} (spells : SpellsNatural digits number) :
      SpellsInteger (encode digits) number
  | negated {digits : List Char} {number : Nat} (spells : SpellsNatural digits number)
      (positive : 0 < number) : SpellsInteger (encode ('-' :: digits)) (-number)

namespace SpellsNatural

variable {digits : List Char} {number : Nat}

theorem of_toDigits (number : Nat) : SpellsNatural (Nat.toDigits 10 number) number where
  each _ member := Nat.isDigit_of_mem_toDigits (by decide) (by decide) member
  leading := toDigits_shape number
  value := Nat.ofDigitChars_ten_toDigits

/-- The digits of a number are taken as its literal. -/
theorem takes_unsignedLiteral (spells : SpellsNatural digits number) (negative : Bool) :
    (@unsignedLiteral Mismatch negative).Takes (encode digits)
      ⟨negative, digits.map digitValue, none, none⟩ [] := by
  obtain ⟨first, others, shape, -⟩ := spells.leading
  have whole : (@wholeDigits Mismatch).Takes (encode digits) (digits.map digitValue) [] :=
    takes_wholeDigits.mpr
      ⟨takes_someDigits.mpr ⟨spanDigits_encode spells.each, by simp [shape]⟩,
        ne_zero_cons_of_leading spells.leading⟩
  exact Json.takes_unsignedLiteral.mpr ⟨_, [], none, [], none, whole, rfl, rfl, rfl⟩

/-- The digits of an integer that fits 64 bits are evaluated to it. -/
theorem number_eq (spells : SpellsNatural digits number) (negative : Bool)
    (bounded : number ≤ greatestSignificand)
    (signed : negative → 0 < number ∧ number ≤ greatestNegated) :
    NumberLiteral.number ⟨negative, digits.map digitValue, none, none⟩ =
      .ok (.integer (if negative then -number else number)) := by
  have gathered : gather greatestSignificand 0 (digits.map digitValue) = (number, []) := by
    rw [gather_eq (spells.value ▸ bounded), spells.value]
  cases negative with
  | false => simp [NumberLiteral.number, NumberLiteral.integer?, gathered]
  | true => simp [NumberLiteral.number, NumberLiteral.integer?, gathered, signed rfl]

end SpellsNatural

/-- The text of an integer spells it. -/
theorem spellsInteger_integerText (value : Int) :
    SpellsInteger (encode (integerText value)) value := by
  cases value with
  | ofNat natural =>
      have written : integerText (.ofNat natural) = Nat.toDigits 10 natural := Nat.toList_repr
      rw [written]
      exact .natural (.of_toDigits natural)
  | negSucc predecessor =>
      have written : integerText (.negSucc predecessor) =
          '-' :: Nat.toDigits 10 (predecessor + 1) := by
        change ("-" ++ (predecessor + 1).repr).toList = _
        rw [String.toList_append, Nat.toList_repr]
        rfl
      rw [written]
      exact .negated (.of_toDigits (predecessor + 1)) (Nat.succ_pos predecessor)

/-- An integer that fits 64 bits is taken from its spellings. -/
theorem SpellsInteger.takes_number {literal : Bytes} {value : Int}
    (spells : SpellsInteger literal value) (low : -(greatestNegated : Int) ≤ value)
    (high : value ≤ greatestSignificand) :
    (@number Mismatch).Takes literal (.integer value) [] := by
  refine Json.takes_number.mpr ?_
  cases spells with
  | @natural digits number spells =>
      have taken := @SpellsNatural.takes_unsignedLiteral Mismatch _ _ spells false
      obtain ⟨first, others, rfl, -⟩ := spells.leading
      have isDigit := spells.each first List.mem_cons_self
      have spelled : encode (first :: others) = first.toUInt8 :: encode others := by
        rw [encode_cons, (digit?_of_isDigit isDigit).1, List.singleton_append]
      rw [spelled] at taken ⊢
      exact ⟨_, takes_numberLiteral.mpr (.inr ⟨ne_minus_of_isDigit isDigit, taken⟩),
        spells.number_eq false (Int.ofNat_le.mp high) nofun⟩
  | @negated digits number spells positive =>
      have bounded : number ≤ greatestNegated := by omega
      exact ⟨_, takes_numberLiteral.mpr (.inl ⟨rfl, spells.takes_unsignedLiteral true⟩),
        spells.number_eq true (Nat.le_trans bounded (by decide)) fun _ => ⟨positive, bounded⟩⟩

theorem takes_number_integerText {value : Int} (low : -(greatestNegated : Int) ≤ value)
    (high : value ≤ greatestSignificand) :
    (@number Mismatch).Takes (encode (integerText value)) (.integer value) [] :=
  (spellsInteger_integerText value).takes_number low high

end Integers

end BooleanQuery.Json
