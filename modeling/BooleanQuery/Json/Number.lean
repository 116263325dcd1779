import BooleanQuery.Binary.Word
import BooleanQuery.Json.Reader

/-!
# Numbers

A number literal is read in two steps: first its parts are taken off the text, then they
are evaluated. Integers that fit 64 bits keep their value; all other literals become
double words.

A double word is not the nearest one to the literal. Digits are gathered into an integer
below two to the power 64, those that no longer fit are dropped, the integer is rounded
to a double word, and this word is multiplied or divided by one power of ten, itself
rounded. The result is the contract of the format, so each rounding is kept.
-/

namespace BooleanQuery.Json

open Text (Bytes)
open Binary (Format Word)

/-- A 64-bit floating-point number. -/
abbrev Double := Word Format.double

/-- A number of a document: an integer that fits 64 bits, with or without sign, or a double
word. -/
inductive Number where
  | integer (value : Int)
  | float (value : Double)
deriving DecidableEq, Repr

/-- The parts of a number literal. -/
structure NumberLiteral where
  negative : Bool
  whole : List Nat
  fraction : Option (List Nat)
  /-- Whether the exponent is negative, and its digits, if there is one. -/
  exponent : Option (Bool × List Nat)
deriving DecidableEq, Repr

/-- The value of a decimal digit. -/
def digit? (byte : UInt8) : Option Nat :=
  if '0'.toUInt8 ≤ byte ∧ byte ≤ '9'.toUInt8 then some (byte.toNat - '0'.toNat) else none

/-- The digits at the beginning of a text, and the rest. -/
def spanDigits : Bytes → List Nat × Bytes
  | [] => ([], [])
  | byte :: rest =>
      match digit? byte with
      | none => ([], byte :: rest)
      | some digit =>
          let (digits, after) := spanDigits rest
          (digit :: digits, after)

/-- The digits and the rest together are as long as the text. -/
theorem spanDigits_length (text : Bytes) :
    (spanDigits text).1.length + (spanDigits text).2.length = text.length := by
  induction text with
  | nil => rfl
  | cons byte rest inductionHypothesis =>
      unfold spanDigits
      split
      · simp
      · simp only [List.length_cons]
        omega

variable {Mismatch : Type}

/-- Read one or more digits. A byte that stands in their place counts as read. -/
def someDigits : Reader Mismatch (List Nat) where
  run text :=
    match spanDigits text with
    | (digit :: digits, rest) => .ok (digit :: digits, rest)
    | ([], []) => .error (.next .endInValue [])
    | ([], byte :: rest) => .error (.next .invalidNumber (byte :: rest))
  shrinks {text _ rest} outcome := by
    have total := spanDigits_length text
    split at outcome
    · next digit digits after shape =>
        cases outcome
        rw [shape] at total
        simp only [List.length_cons] at total
        omega
    · cases outcome
    · cases outcome

/-- Read the whole part: no digit follows a leading zero. -/
def wholeDigits : Reader Mismatch (List Nat) where
  run text :=
    match someDigits.run text with
    | .ok (0 :: second :: others, rest) =>
        .error ⟨.malformed .invalidNumber, (second :: others).length + rest.length - 1⟩
    | outcome => outcome
  shrinks {text _ rest} outcome := by
    split at outcome
    · cases outcome
    · exact someDigits.shrinks outcome

/-- What may follow the whole part; nothing need be read. -/
def fractionPart (text : Bytes) : Outcome Mismatch (Option (List Nat)) :=
  match text with
  | [] => .ok (none, [])
  | byte :: rest =>
      if byte = '.'.toUInt8 then (someDigits.map some).run rest
      else .ok (none, byte :: rest)

/-- The sign of an exponent, plus by default. -/
def exponentSign (text : Bytes) : Bool × Bytes :=
  match text with
  | [] => (false, [])
  | byte :: rest =>
      if byte = '-'.toUInt8 then (true, rest)
      else if byte = '+'.toUInt8 then (false, rest)
      else (false, byte :: rest)

/-- What may follow the fraction; nothing need be read. -/
def exponentPart (text : Bytes) : Outcome Mismatch (Option (Bool × List Nat)) :=
  match text with
  | [] => .ok (none, [])
  | byte :: rest =>
      if byte = 'e'.toUInt8 ∨ byte = 'E'.toUInt8 then
        (someDigits.map fun digits => some ((exponentSign rest).1, digits)).run
          (exponentSign rest).2
      else .ok (none, byte :: rest)

/-- An optional fraction never lengthens a text. -/
theorem fractionPart_length_le {text rest : Bytes} {part : Option (List Nat)}
    (outcome : @fractionPart Mismatch text = .ok (part, rest)) :
    rest.length ≤ text.length := by
  unfold fractionPart at outcome
  split at outcome
  · cases outcome
    exact Nat.le_refl _
  · split at outcome
    · exact Nat.le_of_lt (Nat.lt_succ_of_lt ((someDigits.map some).shrinks outcome))
    · cases outcome
      exact Nat.le_refl _

/-- A sign never lengthens a text. -/
theorem exponentSign_length_le (text : Bytes) :
    (exponentSign text).2.length ≤ text.length := by
  unfold exponentSign
  split
  · exact Nat.le_refl _
  · split
    · exact Nat.le_succ _
    · split
      · exact Nat.le_succ _
      · exact Nat.le_refl _

/-- An optional exponent never lengthens a text. -/
theorem exponentPart_length_le {text rest : Bytes} {part : Option (Bool × List Nat)}
    (outcome : @exponentPart Mismatch text = .ok (part, rest)) :
    rest.length ≤ text.length := by
  unfold exponentPart at outcome
  split at outcome
  · cases outcome
    exact Nat.le_refl _
  · next byte following =>
      split at outcome
      · have shorter := (someDigits.map _).shrinks outcome
        have bound := exponentSign_length_le following
        simp only [List.length_cons]
        omega
      · cases outcome
        exact Nat.le_refl _

/-- Read the parts of a literal after its sign. -/
def unsignedLiteral (negative : Bool) : Reader Mismatch NumberLiteral where
  run text :=
    match wholeDigits.run text with
    | .error failure => .error failure
    | .ok (whole, afterWhole) =>
        match fractionPart afterWhole with
        | .error failure => .error failure
        | .ok (fraction, afterFraction) =>
            match exponentPart afterFraction with
            | .error failure => .error failure
            | .ok (exponent, rest) => .ok (⟨negative, whole, fraction, exponent⟩, rest)
  shrinks {text _ rest} outcome := by
    split at outcome
    · cases outcome
    · next whole afterWhole readWhole =>
        split at outcome
        · cases outcome
        · next fraction afterFraction readFraction =>
            split at outcome
            · cases outcome
            · next exponent rest' readExponent =>
                cases outcome
                exact Nat.lt_of_le_of_lt
                  (Nat.le_trans (exponentPart_length_le readExponent)
                    (fractionPart_length_le readFraction))
                  (wholeDigits.shrinks readWhole)

/-- Read the parts of a literal. -/
def numberLiteral : Reader Mismatch NumberLiteral where
  run
    | [] => .error (.next .endInValue [])
    | byte :: rest =>
        if byte = '-'.toUInt8 then (unsignedLiteral true).run rest
        else (unsignedLiteral false).run (byte :: rest)
  shrinks {text _ rest} outcome := by
    split at outcome
    · cases outcome
    · split at outcome
      · exact Nat.lt_succ_of_lt ((unsignedLiteral true).shrinks outcome)
      · exact (unsignedLiteral false).shrinks outcome

/-- Append digits to a number as long as it does not pass a limit; the digits from the
first that would are returned. -/
def gather (limit : Nat) (start : Nat) : List Nat → Nat × List Nat
  | [] => (start, [])
  | digit :: digits =>
      if start * 10 + digit ≤ limit then gather limit (start * 10 + digit) digits
      else (start, digit :: digits)

/-- The greatest integer of 64 bits. -/
def greatestSignificand : Nat := 18446744073709551615

/-- The greatest number whose negation is an integer of 64 bits with sign. -/
def greatestNegated : Nat := 9223372036854775808

/-- The greatest exponent that is evaluated. -/
def greatestExponent : Nat := 2147483647

/-- The double word nearest to a power of ten. -/
def tenPower (exponent : Nat) : Double := Word.nearest false (Nat.pow 10 exponent) 1

/-- The greatest exponent whose power of ten is a finite double word. -/
def greatestTenPower : Nat := 308

/-- Divide by a power of ten, in steps of the greatest one where it is larger; zero is
divided no further. -/
def scaleDown (value : Double) (exponent : Nat) : Double :=
  if exponent ≤ greatestTenPower then value.quotient (tenPower exponent)
  else if value.isZero then value
  else scaleDown (value.quotient (tenPower greatestTenPower)) (exponent - greatestTenPower)
termination_by exponent
decreasing_by
  simp only [greatestTenPower] at *
  omega

/-- Multiply by a power of ten; nothing if the product is not finite. -/
def scaleUp (value : Double) (exponent : Nat) : Option Double :=
  if exponent ≤ greatestTenPower then
    let product := value.product (tenPower exponent)
    if product.isFinite then some product else none
  else if value.isZero then some value
  else none

/-- The double word of a significand and a decimal exponent; nothing if it would not be
finite. -/
def scaled (negative : Bool) (significand : Nat) (exponent : Int) : Option Double :=
  let rounded : Double := Word.nearest negative significand 1
  if exponent < 0 then some (scaleDown rounded exponent.natAbs)
  else scaleUp rounded exponent.toNat

/-- The zero of the given sign. -/
def signedZero (negative : Bool) : Double := Word.nearest negative 0 1

namespace NumberLiteral

/-- The digits that count, as one integer, and the power of ten that they are units of.
Whole digits that do not fit raise the power; fraction digits that do not fit are
dropped. -/
def significand (literal : NumberLiteral) : Nat × Int :=
  let (whole, dropped) := gather greatestSignificand 0 literal.whole
  match literal.fraction with
  | none => (whole, dropped.length)
  | some fraction =>
      let (number, unused) := gather greatestSignificand whole fraction
      (number, (dropped.length : Int) - (fraction.length - unused.length : Nat))

/-- Whether a literal spells an integer: it has neither fraction nor exponent and fits 64
bits. Minus zero is no integer, because its sign would be lost. -/
def integer? (literal : NumberLiteral) : Option Int :=
  match literal.fraction, literal.exponent, gather greatestSignificand 0 literal.whole with
  | none, none, (number, []) =>
      if !literal.negative then some number
      else if 0 < number ∧ number ≤ greatestNegated then some (-number)
      else none
  | _, _, _ => none

/-- The number of a literal. A number out of range is noticed after its last digit, or
after the digit that takes its exponent past the greatest; the error holds the number of
digits left unread. -/
def number (literal : NumberLiteral) : Except Nat Number :=
  match literal.integer? with
  | some value => .ok (.integer value)
  | none =>
      let (significand, unit) := literal.significand
      let finish (exponent : Int) : Except Nat Number :=
        match scaled literal.negative significand exponent with
        | some value => .ok (.float value)
        | none => .error 0
      match literal.exponent with
      | none => finish unit
      | some (negativeExponent, digits) =>
          match gather greatestExponent 0 digits with
          | (exponent, []) =>
              finish (if negativeExponent then unit - exponent else unit + exponent)
          | (_, _ :: unread) =>
              if significand ≠ 0 ∧ !negativeExponent then .error unread.length
              else .ok (.float (signedZero literal.negative))

end NumberLiteral

/-- Read a number. -/
def number : Reader Mismatch Number where
  run text :=
    match numberLiteral.run text with
    | .error failure => .error failure
    | .ok (literal, rest) =>
        match literal.number with
        | .ok value => .ok (value, rest)
        | .error unread => .error ⟨.malformed .numberOutOfRange, rest.length + unread⟩
  shrinks {text _ rest} outcome := by
    split at outcome
    · cases outcome
    · next literal middle read =>
        split at outcome
        · cases outcome
          exact numberLiteral.shrinks read
        · cases outcome

end BooleanQuery.Json
