import BooleanQuery.Binary.Format

/-!
# Words of a binary format

A word is a sign and a magnitude code. Two words are equal when their bits are; the
comparison of the numbers they stand for is `Word.sameNumber`, for which both zeros
are one number and a word that is not a number differs from every word.
-/

namespace BooleanQuery.Binary

/-- One word of a binary format. Words are distinguished by their bits, so the two
zeros and the various words that are not numbers remain apart. -/
structure Word (format : Format) where
  negative : Bool
  /-- Exponent and fraction field read as one number. -/
  magnitude : Nat
  bounded : magnitude < format.magnitudes
deriving DecidableEq, Repr

namespace Word

variable {format target : Format}

theorem magnitudes_positive (format : Format) : 0 < format.magnitudes :=
  Nat.lt_of_le_of_lt (Nat.zero_le _) format.infinity_lt_magnitudes

/-- The word with the given bits; bits above the sign are ignored. -/
def ofBits (bits : Nat) : Word format where
  negative := bits / format.magnitudes % 2 = 1
  magnitude := bits % format.magnitudes
  bounded := Nat.mod_lt _ (magnitudes_positive format)

/-- The bits of a word, the sign above the magnitude. -/
def toBits (word : Word format) : Nat :=
  (if word.negative then format.magnitudes else 0) + word.magnitude

/-- Reading the bits of a word gives the word. -/
theorem ofBits_toBits (word : Word format) : ofBits word.toBits = word := by
  obtain ⟨negative, magnitude, bounded⟩ := word
  have total : 0 < format.magnitudes := magnitudes_positive format
  cases negative with
  | false => simp [ofBits, toBits, Nat.mod_eq_of_lt bounded, Nat.div_eq_of_lt bounded]
  | true =>
      simp [ofBits, toBits, Nat.mod_eq_of_lt bounded, Nat.add_div_left _ total,
        Nat.div_eq_of_lt bounded]

/-- Positive zero. -/
def zero : Word format := ⟨false, 0, magnitudes_positive format⟩

/-- The infinity of the given sign. -/
def infinity (negative : Bool) : Word format :=
  ⟨negative, format.infinity, format.infinity_lt_magnitudes⟩

instance : Inhabited (Word format) := ⟨zero⟩

/-- Whether a word is not a number. -/
def isNaN (word : Word format) : Bool := format.infinity < word.magnitude

/-- Whether a word stands for a finite number. -/
def isFinite (word : Word format) : Bool := word.magnitude < format.infinity

/-- Whether a word is one of the two zeros. -/
def isZero (word : Word format) : Bool := word.magnitude = 0

/-- Whether a word stands for a number above zero, infinity included. -/
def isPositive (word : Word format) : Bool :=
  !word.negative && !word.isZero && !word.isNaN

/-- Whether two words stand for the same number: both zeros are one number, and a word
that is not a number agrees with none. -/
def sameNumber (left right : Word format) : Bool :=
  !left.isNaN && !right.isNaN && (left.isZero && right.isZero || left = right)

/-- The magnitude of a finite word as a ratio. -/
def ratio (word : Word format) : Nat × Nat :=
  let (up, down) := powerRatio (format.exponent word.magnitude)
  (format.significand word.magnitude * up, down)

/-- The word nearest to a ratio under the given sign. -/
def nearest (negative : Bool) (numerator denominator : Nat) : Word format :=
  ⟨negative, format.nearest numerator denominator,
    format.nearest_lt_magnitudes numerator denominator⟩

/-- The word nearest to an integer; the integer zero is the positive zero. -/
def ofInt (number : Int) : Word format :=
  nearest (number < 0) number.natAbs 1

/-- The nearest word of another format. Infinities remain, and a word that is not a
number becomes the infinity of its sign: no number read from a text is one. -/
def convert (word : Word format) : Word target :=
  if word.isFinite then
    let (numerator, denominator) := word.ratio
    nearest word.negative numerator denominator
  else infinity word.negative

/-- The product of two finite words, rounded once. -/
def product (left right : Word format) : Word format :=
  let (leftUp, leftDown) := left.ratio
  let (rightUp, rightDown) := right.ratio
  nearest (left.negative != right.negative) (leftUp * rightUp) (leftDown * rightDown)

/-- The quotient of two finite words, rounded once; the divisor is not zero. -/
def quotient (left right : Word format) : Word format :=
  let (leftUp, leftDown) := left.ratio
  let (rightUp, rightDown) := right.ratio
  nearest (left.negative != right.negative) (leftUp * rightDown) (leftDown * rightUp)

end Word

end BooleanQuery.Binary
