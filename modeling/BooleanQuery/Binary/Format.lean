/-!
# Binary number formats

A format fixes how many significant bits a number keeps and how wide its exponent
is. Numbers of one sign are written as a *magnitude code*: the exponent field
followed by the fraction field, read as one natural number. Codes grow with the
numbers they stand for, so the code after the largest finite one is infinity and
all later codes are not numbers.

The module holds the arithmetic of magnitude codes: what a code stands for, and
which code is nearest to a ratio of natural numbers.
-/

namespace BooleanQuery.Binary

/-- A binary interchange format: the number of significant bits, the implicit one
included, and the width of the exponent field. -/
structure Format where
  precision : Nat
  exponentBits : Nat
deriving DecidableEq, Repr

namespace Format

/-- The 32-bit format. -/
def single : Format := ⟨24, 8⟩

/-- The 64-bit format. -/
def double : Format := ⟨53, 11⟩

/-- The least significand of a normal number; also the number of codes that share
one exponent field. -/
def unit (format : Format) : Nat := Nat.pow 2 (format.precision - 1)

/-- The exponent of the last place of the smallest numbers of the format. -/
def leastExponent (format : Format) : Int :=
  3 - (Nat.pow 2 (format.exponentBits - 1) + format.precision : Nat)

/-- The number of magnitude codes, those that are not numbers included. -/
def magnitudes (format : Format) : Nat := Nat.pow 2 format.exponentBits * format.unit

/-- The magnitude code of infinity. -/
def infinity (format : Format) : Nat := (Nat.pow 2 format.exponentBits - 1) * format.unit

/-- The integer by which a finite code multiplies a power of two. -/
def significand (format : Format) (code : Nat) : Nat :=
  if code < format.unit then code else format.unit + code % format.unit

/-- The exponent of the power of two that `significand` multiplies. The codes below
`unit` and those just above share the least exponent. -/
def exponent (format : Format) (code : Nat) : Int :=
  format.leastExponent + (code / format.unit - 1 : Nat)

theorem infinity_lt_magnitudes (format : Format) : format.infinity < format.magnitudes := by
  have unitPositive : 0 < format.unit := Nat.two_pow_pos _
  have fieldPositive : 0 < Nat.pow 2 format.exponentBits := Nat.two_pow_pos _
  unfold infinity magnitudes
  exact Nat.mul_lt_mul_of_pos_right (by omega) unitPositive

end Format

/-- The quotient of two natural numbers rounded to the nearest one; a tie goes to the
even neighbour. -/
def roundHalfEven (numerator denominator : Nat) : Nat :=
  let quotient := numerator / denominator
  let twice := 2 * (numerator % denominator)
  if twice < denominator then quotient
  else if denominator < twice then quotient + 1
  else quotient + quotient % 2

/-- A power of two written as a ratio, so that negative exponents stay exact. -/
def powerRatio (exponent : Int) : Nat × Nat :=
  (Nat.pow 2 exponent.toNat, Nat.pow 2 (-exponent).toNat)

/-- The greatest exponent whose power of two is at most the given positive ratio. The
logarithms of numerator and denominator fix it up to one. -/
def floorLog2 (numerator denominator : Nat) : Int :=
  let guess : Int := (numerator.log2 : Int) - denominator.log2
  let (up, down) := powerRatio guess
  if numerator * down < denominator * up then guess - 1 else guess

namespace Format

/-- The magnitude code nearest to a ratio, a tie going to the even significand and
everything beyond the largest finite number to infinity. The significand is rounded
at the last place of its binade, or at the least exponent where that is coarser; one
that rounds up to the next power of two carries into the exponent field by itself. -/
def nearest (format : Format) (numerator denominator : Nat) : Nat :=
  if numerator = 0 then 0
  else
    let last : Int := floorLog2 numerator denominator - (format.precision - 1 : Nat)
    let exponent := max format.leastExponent last
    let (up, down) := powerRatio exponent
    let significand := roundHalfEven (numerator * down) (denominator * up)
    min format.infinity ((exponent - format.leastExponent).toNat * format.unit + significand)

/-- Rounding never leaves the numbers and infinity. -/
theorem nearest_le_infinity (format : Format) (numerator denominator : Nat) :
    format.nearest numerator denominator ≤ format.infinity := by
  unfold nearest
  split
  · exact Nat.zero_le _
  · exact Nat.min_le_left _ _

theorem nearest_lt_magnitudes (format : Format) (numerator denominator : Nat) :
    format.nearest numerator denominator < format.magnitudes :=
  Nat.lt_of_le_of_lt (format.nearest_le_infinity numerator denominator)
    format.infinity_lt_magnitudes

end Format

end BooleanQuery.Binary
