import BooleanQuery.Binary.Word

/-!
# Shortest decimals

The shortest decimal of a word is the one with the fewest digits among those that
round back to the word, and of these the nearest to its value.

A word stands for every number of an interval around its value; the ends belong to it
exactly when its significand is even, because that is where rounding sends a tie. On a
grid of decimals, if any point lies in the interval then so does one of the two grid
points next to the value, so it is enough to look at these two. Grids are tried from
one digit upwards. All comparisons are made between natural numbers.
-/

namespace BooleanQuery

open Binary (Format Word powerRatio)

/-- A positive decimal in scientific form: `leading` is the exponent of the first
digit, and the last digit is not zero. Zero is the single digit zero. -/
structure Decimal where
  digits : List Char
  leading : Int
deriving DecidableEq, Repr

namespace Decimal

/-- Where the exact middle of two decimals goes: to the one whose last digit is even, or up. -/
inductive Tie where
  | toEven
  | up
deriving DecidableEq, Repr

/-- The decimal digits of a natural number. -/
def digitsOf (number : Nat) : List Char := Nat.toDigits 10 number

/-- The number that decimal digits spell; there is at least one. -/
def naturalOfDigits? (digits : List Char) : Option Nat :=
  if !digits.isEmpty && digits.all Char.isDigit then some (Nat.ofDigitChars 10 digits 0)
  else none

/-- Zero as a decimal. -/
def zero : Decimal := ⟨['0'], 0⟩

/-- The decimal of `coefficient` units of the power of ten `last`; zeros at the end of
the coefficient are dropped. -/
def ofCoefficient (coefficient : Nat) (last : Int) : Decimal where
  digits := ((digitsOf coefficient).reverse.dropWhile (· == '0')).reverse
  leading := last + ((digitsOf coefficient).length - 1 : Nat)

/-- A power of ten as a ratio, so that negative exponents stay exact. -/
def tenRatio (exponent : Int) : Nat × Nat :=
  (Nat.pow 10 exponent.toNat, Nat.pow 10 (-exponent).toNat)

/-- The exponent of the first decimal digit of a positive ratio. Below one it is read
off the number of zeros that the reciprocal, rounded up, calls for. -/
def leadingExponent (numerator denominator : Nat) : Int :=
  if denominator ≤ numerator then
    ((digitsOf (numerator / denominator)).length - 1 : Nat)
  else
    -((digitsOf ((denominator + numerator - 1) / numerator - 1)).length : Int)

/-- The numbers that round to one word, in quarters of its last place: the word itself
is at `centre`, and the ends belong to the interval when it is `closed`. -/
structure Interval where
  lower : Nat
  centre : Nat
  upper : Nat
  /-- The exponent of the power of two that the three multiply. -/
  exponent : Int
  closed : Bool
deriving DecidableEq, Repr

/-- The interval of a finite word. Below a power of two numbers are twice as dense, so
the lower end is nearer there, except next to the smallest numbers. -/
def Interval.ofMagnitude (format : Format) (code : Nat) : Interval :=
  let significand := format.significand code
  let dense := code % format.unit = 0 && format.unit < code
  { lower := 4 * significand - (if dense then 1 else 2)
    centre := 4 * significand
    upper := 4 * significand + 2
    exponent := format.exponent code - 2
    closed := significand % 2 = 0 }

/-- The point of the decimal grid with spacing ten to the power `last` that rounds to
the word, if there is one; of two such points the nearer to the value. -/
def Interval.gridPoint? (interval : Interval) (tie : Tie) (last : Int) : Option Nat :=
  let (binaryUp, binaryDown) := powerRatio interval.exponent
  let (decimalUp, decimalDown) := tenRatio last
  let binary := binaryUp * decimalDown
  let step := decimalUp * binaryDown
  let inside (point : Nat) : Bool :=
    if interval.closed then
      interval.lower * binary ≤ point * step && point * step ≤ interval.upper * binary
    else
      interval.lower * binary < point * step && point * step < interval.upper * binary
  let below := interval.centre * binary / step
  let twice := 2 * (interval.centre * binary % step)
  let nearer :=
    if twice < step then below
    else if step < twice then below + 1
    else match tie with
      | .toEven => below + below % 2
      | .up => below + 1
  if inside nearer then some nearer
  else if inside below then some below
  else if inside (below + 1) then some (below + 1)
  else none

/-- The shortest decimal of the magnitude of a finite word. As many digits as the word
has significant bits always suffice, so the search ends before its bound. -/
def shortest {format : Format} (tie : Tie) (word : Word format) : Decimal :=
  if word.isZero then zero
  else
    let interval := Interval.ofMagnitude format word.magnitude
    let (numerator, denominator) := word.ratio
    let leading := leadingExponent numerator denominator
    let attempt (count : Nat) : Option Decimal :=
      let last := leading - count
      (interval.gridPoint? tie last).map (ofCoefficient · last)
    ((List.range (format.precision + 1)).findSome? attempt).getD zero

end Decimal

end BooleanQuery
