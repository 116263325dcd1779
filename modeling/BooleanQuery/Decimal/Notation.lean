import BooleanQuery.Decimal.Shortest

/-!
# Decimal notation

A notation says how a decimal is spelled: for which exponents all places are written
out, whether a whole number keeps a fraction digit, and where ties of the shortest
search go. Outside the plain range the first digit is followed by the others and a
signed exponent.
-/

namespace BooleanQuery

open Binary (Format Word)

namespace Decimal

/-- The decisions of a number format. -/
structure Notation where
  /-- Whether all places are written out for a first digit of this exponent. -/
  plain : Int → Bool
  keepsFraction : Bool
  tie : Tie

/-- `count` zero digits. -/
def zeros (count : Nat) : List Char := List.replicate count '0'

/-- All places of a decimal: whole part, point and fraction. -/
def places (keepsFraction : Bool) (decimal : Decimal) : List Char :=
  if decimal.leading < 0 then
    '0' :: '.' :: zeros (-decimal.leading - 1).toNat ++ decimal.digits
  else
    let width := decimal.leading.toNat + 1
    let whole := decimal.digits.take width
    let fraction := decimal.digits.drop width
    whole ++ zeros (width - whole.length) ++
      (if fraction.isEmpty then (if keepsFraction then ['.', '0'] else [])
       else '.' :: fraction)

/-- First digit, other digits after a point, and a signed exponent. -/
def scientific (decimal : Decimal) : List Char :=
  let others := decimal.digits.drop 1
  decimal.digits.take 1 ++ (if others.isEmpty then [] else '.' :: others) ++
    'e' :: (if decimal.leading < 0 then '-' else '+') :: digitsOf decimal.leading.natAbs

/-- The text of a decimal in a notation. -/
def text (style : Notation) (decimal : Decimal) : List Char :=
  if style.plain decimal.leading then decimal.places style.keepsFraction
  else decimal.scientific

/-- The text of a finite word: a minus sign where the sign bit is set, also on zero, and
the shortest decimal. -/
def Notation.finite {format : Format} (style : Notation) (word : Word format) : List Char :=
  (if word.negative then ['-'] else []) ++ (shortest style.tie word).text style

end Decimal

end BooleanQuery
