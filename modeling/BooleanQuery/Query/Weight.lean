import BooleanQuery.Decimal.Notation
import BooleanQuery.Json.Writer

/-!
# Weights

Weights are 32-bit floating-point numbers. Every word of the format is a weight, also
infinities and words that are not numbers; only a weight above zero has an effect.
-/

namespace BooleanQuery

open Decimal (Notation)
open Json (Number integerText)

/-- The weight of a query: a 32-bit floating-point number. -/
abbrev Weight := Binary.Word Binary.Format.single

namespace Weight

/-- The weight that leaves scores alone. -/
def zero : Weight := Binary.Word.zero

/-- The weight nearest to a number of a document. -/
def ofNumber : Number → Weight
  | .integer value => Binary.Word.ofInt value
  | .float value => value.convert

/-- Weights are written in places from a millionth up to thirteen whole digits, and a whole
number keeps a zero after its point. -/
def jsonNotation : Notation where
  plain leading := -6 ≤ leading && leading ≤ 12
  keepsFraction := true
  tie := .toEven

/-- The text of a weight in a JSON document, where only finite numbers can be written. -/
def json (weight : Weight) : List Char :=
  if weight.isFinite then jsonNotation.finite weight else "null".toList

/-- In plans weights are written in places throughout. -/
def plainNotation : Notation where
  plain _ := true
  keepsFraction := false
  tie := .up

/-- The text of a weight in a plan. -/
def text (weight : Weight) : List Char :=
  if weight.isNaN then "NaN".toList
  else if weight.isFinite then plainNotation.finite weight
  else if weight.negative then "-inf".toList
  else "inf".toList

end Weight

end BooleanQuery
