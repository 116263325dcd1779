import BooleanQuery.Decimal.Notation
import BooleanQuery.Json.Value

/-!
# Compact texts

A value is written without blanks. Double words have the shortest digits that read back,
in places as long as the first digit is not too far from the point.
-/

namespace BooleanQuery.Json

open Decimal (Notation)

/-- Double words are written in places from a hundred-thousandth up to sixteen whole
digits, and a whole number keeps a zero after its point. -/
def doubleNotation : Notation where
  plain leading := -5 ≤ leading && leading ≤ 15
  keepsFraction := true
  tie := .toEven

/-- The text of an integer. -/
def integerText (value : Int) : List Char := (toString value).toList

/-- The text of a number. -/
def Number.text : Number → List Char
  | .integer value => integerText value
  | .float value => doubleNotation.finite value

/-- The text of a scalar. -/
def Scalar.json : Scalar → List Char
  | .null => "null".toList
  | .boolean true => "true".toList
  | .boolean false => "false".toList
  | .number value => value.text
  | .text value => quoted value

/-- Items with commas between them. -/
def commaSeparated (items : List (List Char)) : List Char := [','].intercalate items

namespace Value

mutual

/-- The compact text of a value. -/
def json : Value → List Char
  | .scalar value => value.json
  | .array elements => '[' :: commaSeparated (jsonElements elements) ++ [']']
  | .object members => '\x7b' :: commaSeparated (jsonMembers members) ++ ['\x7d']

/-- The texts of the elements of a list. -/
def jsonElements : List Value → List (List Char)
  | [] => []
  | element :: elements => element.json :: jsonElements elements

/-- The texts of the members of an object. -/
def jsonMembers : List (String × Value) → List (List Char)
  | [] => []
  | (key, value) :: members => (quoted key ++ ':' :: value.json) :: jsonMembers members

end

end Value

end BooleanQuery.Json
