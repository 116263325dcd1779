import BooleanQuery.Json.Writer
import BooleanQuery.Text.Shown

/-!
# Mismatches

A mismatch says why a JSON value is not a query although it is well formed: what was
found, and what was asked for in its place.
-/

namespace BooleanQuery

open Json (Scalar Number)

/-- The members of a query, in the order in which an array lists their values. -/
inductive Member where
  | kind
  | field
  | value
  | boost
  | exclusion
  | children
  | tiebreaker
deriving DecidableEq, Repr

namespace Member

/-- All members, in order. -/
def all : List Member := [.kind, .field, .value, .boost, .exclusion, .children, .tiebreaker]

/-- The key of a member in an object. -/
def name : Member → String
  | .kind => "type"
  | .field => "field"
  | .value => "value"
  | .boost => "boost"
  | .exclusion => "not"
  | .children => "queries"
  | .tiebreaker => "tiebreaker"

/-- The member of a key. -/
def ofName? (name : String) : Option Member := all.find? (·.name = name)

end Member

/-- What a value looks like from outside. -/
inductive Shape where
  | scalar (value : Scalar)
  | array
  | object
deriving DecidableEq, Repr

/-- What is asked for in some place. -/
inductive Expectation where
  | query
  | text
  | weight
  | sequence
  | kind
deriving DecidableEq, Repr

/-- Why a JSON value is not a query. -/
inductive Mismatch where
  | wrongType (found : Shape) (expected : Expectation)
  | kindOutOfRange (number : Int)
  | unknownKind (name : String)
  | unknownMember (name : String)
  | repeatedMember (member : Member)
  | surplusElements (count : Nat)
deriving DecidableEq, Repr

/-- A name between grave accents. -/
def ticked (name : String) : String := "`" ++ name ++ "`"

/-- Names between grave accents, with commas between them. -/
def tickedNames (names : List String) : String := ", ".intercalate (names.map ticked)

/-- The names of the kinds. -/
def kindNames : List String := ["TERM", "AND", "OR", "DISMAX"]

/-- The wording of a scalar that was found. -/
def describeScalar : Scalar → String
  | .null => "null"
  | .boolean true => "boolean `true`"
  | .boolean false => "boolean `false`"
  | .number (.integer value) => "integer " ++ ticked (toString value)
  | .number (.float value) =>
      "floating point " ++ ticked (String.ofList (Number.float value).text)
  | .text value => "string " ++ Text.shown value

/-- The wording of what was found. -/
def Shape.describe : Shape → String
  | .scalar value => describeScalar value
  | .array => "sequence"
  | .object => "map"

/-- The wording of what was asked for. -/
def Expectation.describe : Expectation → String
  | .query => "struct Query"
  | .text => "a string"
  | .weight => "f32"
  | .sequence => "a sequence"
  | .kind => "one of \"TERM\", \"AND\", \"OR\", \"DISMAX\" or an enum number"

/-- The wording of a mismatch. -/
def Mismatch.message : Mismatch → String
  | .wrongType found expected =>
      "invalid type: " ++ found.describe ++ ", expected " ++ expected.describe
  | .kindOutOfRange number =>
      "invalid value: integer " ++ ticked (toString number) ++ ", expected " ++
        Expectation.kind.describe
  | .unknownKind name =>
      "unknown variant " ++ ticked name ++ ", expected one of " ++ tickedNames kindNames
  | .unknownMember name =>
      "unknown field " ++ ticked name ++ ", expected one of " ++
        tickedNames (Member.all.map Member.name)
  | .repeatedMember member => "duplicate field " ++ ticked member.name
  | .surplusElements count =>
      "invalid length " ++ toString count ++ ", expected fewer elements in array"

end BooleanQuery
