import BooleanQuery.Query.Basic
import BooleanQuery.Query.Mismatch

/-!
# Assignments

A query is decoded member by member. An assignment gives one member its value; a query is
what a list of assignments makes of the default one. Null stands for the default of any
member.

What a scalar means for each member is decided here, once for texts and values.
-/

namespace BooleanQuery

open Json (Scalar Number)

/-- The kind that a scalar stands for: a name, or an integer of 32 bits. -/
def Kind.ofScalar : Scalar → Except Mismatch Kind
  | .text name =>
      match Kind.ofName? name with
      | some kind => .ok kind
      | none => .error (.unknownKind name)
  | .number (.integer value) =>
      if -2147483648 ≤ value ∧ value ≤ 2147483647 then .ok (Kind.ofNumber (Int32.ofInt value))
      else .error (.kindOutOfRange value)
  | other => .error (.wrongType (.scalar other) .kind)

/-- The string that a scalar stands for. -/
def stringOfScalar : Scalar → Except Mismatch String
  | .text value => .ok value
  | other => .error (.wrongType (.scalar other) .text)

/-- The weight that a scalar stands for: the nearest to any number. -/
def Weight.ofScalar : Scalar → Except Mismatch Weight
  | .number value => .ok (Weight.ofNumber value)
  | other => .error (.wrongType (.scalar other) .weight)

/-- A member with its value. -/
inductive Assignment where
  | kind (kind : Kind)
  | field (text : String)
  | value (text : String)
  | boost (weight : Weight)
  | exclusion (query : Option Query)
  | children (queries : List Query)
  | tiebreaker (weight : Weight)

/-- What is asked for in the place of a member. -/
def Member.expectation : Member → Expectation
  | .kind => .kind
  | .field | .value => .text
  | .boost | .tiebreaker => .weight
  | .exclusion => .query
  | .children => .sequence

namespace Assignment

/-- The member that an assignment is for. -/
def member : Assignment → Member
  | .kind _ => .kind
  | .field _ => .field
  | .value _ => .value
  | .boost _ => .boost
  | .exclusion _ => .exclusion
  | .children _ => .children
  | .tiebreaker _ => .tiebreaker

/-- The assignment of its default to a member. -/
def default : Member → Assignment
  | .kind => .kind .term
  | .field => .field ""
  | .value => .value ""
  | .boost => .boost .zero
  | .exclusion => .exclusion none
  | .children => .children []
  | .tiebreaker => .tiebreaker .zero

/-- The assignment that a scalar stands for in the place of a member. -/
def ofScalar (member : Member) (value : Scalar) : Except Mismatch Assignment :=
  if value = .null then .ok (default member)
  else
    match member with
    | .kind => (Kind.ofScalar value).map .kind
    | .field => (stringOfScalar value).map .field
    | .value => (stringOfScalar value).map .value
    | .boost => (Weight.ofScalar value).map .boost
    | .tiebreaker => (Weight.ofScalar value).map .tiebreaker
    | .exclusion => .error (.wrongType (.scalar value) .query)
    | .children => .error (.wrongType (.scalar value) .sequence)

end Assignment

namespace Query

/-- A query with one member replaced. -/
def assign (query : Query) : Assignment → Query
  | .kind kind => { query with kind }
  | .field field => { query with field }
  | .value value => { query with value }
  | .boost boost => { query with boost }
  | .exclusion exclusion => { query with exclusion }
  | .children children => { query with children }
  | .tiebreaker tiebreaker => { query with tiebreaker }

/-- The query that assignments make of the default one. -/
def ofAssignments (assignments : List Assignment) : Query := assignments.foldl assign {}

end Query

end BooleanQuery
