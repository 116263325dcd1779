import BooleanQuery.Query.Assignment

/-!
# Queries in values

A query value is an object of members, or an array that lists their values in order.
`Query.ofValue` decodes it, and says of any other value why it is none. Members of an
object are taken in the order in which the value lists them, and the first mismatch on
the way is reported.
-/

namespace BooleanQuery

open Json (Value)

/-- The assignment of a value to a member, given how the value decodes as a query and as
a list of queries. -/
def Assignment.ofValue (member : Member) (value : Value)
    (query : Unit → Except Mismatch Query) (queries : Unit → Except Mismatch (List Query)) :
    Except Mismatch Assignment :=
  match value with
  | .scalar scalar => Assignment.ofScalar member scalar
  | .array _ =>
      match member with
      | .exclusion => (query ()).map fun exclusion => .exclusion (some exclusion)
      | .children => (queries ()).map .children
      | other => .error (.wrongType .array other.expectation)
  | .object _ =>
      match member with
      | .exclusion => (query ()).map fun exclusion => .exclusion (some exclusion)
      | other => .error (.wrongType .object other.expectation)

namespace Query

/-- Refuse an array of values with more elements than there are members. -/
def withinMembers (elements : List Value) (query : Query) : Except Mismatch Query :=
  if elements.length ≤ Member.all.length then .ok query
  else .error (.surplusElements elements.length)

mutual

/-- The query that a value holds. -/
def ofQueryValue : Value → Except Mismatch Query
  | .scalar scalar => .error (.wrongType (.scalar scalar) .query)
  | .array elements => do
      let assignments ← assignmentsInOrder Member.all elements
      withinMembers elements (ofAssignments assignments)
  | .object members => do
      let assignments ← assignmentsByName [] members
      .ok (ofAssignments assignments)

/-- The queries that a value lists; values other than arrays list none. -/
def ofArrayValue : Value → Except Mismatch (List Query)
  | .scalar _ => .ok []
  | .array elements => ofQueryValues elements
  | .object _ => .ok []

/-- The queries that values hold. -/
def ofQueryValues : List Value → Except Mismatch (List Query)
  | [] => .ok []
  | element :: elements => do
      let query ← ofQueryValue element
      let queries ← ofQueryValues elements
      .ok (query :: queries)

/-- The assignments of values to members in order, as far as both go. -/
def assignmentsInOrder : List Member → List Value → Except Mismatch (List Assignment)
  | member :: members, element :: elements => do
      let assignment ← Assignment.ofValue member element
        (fun _ => ofQueryValue element) (fun _ => ofArrayValue element)
      let assignments ← assignmentsInOrder members elements
      .ok (assignment :: assignments)
  | _, _ => .ok []

/-- The assignments of values to members by name, after those made before. -/
def assignmentsByName (before : List Assignment) :
    List (String × Value) → Except Mismatch (List Assignment)
  | [] => .ok before
  | (name, value) :: members =>
      match Member.ofName? name with
      | none => .error (.unknownMember name)
      | some member =>
          if before.any (·.member = member) then .error (.repeatedMember member)
          else do
            let assignment ← Assignment.ofValue member value
              (fun _ => ofQueryValue value) (fun _ => ofArrayValue value)
            assignmentsByName (before ++ [assignment]) members

end

/-- The query that a value holds, or nothing if the value is null. -/
def ofValue (value : Value) : Except Mismatch (Option Query) :=
  match value with
  | .scalar .null => .ok none
  | other => (ofQueryValue other).map some

end Query

end BooleanQuery
