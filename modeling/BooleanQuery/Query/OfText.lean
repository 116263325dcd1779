import BooleanQuery.Query.Assignment

/-!
# Queries in texts

`Query.ofText` decodes a query while it reads its text, so the first fault or mismatch in
the order of the text is the one reported, with its position. A member may be given once
only, in any order; an array lists the values of the members in order.

Every bracket counts against the nesting that a text may have, so a list of children
costs one level more than an exclusion.
-/

namespace BooleanQuery

open Text (Bytes)
open Json (Reader Failure Obstacle Scalar Fault Position Category skipBlanks bracketed refuse
  tooDeep elements slots members colon greatestNesting document)

namespace Query

/-- Refuse a bracket, which stays unread, where something else is expected. -/
def refuseBracket (found : Shape) (expected : Expectation) {α : Type} : Reader Mismatch α :=
  refuse fun rest => ⟨.mismatch (.wrongType found expected), rest.length + 1⟩

/-- What is left of a text after blanks and, if it follows, a closing brace. -/
def pastClosingBrace (text : Bytes) : Bytes :=
  match skipBlanks text with
  | [] => []
  | head :: rest => if head = '\x7d'.toUInt8 then rest else head :: rest

/-- What is left of a text after blanks and, if it follows, a closing bracket or a comma
with the blanks after it. -/
def pastClosingBracket (text : Bytes) : Bytes :=
  match skipBlanks text with
  | [] => []
  | head :: rest =>
      if head = ']'.toUInt8 then rest
      else if head = ','.toUInt8 then skipBlanks rest
      else head :: rest

/-- Refuse a bracket in the place of a kind. The bracket is opened, and its end looked
for, before the mismatch is reported. -/
def refuseKindBracket (nesting : Nat) (found : Shape) (past : Bytes → Bytes) {α : Type} :
    Reader Mismatch α :=
  match nesting with
  | 0 => tooDeep
  | _ + 1 => refuse fun rest => .mismatched (.wrongType found .kind) (past rest)

/-- Read a scalar in the place of a member. -/
def scalarMember (member : Member) : Reader Mismatch Assignment :=
  Json.scalar.refine (Assignment.ofScalar member)

/-- Read a scalar in the place of a query that has to be there. -/
def scalarQuery : Reader Mismatch Query :=
  Json.scalar.refine fun scalar => .error (.wrongType (.scalar scalar) .query)

/-- Readers of what follows an opening bracket: an array of member values, an object of
members, and a list of queries. -/
structure Forms where
  array : Reader Mismatch Query
  object : Reader Mismatch Query
  children : Reader Mismatch (List Query)

/-- Read the value of a member, given how to read what it may contain and how many
brackets may still be opened. -/
def memberValue (nesting : Nat) (inner : Unit → Forms) :
    Member → Reader Mismatch Assignment
  | .exclusion =>
      bracketed
        ((Reader.delay fun _ => (inner ()).array).map fun query => .exclusion (some query))
        ((Reader.delay fun _ => (inner ()).object).map fun query => .exclusion (some query))
        (scalarMember .exclusion)
  | .children =>
      bracketed
        ((Reader.delay fun _ => (inner ()).children).map .children)
        (refuseBracket .object .sequence)
        (scalarMember .children)
  | .kind =>
      bracketed
        (refuseKindBracket nesting .array pastClosingBracket)
        (refuseKindBracket nesting .object pastClosingBrace)
        (scalarMember .kind)
  | member =>
      bracketed
        (refuseBracket .array member.expectation)
        (refuseBracket .object member.expectation)
        (scalarMember member)

/-- Read a member after its key, given the members before it. -/
def namedMember (value : Member → Reader Mismatch Assignment)
    (before : List Assignment) (name : String) : Reader Mismatch Assignment :=
  match Member.ofName? name with
  | none => refuse fun rest => .mismatched (.unknownMember name) (pastClosingBrace rest)
  | some member =>
      if before.any (·.member = member) then
        refuse fun rest => .mismatched (.repeatedMember member) (pastClosingBrace rest)
      else colon.andThen fun _ => value member

/-- The readers of what follows an opening bracket, by the number of brackets that may be
opened, that one included. -/
def forms : Nat → Forms
  | 0 => ⟨tooDeep, tooDeep, tooDeep⟩
  | nesting + 1 =>
      let value := memberValue nesting fun _ => forms nesting
      { array :=
          (slots (value .kind) (([.field, .value, .boost, .exclusion, .children,
            .tiebreaker] : List Member).map value)).map ofAssignments
        object := (members Json.key (namedMember value)).map ofAssignments
        children :=
          elements (bracketed
            (Reader.delay fun _ => (forms nesting).array)
            (Reader.delay fun _ => (forms nesting).object)
            scalarQuery) }

/-- Read a query, or null. -/
def reader : Reader Mismatch (Option Query) :=
  bracketed
    ((forms greatestNesting).array.map some)
    ((forms greatestNesting).object.map some)
    (Json.scalar.refine fun scalar =>
      if scalar = .null then .ok none else .error (.wrongType (.scalar scalar) .query))

end Query

/-- Why something is not a query: an obstacle, and its position in a text if there is
one. -/
structure DecodeError where
  obstacle : Obstacle Mismatch
  position : Option Position
deriving DecidableEq, Repr

namespace DecodeError

/-- The error of a failure to read a text. -/
def ofFailure (text : Bytes) (failure : Failure Mismatch) : DecodeError :=
  ⟨failure.obstacle, some (.withUnread text failure.unread)⟩

/-- The error of a mismatch in a value. -/
def ofMismatch (reason : Mismatch) : DecodeError := ⟨.mismatch reason, none⟩

/-- The category of an error. -/
def category (error : DecodeError) : Category :=
  match error.obstacle with
  | .malformed fault => fault.category
  | .mismatch _ => .mismatched

/-- The wording of an error. -/
def message (error : DecodeError) : String :=
  (match error.obstacle with
    | .malformed fault => fault.message
    | .mismatch reason => reason.message) ++
  (match error.position with
    | some position => position.suffix
    | none => "")

end DecodeError

/-- The query that a text holds, or nothing if it holds null. -/
def Query.ofText (text : Bytes) : Except DecodeError (Option Query) :=
  (document Query.reader text).mapError (.ofFailure text)

/-- The kind that a text holds. -/
def Kind.ofText (text : Bytes) : Except DecodeError Kind :=
  (document
    (bracketed
      (Query.refuseKindBracket greatestNesting .array Query.pastClosingBracket)
      (Query.refuseKindBracket greatestNesting .object Query.pastClosingBrace)
      (Json.scalar.refine Kind.ofScalar))
    text).mapError (.ofFailure text)

end BooleanQuery
