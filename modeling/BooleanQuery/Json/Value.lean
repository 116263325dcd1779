import BooleanQuery.Json.Scalar

/-!
# Values

A value is what a JSON text holds. `Value.reader` keeps the members of objects as they are
written; `Value.canonical` sorts them by their keys and keeps the last of those with one
key, and `Value.ofText` does both, so that a value does not depend on the order in which
its text lists the members.
-/

namespace BooleanQuery.Json

open Text (Bytes)

/-- A JSON value. -/
inductive Value where
  | scalar (value : Scalar)
  | array (elements : List Value)
  | object (members : List (String × Value))

instance : Inhabited Value := ⟨.scalar .null⟩

-- The lists inside a value have to be compared in the same recursion.
mutual

/-- Whether two values are the same. -/
def Value.decideEq : (value other : Value) → Decidable (value = other)
  | .scalar scalar, .scalar other => decidable_of_iff (scalar = other) (by simp)
  | .array elements, .array others =>
      haveI := decideElementsEq elements others
      decidable_of_iff (elements = others) (by simp)
  | .object members, .object others =>
      haveI := decideMembersEq members others
      decidable_of_iff (members = others) (by simp)
  | .scalar _, .array _ | .scalar _, .object _ | .array _, .scalar _ | .array _, .object _
  | .object _, .scalar _ | .object _, .array _ => .isFalse nofun

/-- Whether two lists of values are the same. -/
def decideElementsEq : (elements others : List Value) → Decidable (elements = others)
  | [], [] => .isTrue rfl
  | element :: elements, other :: others =>
      haveI := element.decideEq other
      haveI := decideElementsEq elements others
      decidable_of_iff (element = other ∧ elements = others) (by simp)
  | [], _ :: _ | _ :: _, [] => .isFalse nofun

/-- Whether two lists of members are the same. -/
def decideMembersEq : (members others : List (String × Value)) → Decidable (members = others)
  | [], [] => .isTrue rfl
  | (key, value) :: members, (otherKey, other) :: others =>
      haveI := value.decideEq other
      haveI := decideMembersEq members others
      decidable_of_iff ((key = otherKey ∧ value = other) ∧ members = others) (by simp)
  | [], _ :: _ | _ :: _, [] => .isFalse nofun

end

instance : DecidableEq Value := Value.decideEq

/-- A text that is not a JSON value: what is wrong, and where. -/
structure TextFault where
  fault : Fault
  position : Position
deriving DecidableEq, Repr

/-- The wording of a fault in its place. -/
def TextFault.message (fault : TextFault) : String :=
  fault.fault.message ++ fault.position.suffix

namespace Value

variable {Mismatch : Type}

/-- Read a value that may open so many brackets inside each other. -/
def reader : Nat → Reader Mismatch Value
  | 0 => bracketed tooDeep tooDeep (Json.scalar.map .scalar)
  | nesting + 1 =>
      bracketed
        ((elements (.delay fun _ => reader nesting)).map .array)
        ((members key fun _ name =>
          colon.andThen fun _ => (reader nesting).map fun value => (name, value)).map .object)
        (Json.scalar.map .scalar)

/-- Put a member into its place among members sorted by key; a member of the same key is
replaced. -/
def insertMember (key : String) (value : Value) :
    List (String × Value) → List (String × Value)
  | [] => [(key, value)]
  | (other, present) :: members =>
      if key < other then (key, value) :: (other, present) :: members
      else if other < key then (other, present) :: insertMember key value members
      else (key, value) :: members

/-- Sort members by key and keep the last of each key. -/
def settle (members : List (String × Value)) : List (String × Value) :=
  members.foldl (fun settled member => insertMember member.1 member.2 settled) []

mutual

/-- A value with the members of all its objects sorted by key, the last of each key
kept. -/
def canonical : Value → Value
  | .scalar value => .scalar value
  | .array elements => .array (canonicalElements elements)
  | .object members => .object (settle (canonicalMembers members))

/-- The canonical forms of the elements of a list. -/
def canonicalElements : List Value → List Value
  | [] => []
  | element :: elements => element.canonical :: canonicalElements elements

/-- The members of an object with canonical values. -/
def canonicalMembers : List (String × Value) → List (String × Value)
  | [] => []
  | (key, value) :: members => (key, value.canonical) :: canonicalMembers members

end

/-- The value that a text holds, as it is written. -/
def written (text : Bytes) : Except (Failure Empty) Value :=
  document (reader greatestNesting) text

/-- The value that a text holds. -/
def ofText (text : Bytes) : Except TextFault Value :=
  match written text with
  | .ok value => .ok value.canonical
  | .error ⟨.malformed fault, unread⟩ => .error ⟨fault, .withUnread text unread⟩

end Value

end BooleanQuery.Json
