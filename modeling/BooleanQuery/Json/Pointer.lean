import BooleanQuery.Decimal.Shortest
import BooleanQuery.Json.Value

/-!
# Pointers

A pointer leads from a value to one inside it. Each step follows a slash: in an object it
is a key, in which `~1` stands for a slash and `~0` for a tilde, and in a list it is the
number of an element, in decimal digits without leading zeros.
-/

namespace BooleanQuery.Json

/-- A step of a pointer with its escapes replaced. -/
def unescapeStep : List Char → List Char
  | '~' :: '1' :: rest => '/' :: unescapeStep rest
  | '~' :: '0' :: rest => '~' :: unescapeStep rest
  | character :: rest => character :: unescapeStep rest
  | [] => []

/-- The pieces of a text between slashes; there is always at least one. -/
def splitSlashes : List Char → List (List Char)
  | [] => [[]]
  | character :: rest =>
      match splitSlashes rest with
      | [] => [[character]]
      | piece :: pieces =>
          if character = '/' then [] :: piece :: pieces else (character :: piece) :: pieces

/-- The steps of a pointer. The empty pointer has none; any other starts with a slash. -/
def pointerSteps? (pointer : String) : Option (List (List Char)) :=
  match pointer.toList with
  | [] => some []
  | '/' :: rest => some ((splitSlashes rest).map unescapeStep)
  | _ :: _ => none

/-- The number of a list element that a step spells. -/
def stepIndex? : List Char → Option Nat
  | '0' :: _ :: _ => none
  | digits => Decimal.naturalOfDigits? digits

namespace Value

/-- The value one step inside a value. -/
def step? (value : Value) (step : List Char) : Option Value :=
  match value with
  | .scalar _ => none
  | .array elements =>
      match stepIndex? step with
      | some index => elements[index]?
      | none => none
  | .object members => members.lookup (String.ofList step)

/-- The value that a list of steps leads to. -/
def descend? (value : Value) : List (List Char) → Option Value
  | [] => some value
  | step :: steps =>
      match value.step? step with
      | some inner => inner.descend? steps
      | none => none

/-- The value that a pointer leads to. -/
def at? (value : Value) (pointer : String) : Option Value :=
  match pointerSteps? pointer with
  | some steps => value.descend? steps
  | none => none

end Value

end BooleanQuery.Json
