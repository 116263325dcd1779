import BooleanQuery.Plan.Basic

/-!
# Dumps

A dump shows a plan line by line. Each node has a line with its heading; its children
stand below it, two columns further in, and its exclusion stands four columns further in
below a line of its own.
-/

namespace BooleanQuery

namespace Plan

/-- The columns by which each level stands further in. -/
def indentStep : Nat := 2

/-- The text of a weight that was given. -/
def boostText : Option Weight → List Char
  | none => []
  | some weight => ' ' :: '^' :: weight.text

/-- The line of a node: what it is, and its weight if one was given. -/
def heading : Plan → List Char
  | .term field value boost =>
      "term ".toList ++ field.toList ++ ':' :: value.toList ++ boostText boost
  | .and _ _ boost => "and".toList ++ boostText boost
  | .or _ boost => "or".toList ++ boostText boost
  | .disMax tiebreaker _ boost =>
      "dismax tiebreaker=".toList ++ tiebreaker.text ++ boostText boost

/-- A line that starts in the given column. -/
def indented (column : Nat) (line : List Char) : List Char :=
  List.replicate column ' ' ++ line

mutual

/-- The lines of a plan that starts in the given column. -/
def lines (column : Nat) : Plan → List (List Char)
  | .term field value boost => [indented column (heading (.term field value boost))]
  | .and children exclusion boost =>
      indented column (heading (.and children exclusion boost)) ::
        (childLines (column + indentStep) children ++
          exclusionLines (column + indentStep) exclusion)
  | .or children boost =>
      indented column (heading (.or children boost)) ::
        childLines (column + indentStep) children
  | .disMax tiebreaker children boost =>
      indented column (heading (.disMax tiebreaker children boost)) ::
        childLines (column + indentStep) children

/-- The lines of plans that start in the given column. -/
def childLines (column : Nat) : List Plan → List (List Char)
  | [] => []
  | plan :: plans => lines column plan ++ childLines column plans

/-- The lines of an exclusion whose own line starts in the given column. -/
def exclusionLines (column : Nat) : Option Plan → List (List Char)
  | none => []
  | some exclusion =>
      indented column "not".toList :: lines (column + indentStep) exclusion

end

/-- The dump of a plan: its lines, separated by line feeds. -/
def dump (plan : Plan) : String := String.ofList (['\n'].intercalate (plan.lines 0))

instance : ToString Plan := ⟨dump⟩

end Plan

end BooleanQuery
