import BooleanQuery.Query.Json

/-!
# Compile errors

Reasons why a query tree is not legal. An error that blames a node carries the JSON text
of that node, which is enough to show it to whoever wrote the query.
-/

namespace BooleanQuery

/-- Why a query cannot be compiled. -/
inductive CompileError where
  | noQuery
  | misshapenTerm (node : String)
  | missingField (node : String)
  | misplacedExclusion (kind : Kind) (node : String)
  | unknownKind (node : String)
  | tooDeep
deriving DecidableEq, Repr

namespace CompileError

/-- The text of the node that an error blames. -/
def node? : CompileError → Option String
  | .misshapenTerm node | .missingField node | .misplacedExclusion _ node
  | .unknownKind node => some node
  | .noQuery | .tooDeep => none

/-- The wording of an error. -/
def message : CompileError → String
  | .noQuery => "nil input"
  | .misshapenTerm node => "term queries can have only field and value, " ++ node
  | .missingField node => "missing field, " ++ node
  | .misplacedExclusion kind node => kind.name ++ " queries can't have 'not' value, " ++ node
  | .unknownKind node => "unknown type " ++ node
  | .tooDeep => "recursion limit exceeded"

end CompileError

end BooleanQuery
