import BooleanQuery.Query.Basic

/-!
# The nodes of a query

The nodes of a query are listed in preorder: a node, then the nodes of its children in
order, then those of its exclusion. Each node comes with the path that leads to it.
-/

namespace BooleanQuery

namespace Query

/-- A step from a node to one below it. -/
inductive Step where
  | child (index : Nat)
  | exclusion
deriving DecidableEq, Repr

/-- A step as it is written in a pointer to a JSON text. -/
def Step.text : Step → String
  | .child index => "/queries/" ++ toString index
  | .exclusion => "/not"

/-- A path as a pointer to a JSON text. -/
def pathText (path : List Step) : String :=
  path.foldl (fun text step => text ++ step.text) ""

mutual

/-- The nodes of a query in preorder, with their paths; `path` leads to the query. -/
def nodesFrom (path : List Step) : Query → List (List Step × Query)
  | ⟨kind, field, value, boost, exclusion, children, tiebreaker⟩ =>
      (path, ⟨kind, field, value, boost, exclusion, children, tiebreaker⟩) ::
        (childNodesFrom path 0 children ++ exclusionNodesFrom path exclusion)

/-- The nodes of the children of a node; the first child has the given number. -/
def childNodesFrom (path : List Step) (index : Nat) :
    List Query → List (List Step × Query)
  | [] => []
  | child :: children =>
      nodesFrom (path ++ [.child index]) child ++ childNodesFrom path (index + 1) children

/-- The nodes of the exclusion of a node. -/
def exclusionNodesFrom (path : List Step) : Option Query → List (List Step × Query)
  | none => []
  | some exclusion => nodesFrom (path ++ [.exclusion]) exclusion

end

/-- The nodes of a query in preorder, with their paths from the root. -/
def nodes (query : Query) : List (List Step × Query) := nodesFrom [] query

end Query

end BooleanQuery
