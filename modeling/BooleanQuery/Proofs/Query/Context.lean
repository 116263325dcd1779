import BooleanQuery.Proofs.Query.Paths

/-!
# Contexts

A context is a query with one place left open, anywhere in it. Every way down from a query to one
that it reaches gives a context, which the lower query fills.

A wrapper is a node that has nothing but a single child, and is of a kind that combines its
children, so that there is nothing to combine.
-/

namespace BooleanQuery.Query

/-- A query with an open place. -/
inductive Context where
  | hole
  | child (node : Query) (before : List Query) (inner : Context) (after : List Query)
  | exclusion (node : Query) (inner : Context)

/-- The query that has the given one in the open place. -/
def Context.fill : Context → Query → Query
  | .hole, query => query
  | .child node before inner after, query =>
      { node with children := before ++ inner.fill query :: after }
  | .exclusion node inner, query => { node with exclusion := some (inner.fill query) }

/-- What fills a context is reached from the whole. -/
theorem Context.reaches_fill (context : Context) (query : Query) :
    (context.fill query).Reaches query := by
  induction context with
  | hole => exact .refl
  | child node before inner after inductionHypothesis =>
      refine .head (mem_subqueries_iff.mpr (.inl ?_)) inductionHypothesis
      exact List.mem_append_right before List.mem_cons_self
  | exclusion node inner inductionHypothesis =>
      exact .head (mem_subqueries_iff.mpr (.inr rfl)) inductionHypothesis

/-- What a query reaches is what fills a context to give the query. -/
theorem reaches_iff_exists_context {query lower : Query} :
    query.Reaches lower ↔ ∃ context : Context, context.fill lower = query := by
  constructor
  · intro reached
    induction reached using Relation.ReflTransGen.head_induction_on with
    | refl => exact ⟨.hole, rfl⟩
    | @head upper _ member _ inductionHypothesis =>
        obtain ⟨inner, rfl⟩ := inductionHypothesis
        rcases mem_subqueries_iff.mp member with among | present
        · obtain ⟨before, after, children⟩ := List.append_of_mem among
          refine ⟨.child upper before inner after, ?_⟩
          rw [Context.fill, ← children]
          cases upper
          rfl
        · refine ⟨.exclusion upper inner, ?_⟩
          rw [Context.fill, ← Option.mem_def.mp present]
          cases upper
          rfl
  · rintro ⟨context, rfl⟩
    exact context.reaches_fill lower

/-- A node around a single child, without the child. -/
structure Wrapper where
  kind : Kind
  field : String
  value : String
  boost : Weight
  tiebreaker : Weight
  combines : kind = .and ∨ kind = .or ∨ kind = .disMax

namespace Wrapper

/-- The node with its child. -/
def around (wrapper : Wrapper) (child : Query) : Query where
  kind := wrapper.kind
  field := wrapper.field
  value := wrapper.value
  boost := wrapper.boost
  children := [child]
  tiebreaker := wrapper.tiebreaker

/-- A query inside a chain of wrappers, of which the first is the outermost. -/
def chain (wrappers : List Wrapper) (query : Query) : Query :=
  wrappers.foldr around query

end Wrapper

end BooleanQuery.Query
