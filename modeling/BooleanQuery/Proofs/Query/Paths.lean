import BooleanQuery.Proofs.Query.Tree
import Mathlib.Data.List.Chain

/-!
# Paths through a query

A query stands directly above its children and its exclusion. What it reaches is reached by
going down so any number of times; a path lists the nodes on such a way, the query itself
and the last node included.

Both notions say nothing about what is done with a node. `Query.forall_reaches_iff` and
`Query.forall_isPath_iff` unfold them by one step, which is how a recursion over the tree
meets them.
-/

namespace BooleanQuery.Query

/-- The queries directly below a query: its children in order, then its exclusion. -/
def subqueries (query : Query) : List Query := query.children ++ query.exclusion.toList

/-- Whether a query stands directly above another. -/
def IsAbove (upper lower : Query) : Prop := lower ∈ upper.subqueries

/-- Whether going down from a query any number of times can lead to a node. -/
def Reaches (query node : Query) : Prop := Relation.ReflTransGen IsAbove query node

/-- Whether a list of nodes leads down from a query, which it starts with. -/
def IsPath (query : Query) (path : List Query) : Prop :=
  path.head? = some query ∧ path.IsChain IsAbove

theorem mem_subqueries_iff {query lower : Query} :
    lower ∈ query.subqueries ↔ lower ∈ query.children ∨ lower ∈ query.exclusion := by
  rw [subqueries, List.mem_append, Option.mem_toList, Option.mem_def]

theorem forall_subqueries_iff_of_no_exclusion {query : Query} {property : Query → Prop}
    (exclusion : query.exclusion = none) :
    (∀ lower ∈ query.subqueries, property lower) ↔ ∀ child ∈ query.children, property child := by
  rw [subqueries, exclusion, Option.toList_none, List.append_nil]

/-- A property that passes from everything directly below a query to the query holds of all
queries. -/
theorem subqueryInduction {property : Query → Prop}
    (passes : ∀ query : Query, (∀ lower ∈ query.subqueries, property lower) → property query)
    (query : Query) : property query := by
  induction query with
  | node query onChildren onExclusion =>
      apply passes
      intro lower member
      rcases mem_subqueries_iff.mp member with child | excluded
      · exact onChildren lower child
      · exact onExclusion lower excluded

/-- A property holds of all that a query reaches exactly if it holds of the query and of all
that the queries below it reach. -/
theorem forall_reaches_iff {property : Query → Prop} {query : Query} :
    (∀ node, query.Reaches node → property node) ↔
      property query ∧ ∀ lower ∈ query.subqueries, ∀ node, lower.Reaches node → property node := by
  constructor
  · intro holds
    refine ⟨holds query .refl, ?_⟩
    intro lower member node further
    exact holds node (.head member further)
  · rintro ⟨atQuery, further⟩ node reached
    rcases reached.cases_head with rfl | ⟨lower, member, rest⟩
    · exact atQuery
    · exact further lower member node rest

theorem IsPath.singleton (query : Query) : query.IsPath [query] := ⟨rfl, .singleton query⟩

/-- Going down from a query to one below it and along a path from there is a path. -/
theorem IsPath.cons {query lower : Query} {path : List Query} (member : lower ∈ query.subqueries)
    (rest : lower.IsPath path) : query.IsPath (query :: path) := by
  obtain ⟨start, chain⟩ := rest
  refine ⟨rfl, List.isChain_cons.mpr ⟨?_, chain⟩⟩
  intro next first
  obtain rfl : lower = next := Option.some.inj (start.symm.trans first)
  exact member

/-- A path from a query is the query alone, or the query and a path from one below it. -/
theorem IsPath.eq_singleton_or_cons {query : Query} {path : List Query}
    (leads : query.IsPath path) :
    path = [query] ∨
      ∃ lower ∈ query.subqueries, ∃ rest, lower.IsPath rest ∧ path = query :: rest := by
  obtain ⟨start, chain⟩ := leads
  rcases path with _ | ⟨first, rest⟩
  · nomatch start
  · obtain rfl : first = query := Option.some.inj start
    rcases rest with _ | ⟨lower, rest⟩
    · exact .inl rfl
    · obtain ⟨member, chain⟩ := List.isChain_cons_cons.mp chain
      exact .inr ⟨lower, member, lower :: rest, ⟨rfl, chain⟩, rfl⟩

/-- A property holds of the lengths of all paths from a query exactly if it holds of one and of
one more than the lengths of all paths from the queries below. -/
theorem forall_isPath_iff (property : Nat → Prop) (query : Query) :
    (∀ path, query.IsPath path → property path.length) ↔
      property 1 ∧
        ∀ lower ∈ query.subqueries, ∀ path, lower.IsPath path → property (path.length + 1) := by
  constructor
  · intro holds
    refine ⟨holds [query] (.singleton query), ?_⟩
    intro lower member path leads
    exact holds (query :: path) (leads.cons member)
  · rintro ⟨one, further⟩ path leads
    rcases leads.eq_singleton_or_cons with rfl | ⟨lower, member, rest, onward, rfl⟩
    · exact one
    · exact further lower member rest onward

end BooleanQuery.Query
