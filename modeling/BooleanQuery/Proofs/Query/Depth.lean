import BooleanQuery.Proofs.Query.Paths

/-!
# The depth of a query

The depth of a query is the number of nodes on its longest path. Children and exclusions
count alike, as they do for the fuel of a compilation.

Everything else about depths follows from the two bounds: `Query.depth_le_succ_iff` meets a
recursion over the tree, and `Query.depth_le_iff_paths` what is said of paths.
-/

namespace BooleanQuery.Query

mutual

/-- The number of nodes on the longest path from a query. -/
def depth : Query → Nat
  | ⟨_, _, _, _, exclusion, children, _⟩ => max (depthAll children) (depthOption exclusion) + 1

/-- The greatest depth among queries. -/
def depthAll : List Query → Nat
  | [] => 0
  | query :: queries => max query.depth (depthAll queries)

/-- The depth of an exclusion, if there is one. -/
def depthOption : Option Query → Nat
  | none => 0
  | some excluded => excluded.depth

end

/-- Queries are bounded in depth if each of them is. -/
theorem depthAll_le_iff {queries : List Query} {limit : Nat} :
    depthAll queries ≤ limit ↔ ∀ query ∈ queries, query.depth ≤ limit := by
  induction queries with
  | nil => simp [depthAll]
  | cons query queries inductionHypothesis =>
      rw [depthAll, Nat.max_le, inductionHypothesis, List.forall_mem_cons]

theorem depthOption_le_iff {exclusion : Option Query} {limit : Nat} :
    depthOption exclusion ≤ limit ↔ ∀ excluded ∈ exclusion, excluded.depth ≤ limit := by
  cases exclusion <;> simp [depthOption]

theorem depth_pos (query : Query) : 0 < query.depth := by
  obtain ⟨kind, field, value, boost, exclusion, children, tiebreaker⟩ := query
  rw [depth]
  omega

/-- A query is one deeper than what is below it. -/
theorem depth_le_succ_iff {query : Query} {limit : Nat} :
    query.depth ≤ limit + 1 ↔ ∀ lower ∈ query.subqueries, lower.depth ≤ limit := by
  have unfolded : query.depth =
      max (depthAll query.children) (depthOption query.exclusion) + 1 := by
    obtain ⟨kind, field, value, boost, exclusion, children, tiebreaker⟩ := query
    rw [depth]
  rw [unfolded, Nat.add_le_add_iff_right, Nat.max_le, depthAll_le_iff, depthOption_le_iff]
  simp only [mem_subqueries_iff, or_imp, forall_and]

/-- The depth bounds the lengths of all paths, and nothing less does. -/
theorem depth_le_iff_paths {query : Query} {limit : Nat} :
    query.depth ≤ limit ↔ ∀ path, query.IsPath path → path.length ≤ limit := by
  induction query using subqueryInduction generalizing limit with
  | passes query onSubqueries =>
      rw [forall_isPath_iff fun length => length ≤ limit]
      cases limit with
      | zero =>
          have deep := query.depth_pos
          constructor
          · intro flat
            omega
          · rintro ⟨tooLong, -⟩
            omega
      | succ limit =>
          rw [depth_le_succ_iff]
          simp only [Nat.add_le_add_iff_right, Nat.le_add_left, true_and]
          exact forall₂_congr fun lower member => onSubqueries lower member

/-- Some path is as long as the query is deep. -/
theorem exists_path_of_depth (query : Query) :
    ∃ path, query.IsPath path ∧ path.length = query.depth := by
  by_contra shorter
  push Not at shorter
  have bounded : query.depth ≤ query.depth - 1 := by
    rw [depth_le_iff_paths]
    intro path leads
    have atMost := depth_le_iff_paths.mp le_rfl path leads
    have other := shorter path leads
    omega
  have deep := query.depth_pos
  omega

/-- What holds of a length and so of all smaller ones holds of all paths exactly if it holds of
the depth. -/
theorem forall_paths_iff_depth (property : Nat → Prop)
    (passesDown : ∀ length longer, length ≤ longer → property longer → property length)
    (query : Query) :
    (∀ path, query.IsPath path → property path.length) ↔ property query.depth := by
  constructor
  · intro holds
    obtain ⟨path, leads, longest⟩ := query.exists_path_of_depth
    rw [← longest]
    exact holds path leads
  · intro holds path leads
    exact passesDown _ _ (depth_le_iff_paths.mp le_rfl path leads) holds

end BooleanQuery.Query
