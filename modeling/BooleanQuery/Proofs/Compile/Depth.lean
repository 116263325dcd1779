import BooleanQuery.Proofs.Compile.Acceptance
import BooleanQuery.Proofs.Query.Depth

/-!
# Fuel and depth

The fuel of a compilation matters only by whether it allows the depth of the query: a query
compiles if its nodes are legal and its depth is allowed, and it is not found too deep if its
depth is allowed, legal or not.
-/

namespace BooleanQuery.Compile

theorem allows_of_le {fuel : Fuel} {depth deeper : Nat} (shallower : depth ≤ deeper)
    (allowed : fuel.allows deeper) : fuel.allows depth := by
  rw [allows_iff] at allowed ⊢
  intro limit member
  exact shallower.trans (allowed limit member)

/-- A fuel allows the ends of all paths exactly if it allows the depth of the query. -/
theorem allows_paths_iff {fuel : Fuel} {above : Nat} {query : Query} :
    (∀ path, query.IsPath path → fuel.allows (above + path.length)) ↔
      fuel.allows (above + query.depth) := by
  apply Query.forall_paths_iff_depth fun length => fuel.allows (above + length)
  intro length longer shorter
  exact allows_of_le (Nat.add_le_add_left shorter above)

/-- A query compiles exactly if its nodes are legal and the fuel allows its depth. -/
theorem succeeds_iff_allows_depth (engine : Engine) (fuel : Fuel) (query : Query) :
    (∃ made, (compile engine fuel (some query)).result = .ok made) ↔
      (∀ node, query.Reaches node → node.IsLegal) ∧ fuel.allows query.depth := by
  rw [← failure?_eq_none_iff, failure?_compile, List.head?_eq_none_iff,
    violations_eq_nil_iff_reaches fuel 0, allows_paths_iff, Nat.zero_add]

/-- A query is not found too deep by a fuel that allows its depth. -/
theorem result_ne_tooDeep {engine : Engine} {fuel : Fuel} {query : Query}
    (allowed : fuel.allows query.depth) :
    (compile engine fuel (some query)).result ≠ .error .tooDeep := by
  intro failed
  rw [← failure?_eq_some_iff, failure?_compile] at failed
  obtain ⟨path, leads, refused⟩ := exists_isPath_of_tooDeep (List.mem_of_head? failed)
  rw [← Nat.zero_add query.depth] at allowed
  exact refused (allows_paths_iff.mpr allowed path leads)

end BooleanQuery.Compile
