import BooleanQuery.Plan.Basic
import BooleanQuery.Proofs.Compile.Depth

/-!
# The node that an error blames

An error that carries the text of a node was found at a node of the query that the compiler looks
at, and the same error is found if this node is compiled on its own: what it looks at below the
node had compiled before the node was blamed, and is no deeper if the node is the root. If a query
is found too deep, the compiler has looked along a path that is longer than the limit.
-/

namespace BooleanQuery.Compile

/-- A tree without violations has none if it stands less deep. -/
theorem violations_eq_nil_of_shallower {fuel : Fuel} {above below : Nat} {query : Query}
    (shallower : above ≤ below) (clean : violations fuel (below + 1) query = []) :
    violations fuel (above + 1) query = [] := by
  rw [violations_eq_nil_iff_reaches] at clean ⊢
  obtain ⟨legal, allowed⟩ := clean
  refine ⟨legal, fun path leads => ?_⟩
  exact allows_of_le (Nat.add_le_add_right shallower path.length) (allowed path leads)

/-- The first violation of a node is that of something looked at below it, or its own if there is
none below. -/
theorem first_violation_below_or_own {fuel : Fuel} {depth : Nat} {query : Query}
    {error : CompileError} (allowed : fuel.allows depth)
    (first : (violations fuel depth query).head? = some error) :
    (∃ lower, Inspects query lower ∧ (violations fuel (depth + 1) lower).head? = some error) ∨
      (∀ lower, Inspects query lower → violations fuel (depth + 1) lower = []) ∧
        (ownViolations query).head? = some error := by
  rw [violations_eq_inspected, if_pos allowed, List.head?_append] at first
  cases below : ((inspected query).flatMap (violations fuel (depth + 1))).head? with
  | some other =>
      rw [below] at first
      obtain rfl : other = error := Option.some.inj first
      rw [List.head?_flatMap] at below
      exact .inl (List.exists_of_findSome?_eq_some below)
  | none =>
      rw [below] at first
      rw [List.head?_eq_none_iff, List.flatMap_eq_nil_iff] at below
      exact .inr ⟨below, first⟩

/-- If nothing is wrong with what is looked at below a node, it is found wrong at any smaller
depth for what is wrong with itself. -/
theorem first_violation_of_own {fuel : Fuel} {above below : Nat} {query : Query}
    {error : CompileError} (shallower : above ≤ below) (allowed : fuel.allows (below + 1))
    (clean : ∀ lower, Inspects query lower → violations fuel (below + 1 + 1) lower = [])
    (own : (ownViolations query).head? = some error) :
    (violations fuel (above + 1) query).head? = some error := by
  have cleanHere : (inspected query).flatMap (violations fuel (above + 1 + 1)) = [] := by
    rw [List.flatMap_eq_nil_iff]
    intro lower member
    exact violations_eq_nil_of_shallower (Nat.succ_le_succ shallower) (clean lower member)
  have allowedHere : fuel.allows (above + 1) := allows_of_le (Nat.succ_le_succ shallower) allowed
  rw [violations_eq_inspected, if_pos allowedHere, cleanHere, List.nil_append]
  exact own

/-- A first violation that carries a text is the first one of a tree with this text, which is
looked at and may as well stand at the root. -/
theorem exists_culprit_of_violation {fuel : Fuel} {above : Nat} {query : Query}
    {error : CompileError} {node : String}
    (first : (violations fuel (above + 1) query).head? = some error)
    (blames : error.node? = some node) :
    ∃ culprit, Relation.ReflTransGen Inspects query culprit ∧ culprit.text = node ∧
      (violations fuel 1 culprit).head? = some error := by
  induction query using Query.subqueryInduction generalizing above with
  | passes query onSubqueries =>
      by_cases allowed : fuel.allows (above + 1)
      · rcases first_violation_below_or_own allowed first with ⟨lower, member, below⟩ | ⟨clean, own⟩
        · obtain ⟨culprit, reached, text, alone⟩ :=
            onSubqueries lower (mem_subqueries_of_mem_inspected member) below
          exact ⟨culprit, .head member reached, text, alone⟩
        · have carries := node?_of_mem_ownViolations (List.mem_of_head? own)
          refine ⟨query, .refl, ?_, first_violation_of_own above.zero_le allowed clean own⟩
          exact Option.some.inj (carries.symm.trans blames)
      · -- What is too deep is blamed on no node.
        rw [violations_eq_inspected, if_neg allowed] at first
        obtain rfl : CompileError.tooDeep = error := Option.some.inj first
        nomatch blames

/-- If a compilation fails with an error that carries the text of a node, some node with this text
is looked at, and compiling it alone with the same fuel fails with the same error. If the query is
found too deep, some path that is looked at is longer than the limit. -/
theorem compile_error_has_culprit (engine : Engine) (fuel : Fuel) (query : Query) :
    (∀ error node, (compile engine fuel (some query)).result = .error error →
      error.node? = some node →
      ∃ culprit, Relation.ReflTransGen Inspects query culprit ∧ culprit.text = node ∧
        (compile engine fuel (some culprit)).result = .error error) ∧
    ∀ limit, fuel = some limit → (compile engine fuel (some query)).result = .error .tooDeep →
      ∃ path, IsInspectedPath query path ∧ limit.toNat < path.length := by
  simp only [← failure?_eq_some_iff, failure?_compile]
  constructor
  · intro error node first blames
    exact exists_culprit_of_violation first blames
  · rintro limit rfl found
    obtain ⟨path, leads, refused⟩ := exists_inspectedPath_of_tooDeep (List.mem_of_head? found)
    refine ⟨path, leads, ?_⟩
    rw [Nat.zero_add, allows_iff] at refused
    by_contra within
    apply refused
    rintro other ⟨⟩
    exact not_lt.mp within

/-- A disjunction with an exclusion, inside the exclusion of a conjunction and before a term without
a field, is the node that is blamed; what stands in its own exclusion is not looked at. A limit of
two is reached before it. -/
theorem compile_error_has_culprit_in_exclusion :
    let culprit : Query :=
      { Query.or [Query.term "a" "x"] with exclusion := some (Query.term "" "") }
    let query : Query :=
      { Query.and [Query.term "b" "y"] with
        exclusion := some (Query.or [culprit, Query.term "" "z"]) }
    let error := CompileError.misplacedExclusion .or culprit.text
    ((compile Plan.engine defaultFuel (some query)).result = .error error ∧
      error.node? = some culprit.text ∧
      ∃ found, Relation.ReflTransGen Inspects query found ∧ found.text = culprit.text ∧
        (compile Plan.engine defaultFuel (some found)).result = .error error) ∧
    (compile Plan.engine (some 2) (some query)).result = .error .tooDeep ∧
      ∃ path, IsInspectedPath query path ∧ UInt32.toNat 2 < path.length := by
  intro culprit query error
  refine ⟨⟨rfl, rfl, ?_⟩, rfl, ?_⟩
  · exact (compile_error_has_culprit Plan.engine defaultFuel query).1 error _ rfl rfl
  · exact (compile_error_has_culprit Plan.engine (some 2) query).2 2 rfl rfl

end BooleanQuery.Compile
