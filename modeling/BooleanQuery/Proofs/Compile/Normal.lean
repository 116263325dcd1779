import BooleanQuery.Proofs.Compile.Depth
import BooleanQuery.Proofs.Compile.Outline
import BooleanQuery.Proofs.Plan.Normal

/-!
# Plans of compilations are normal

A compilation makes normal plans only, and every normal plan is made of its own quotation:
nothing in it is dropped or collapsed when it is compiled again. So normal plans are the plans
that can be made, and among the queries for one plan its quotation is a shortest way to ask
for it, since no plan is deeper than its query.
-/

namespace BooleanQuery

/-- A boost that counts is above zero. -/
theorem Query.isPositive_of_mem_effectiveBoost {query : Query} {weight : Weight}
    (member : weight ∈ query.effectiveBoost) : weight.isPositive := by
  unfold effectiveBoost at member
  split at member
  · next positive =>
      obtain rfl : query.boost = weight := Option.some.inj member
      exact positive
  · nomatch member

/-- A boost that has an effect counts in a quotation. -/
theorem Plan.effectiveBoost_quote {plan : Plan}
    (positive : ∀ weight ∈ plan.boost, weight.isPositive) :
    plan.quote.effectiveBoost = plan.boost := by
  unfold Query.effectiveBoost
  rw [quote_boost]
  cases given : plan.boost with
  | none => rfl
  | some weight => exact if_pos (positive weight given)

namespace Compile

/-- The root of a plan that stands for a node and is not collapsed is that of a normal plan. -/
theorem isNormalNode_of_outline {query : Query} {plan : Plan}
    (same : plan.outline = query.outline) (kept : query.isCollapsed = false)
    (field : query.kind = .term → query.field ≠ "") : plan.IsNormalNode := by
  have boost : plan.boost = query.effectiveBoost := by
    have boosts := congrArg Outline.boost same
    cases plan <;> exact boosts
  refine ⟨fun weight member => ?_, ?_⟩
  · rw [boost] at member
    exact Query.isPositive_of_mem_effectiveBoost member
  · cases plan with
    | term name value boost =>
        simp only [Plan.outline, Query.outline, Outline.mk.injEq] at same
        have term : query.kind = .term := same.1.symm
        have named := same.2.2.2.2.1
        simp only [term, if_true, Option.some.injEq, Prod.mk.injEq] at named
        rw [named.1]
        exact field term
    | and children exclusion boost =>
        simp only [Plan.outline, Query.outline, Outline.mk.injEq, Plan.children,
          Plan.exclusion] at same
        simp only [Query.isCollapsed, ← same.1, ← same.2.1, ← Option.not_isSome,
          ← same.2.2.1] at kept
        intro single
        simpa [single] using kept
    | or children boost | disMax tiebreaker children boost =>
        simp only [Plan.outline, Query.outline, Outline.mk.injEq, Plan.children,
          Plan.exclusion] at same
        simp only [Query.isCollapsed, ← same.1, ← same.2.1, ← Option.not_isSome,
          ← same.2.2.1] at kept
        simpa using kept

/-- A term compiles only if it has a field. -/
theorem field_ne_of_node {engine : Engine} {fuel : Fuel} {depth : Nat} {query : Query}
    {made : engine.Query} (compiles : (node engine fuel depth query).result = .ok made)
    (term : query.kind = .term) : query.field ≠ "" := by
  obtain ⟨-, compiles⟩ := (node_ok_iff engine fuel depth query made).mp compiles
  simp only [term] at compiles
  exact compiles.2.2.1

/-- What is below the plan of a node is the plan of something below the node. -/
theorem exists_of_mem_subplans {query : Query} {compiled : List Plan} {unwanted : Option Plan}
    {relation : Query → Plan → Prop} (parts : List.Forall₂ relation query.children compiled)
    (excluded : Option.Rel relation query.exclusion unwanted) {part : Plan}
    (member : part ∈ compiled ++ unwanted.toList) :
    ∃ lower ∈ query.subqueries, relation lower part := by
  have below : List.Forall₂ relation query.subqueries (compiled ++ unwanted.toList) :=
    List.rel_append parts (forall₂_toList excluded)
  exact exists_mem_of_forall₂ below member

/-- The plan of a node is normal and not deeper than the node. -/
theorem isNormal_of_node {fuel : Fuel} {depth : Nat} {query : Query} {plan : Plan}
    (compiles : (node Plan.engine fuel depth query).result = .ok plan) :
    plan.IsNormal ∧ plan.depth ≤ query.depth := by
  induction query using Query.subqueryInduction generalizing depth plan with
  | passes query onSubqueries =>
      obtain ⟨compiled, unwanted, parts, excluded, stands⟩ := standsFor_of_node compiles
      have below (part : Plan) (member : part ∈ compiled ++ unwanted.toList) :
          ∃ lower ∈ query.subqueries, part.IsNormal ∧ part.depth ≤ lower.depth := by
        obtain ⟨lower, among, made⟩ := exists_of_mem_subplans parts excluded member
        exact ⟨lower, among, onSubqueries lower among made⟩
      obtain ⟨limit, deep⟩ := Nat.exists_eq_succ_of_ne_zero query.depth_pos.ne'
      have lowerDepth := Query.depth_le_succ_iff.mp deep.le
      rcases stands with ⟨-, rfl, rfl⟩ | ⟨kept, rfl, rfl, outline⟩
      · -- The node is collapsed, and its plan is that of its child.
        obtain ⟨lower, among, normal, shallow⟩ := below plan (by simp)
        have lowerBound := lowerDepth lower among
        exact ⟨normal, by omega⟩
      · have root := isNormalNode_of_outline outline kept (field_ne_of_node compiles)
        constructor
        · refine Plan.isNormal_iff.mpr ⟨root, fun part member => ?_⟩
          obtain ⟨lower, -, normal, -⟩ := below part member
          exact normal
        · rw [deep, Nat.succ_eq_add_one, Plan.depth_le_succ_iff]
          intro part member
          obtain ⟨lower, among, -, shallow⟩ := below part member
          exact shallow.trans (lowerDepth lower among)

/-- Whether a query compiles to a plan at some depth. -/
def Makes (fuel : Fuel) (depth : Nat) (query : Query) (plan : Plan) : Prop :=
  (node Plan.engine fuel depth query).result = .ok plan

section Making

variable {fuel : Fuel} {depth : Nat} {query : Query} {compiled : List Plan}
  {unwanted : Option Plan} (allowed : fuel.allows depth)
  (parts : List.Forall₂ (Makes fuel (depth + 1)) query.children compiled)

include allowed

/-- A legal term makes a term. -/
theorem makes_term (kind : query.kind = .term) (exclusion : query.exclusion = none)
    (children : query.children = []) (field : query.field ≠ "") :
    Makes fuel depth query (.term query.field query.value query.effectiveBoost) := by
  refine (node_ok_iff Plan.engine fuel depth query _).mpr ⟨allowed, ?_⟩
  simp only [kind]
  exact ⟨exclusion, children, field, (weighted_term query).symm⟩

include parts

/-- A conjunction that is more than its only child makes a conjunction. -/
theorem makes_and (kind : query.kind = .and)
    (excluded : Option.Rel (Makes fuel (depth + 1)) query.exclusion unwanted)
    (kept : compiled.length = 1 → unwanted.isSome) :
    Makes fuel depth query (.and compiled unwanted query.effectiveBoost) := by
  refine (node_ok_iff Plan.engine fuel depth query _).mpr ⟨allowed, ?_⟩
  simp only [kind]
  refine ⟨compiled, unwanted, parts, excluded, Eq.symm ?_⟩
  refine (conjoined_plan query compiled unwanted).trans ?_
  rcases unwanted with _ | excluded
  · rcases compiled with _ | ⟨only, _ | ⟨second, others⟩⟩
    · rfl
    · nomatch kept rfl
    · rfl
  · rfl

/-- A disjunction that does not have a single child makes a disjunction. -/
theorem makes_or (kind : query.kind = .or) (exclusion : query.exclusion = none)
    (kept : compiled.length ≠ 1) :
    Makes fuel depth query (.or compiled query.effectiveBoost) := by
  refine (node_ok_iff Plan.engine fuel depth query _).mpr ⟨allowed, ?_⟩
  simp only [kind]
  refine ⟨exclusion, compiled, parts, Eq.symm ?_⟩
  refine (disjoined_plan query compiled).trans ?_
  rcases compiled with _ | ⟨only, _ | ⟨second, others⟩⟩
  · rfl
  · exact absurd rfl kept
  · rfl

/-- A best-of combination that does not have a single child makes such a combination. -/
theorem makes_disMax (kind : query.kind = .disMax) (exclusion : query.exclusion = none)
    (kept : compiled.length ≠ 1) :
    Makes fuel depth query (.disMax query.tiebreaker compiled query.effectiveBoost) := by
  refine (node_ok_iff Plan.engine fuel depth query _).mpr ⟨allowed, ?_⟩
  simp only [kind]
  refine ⟨exclusion, compiled, parts, Eq.symm ?_⟩
  refine (bestOf_plan query compiled).trans ?_
  rcases compiled with _ | ⟨only, _ | ⟨second, others⟩⟩
  · rfl
  · exact absurd rfl kept
  · rfl

end Making

/-- The quotation of a normal plan makes the plan, where the fuel allows its depth. -/
theorem makes_quote {fuel : Fuel} {above : Nat} {plan : Plan} (normal : plan.IsNormal)
    (allowed : fuel.allows (above + plan.depth)) : Makes fuel (above + 1) plan.quote plan := by
  induction plan generalizing above with
  | node plan onChildren onExclusion =>
      obtain ⟨⟨positive, root⟩, below⟩ := Plan.isNormal_iff.mp normal
      have deep := plan.depth_pos
      have here : fuel.allows (above + 1) := allows_of_le (by omega) allowed
      have further {lower : Plan} (member : lower ∈ plan.subplans) :
          lower.IsNormal ∧ fuel.allows (above + 1 + lower.depth) := by
        refine ⟨below lower member, allows_of_le ?_ allowed⟩
        obtain ⟨limit, shape⟩ := Nat.exists_eq_succ_of_ne_zero deep.ne'
        have bound := Plan.depth_le_succ_iff.mp shape.le lower member
        omega
      have parts : List.Forall₂ (Makes fuel (above + 1 + 1)) plan.quote.children
          plan.children := by
        rw [Plan.quote_children, List.forall₂_map_left_iff, List.forall₂_same]
        intro child member
        obtain ⟨normal, allowed⟩ := further (Plan.mem_subplans_iff.mpr (.inl member))
        exact onChildren child member normal allowed
      have unwanted : Option.Rel (Makes fuel (above + 1 + 1)) plan.quote.exclusion
          plan.exclusion := by
        rw [Plan.quote_exclusion]
        cases present : plan.exclusion with
        | none => exact .none
        | some excluded =>
            obtain ⟨normal, allowed⟩ := further (Plan.mem_subplans_iff.mpr (.inr present))
            exact .some (onExclusion excluded present normal allowed)
      have counts := Plan.effectiveBoost_quote positive
      cases plan with
      | term field value boost =>
          have named : (Plan.term field value boost).quote.field ≠ "" := by
            rw [Plan.quote_term]
            exact root
          have made := makes_term here (Plan.quote_kind _) (Plan.quote_exclusion _)
            (Plan.quote_children _) named
          rw [counts, Plan.quote_term] at made
          rw [Plan.quote_term]
          exact made
      | and plans exclusion boost =>
          have made := makes_and here parts (Plan.quote_kind _) unwanted root
          rw [counts] at made
          exact made
      | or plans boost =>
          have made := makes_or here parts (Plan.quote_kind _) (Plan.quote_exclusion _) root
          rw [counts] at made
          exact made
      | disMax tiebreaker plans boost =>
          have share : (Plan.disMax tiebreaker plans boost).quote.tiebreaker = tiebreaker := by
            rw [Plan.quote_disMax]
            rfl
          have made := makes_disMax here parts (Plan.quote_kind _) (Plan.quote_exclusion _) root
          rw [counts, share] at made
          exact made

/-- A compilation makes a normal plan that is not deeper than the query; every normal plan is
made of its quotation, and under the fuel that was enough for any query that makes it. -/
theorem compile_quote_of_normal :
    (∀ fuel query plan, (compile Plan.engine fuel (some query)).result = .ok plan →
      Plan.IsNormal plan ∧ Plan.depth plan ≤ query.depth) ∧
    (∀ plan : Plan, plan.IsNormal →
      (compile Plan.engine none (some plan.quote)).result = .ok plan) ∧
    ∀ fuel query plan, (compile Plan.engine fuel (some query)).result = .ok plan →
      (compile Plan.engine fuel (some (Plan.quote plan))).result = .ok plan := by
  have ofNode (fuel : Fuel) (query : Query) : (compile Plan.engine fuel (some query)).result =
      (node Plan.engine fuel 1 query).result := tree_result Plan.engine fuel query
  have quotes {fuel : Fuel} {plan : Plan} (normal : plan.IsNormal)
      (allowed : fuel.allows plan.depth) :
      (compile Plan.engine fuel (some plan.quote)).result = .ok plan := by
    rw [← Nat.zero_add plan.depth] at allowed
    exact (ofNode fuel plan.quote).trans (makes_quote normal allowed)
  refine ⟨?_, fun plan normal => quotes normal rfl, ?_⟩
  · intro fuel query plan compiles
    exact isNormal_of_node ((ofNode fuel query).symm.trans compiles)
  · intro fuel query plan compiles
    obtain ⟨normal, shallow⟩ := isNormal_of_node ((ofNode fuel query).symm.trans compiles)
    obtain ⟨-, allowed⟩ := (succeeds_iff_allows_depth Plan.engine fuel query).mp ⟨plan, compiles⟩
    exact quotes normal (allows_of_le shallow allowed)

/-- Two wrappers around a conjunction are not quoted, so the plan is two levels less deep than
the query and compiles to itself under the same fuel. -/
theorem compile_quote_of_wrapped_conjunction :
    let two : Weight := .ofBits 1073741824
    let conjunction : Query :=
      { Query.and [Query.term "a" "x"] with boost := two, exclusion := some (Query.term "b" "y") }
    let query : Query := Query.or [{ Query.disMax two [conjunction] with boost := two }]
    let plan : Plan := .and [.term "a" "x" none] (some (.term "b" "y" none)) (some two)
    (compile Plan.engine (some 4) (some query)).result = .ok plan ∧
      (plan.IsNormal ∧ plan.depth ≤ query.depth) ∧
      (compile Plan.engine none (some plan.quote)).result = .ok plan ∧
      (compile Plan.engine (some 4) (some plan.quote)).result = .ok plan := by
  intro two conjunction query plan
  have compiles : (compile Plan.engine (some 4) (some query)).result = .ok plan := rfl
  have normal := compile_quote_of_normal.1 (some 4) query plan compiles
  exact ⟨compiles, normal, compile_quote_of_normal.2.1 plan normal.1,
    compile_quote_of_normal.2.2 (some 4) query plan compiles⟩

end Compile

end BooleanQuery
