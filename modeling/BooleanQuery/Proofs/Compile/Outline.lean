import BooleanQuery.Proofs.Compile.Result
import BooleanQuery.Proofs.Plan.Tree

/-!
# Outlines

An outline is what a node says about itself: its kind, how many children it has and whether
it has an exclusion, its effective boost, and the members that matter for its kind. The
outlines of a query and those of the plan that it compiles to are the same, in preorder, but
for the composite nodes that were replaced by their only child.
-/

namespace BooleanQuery

/-- What a node of a query or of a plan says about itself. -/
structure Outline where
  kind : Kind
  children : Nat
  excludes : Bool
  boost : Option Weight
  term : Option (String × String)
  tiebreaker : Option Weight
deriving DecidableEq, Repr

namespace Query

/-- The outline of a node of a query. -/
def outline (query : Query) : Outline where
  kind := query.kind
  children := query.children.length
  excludes := query.exclusion.isSome
  boost := query.effectiveBoost
  term := if query.kind = .term then some (query.field, query.value) else none
  tiebreaker := if query.kind = .disMax then some query.tiebreaker else none

/-- Whether a node only stands around a single child: a composite node of a known kind with
one child and no exclusion. -/
def isCollapsed (query : Query) : Bool :=
  (query.kind = .and || query.kind = .or || query.kind = .disMax) &&
    query.exclusion.isNone && query.children.length = 1

/-- What it is to stand around a single child. -/
theorem isCollapsed_iff {query : Query} :
    query.isCollapsed = true ↔
      (query.kind = .and ∨ query.kind = .or ∨ query.kind = .disMax) ∧
        query.exclusion = none ∧ ∃ only, query.children = [only] := by
  simp [isCollapsed, List.length_eq_one_iff, and_assoc, or_assoc]

/-- The outlines of a query in preorder, without the nodes around single children. -/
def keptOutlines (query : Query) : List Outline :=
  (query.preorder.filter fun node => !node.isCollapsed).map outline

/-- The outlines of a query are its own, if it is kept, and those of the nodes below it. -/
theorem keptOutlines_eq (query : Query) :
    query.keptOutlines =
      (if query.isCollapsed then [] else [query.outline]) ++
        (query.children.flatMap keptOutlines ++
          query.exclusion.toList.flatMap keptOutlines) := by
  have below (queries : List Query) :
      ((queries.flatMap preorder).filter fun node => !node.isCollapsed).map outline =
        queries.flatMap keptOutlines := by
    rw [List.filter_flatMap, List.map_flatMap]
    rfl
  rw [keptOutlines, preorder_eq, List.filter_cons, List.filter_append]
  cases query.isCollapsed <;> simp [below]

end Query

namespace Plan

/-- The outline of a node of a plan. -/
def outline (plan : Plan) : Outline :=
  let shape (kind : Kind) : Outline :=
    ⟨kind, plan.children.length, plan.exclusion.isSome, plan.boost, none, none⟩
  match plan with
  | .term field value _ => { shape .term with term := some (field, value) }
  | .and _ _ _ => shape .and
  | .or _ _ => shape .or
  | .disMax tiebreaker _ _ => { shape .disMax with tiebreaker := some tiebreaker }

/-- The outlines of a plan in preorder. -/
def outlines (plan : Plan) : List Outline := plan.preorder.map outline

/-- The outlines of a plan are its own and those of the nodes below it. -/
theorem outlines_eq (plan : Plan) :
    plan.outlines =
      plan.outline ::
        (plan.children.flatMap outlines ++ plan.exclusion.toList.flatMap outlines) := by
  rw [outlines, preorder_eq, List.map_cons, List.map_append, List.map_flatMap, List.map_flatMap]
  rfl

end Plan

namespace Compile

theorem weighted_term (query : Query) :
    weighted query.boost Plan.engine.boostQuery (Plan.engine.term query.field query.value) =
      .term query.field query.value query.effectiveBoost := by
  unfold weighted Query.effectiveBoost
  cases query.boost.isPositive <;> rfl

/-- The plan of a conjunction. -/
theorem conjoined_plan (query : Query) (compiled : List Plan) (unwanted : Option Plan) :
    conjoined Plan.engine query.boost compiled unwanted =
      match unwanted, compiled with
      | none, [only] => only
      | unwanted, compiled => .and compiled unwanted query.effectiveBoost := by
  unfold conjoined weighted Query.effectiveBoost
  rcases unwanted with _ | excluded
  · rcases compiled with _ | ⟨only, _ | ⟨second, others⟩⟩ <;>
      cases query.boost.isPositive <;> rfl
  · cases query.boost.isPositive <;> rfl

/-- The plan of a disjunction. -/
theorem disjoined_plan (query : Query) (compiled : List Plan) :
    disjoined Plan.engine query.boost compiled =
      match compiled with
      | [only] => only
      | compiled => .or compiled query.effectiveBoost := by
  unfold disjoined weighted Query.effectiveBoost
  rcases compiled with _ | ⟨only, _ | ⟨second, others⟩⟩ <;>
    cases query.boost.isPositive <;> rfl

/-- The plan of a best-of combination. -/
theorem bestOf_plan (query : Query) (compiled : List Plan) :
    bestOf Plan.engine query.boost query.tiebreaker compiled =
      match compiled with
      | [only] => only
      | compiled => .disMax query.tiebreaker compiled query.effectiveBoost := by
  unfold bestOf weighted Query.effectiveBoost
  rcases compiled with _ | ⟨only, _ | ⟨second, others⟩⟩ <;>
    cases query.boost.isPositive <;> rfl

/-- A plan stands for a node, given plans for what is below the node: either it is the only
one of them and the node is around a single child, or it is a node of its own that has them
below it and the same outline. -/
def StandsFor (query : Query) (compiled : List Plan) (unwanted : Option Plan) (made : Plan) :
    Prop :=
  query.isCollapsed = true ∧ compiled = [made] ∧ unwanted = none ∨
    query.isCollapsed = false ∧ made.children = compiled ∧ made.exclusion = unwanted ∧
      made.outline = query.outline

/-- A plan that stands for a node has its outlines, if the plans below have those of the
queries below. -/
theorem StandsFor.outlines_eq {query : Query} {compiled : List Plan} {unwanted : Option Plan}
    {made : Plan} (stands : StandsFor query compiled unwanted made)
    (onChildren : compiled.flatMap Plan.outlines = query.children.flatMap Query.keptOutlines)
    (onExclusion : unwanted.toList.flatMap Plan.outlines =
      query.exclusion.toList.flatMap Query.keptOutlines) :
    made.outlines = query.keptOutlines := by
  rw [Query.keptOutlines_eq, ← onChildren, ← onExclusion]
  rcases stands with ⟨collapsed, rfl, rfl⟩ | ⟨kept, rfl, rfl, outline⟩
  · simp [collapsed]
  · simp [kept, Plan.outlines_eq made, outline]

theorem standsFor_term {query : Query} (kind : query.kind = .term)
    (exclusion : query.exclusion = none) (children : query.children = []) :
    StandsFor query [] none (.term query.field query.value query.effectiveBoost) := by
  right
  simp [Query.isCollapsed, Query.outline, Plan.outline, kind, exclusion, children]

/-- The plan of a conjunction stands for it. -/
theorem standsFor_conjoined {query : Query} (kind : query.kind = .and) {compiled : List Plan}
    {unwanted : Option Plan} (count : query.children.length = compiled.length)
    (presence : query.exclusion.isSome = unwanted.isSome) :
    StandsFor query compiled unwanted (conjoined Plan.engine query.boost compiled unwanted) := by
  have collapsed : query.isCollapsed = (unwanted.isNone && compiled.length = 1) := by
    simp [Query.isCollapsed, kind, count, ← Option.not_isSome, presence]
  have outline : query.outline = (Plan.and compiled unwanted query.effectiveBoost).outline := by
    simp [Query.outline, Plan.outline, kind, count, presence]
  unfold StandsFor
  rw [conjoined_plan, collapsed, outline]
  rcases unwanted with _ | excluded
  · rcases compiled with _ | ⟨only, _ | ⟨second, others⟩⟩ <;> simp
  · simp

/-- The plan of a disjunction stands for it. -/
theorem standsFor_disjoined {query : Query} (kind : query.kind = .or)
    (exclusion : query.exclusion = none) {compiled : List Plan}
    (count : query.children.length = compiled.length) :
    StandsFor query compiled none (disjoined Plan.engine query.boost compiled) := by
  have collapsed : query.isCollapsed = decide (compiled.length = 1) := by
    simp [Query.isCollapsed, kind, count, exclusion]
  have outline : query.outline = (Plan.or compiled query.effectiveBoost).outline := by
    simp [Query.outline, Plan.outline, kind, count, exclusion]
  unfold StandsFor
  rw [disjoined_plan, collapsed, outline]
  rcases compiled with _ | ⟨only, _ | ⟨second, others⟩⟩ <;> simp

/-- The plan of a best-of combination stands for it. -/
theorem standsFor_bestOf {query : Query} (kind : query.kind = .disMax)
    (exclusion : query.exclusion = none) {compiled : List Plan}
    (count : query.children.length = compiled.length) :
    StandsFor query compiled none
      (bestOf Plan.engine query.boost query.tiebreaker compiled) := by
  have collapsed : query.isCollapsed = decide (compiled.length = 1) := by
    simp [Query.isCollapsed, kind, count, exclusion]
  have outline : query.outline =
      (Plan.disMax query.tiebreaker compiled query.effectiveBoost).outline := by
    simp [Query.outline, Plan.outline, kind, count, exclusion]
  unfold StandsFor
  rw [bestOf_plan, collapsed, outline]
  rcases compiled with _ | ⟨only, _ | ⟨second, others⟩⟩ <;> simp

/-- A node compiles only if what is below it does, and its plan stands for it. -/
theorem standsFor_of_node {fuel : Fuel} {depth : Nat} {query : Query} {plan : Plan}
    (compiles : (node Plan.engine fuel depth query).result = .ok plan) :
    ∃ (compiled : List Plan) (unwanted : Option Plan),
      List.Forall₂ (fun child part => (node Plan.engine fuel (depth + 1) child).result = .ok part)
        query.children compiled ∧
      Option.Rel (fun child part => (node Plan.engine fuel (depth + 1) child).result = .ok part)
        query.exclusion unwanted ∧
      StandsFor query compiled unwanted plan := by
  obtain ⟨-, compiles⟩ := (node_ok_iff Plan.engine fuel depth query plan).mp compiles
  cases kind : query.kind with
  | term =>
      simp only [kind] at compiles
      obtain ⟨exclusion, noChildren, -, rfl⟩ := compiles
      have plan := weighted_term query
      refine ⟨[], none, noChildren ▸ .nil, exclusion ▸ .none, ?_⟩
      exact (congrArg (StandsFor query [] none) plan).mpr
        (standsFor_term kind exclusion noChildren)
  | and =>
      simp only [kind] at compiles
      obtain ⟨compiled, unwanted, parts, excluded, rfl⟩ := compiles
      exact ⟨compiled, unwanted, parts, excluded,
        standsFor_conjoined kind parts.length_eq (isSome_eq_of_rel excluded)⟩
  | or =>
      simp only [kind] at compiles
      obtain ⟨exclusion, compiled, parts, rfl⟩ := compiles
      exact ⟨compiled, none, parts, exclusion ▸ .none,
        standsFor_disjoined kind exclusion parts.length_eq⟩
  | disMax =>
      simp only [kind] at compiles
      obtain ⟨exclusion, compiled, parts, rfl⟩ := compiles
      exact ⟨compiled, none, parts, exclusion ▸ .none,
        standsFor_bestOf kind exclusion parts.length_eq⟩
  | unknown number => simp only [kind] at compiles

/-- A node that compiles and its plan have the same outlines, at every depth. -/
theorem outlines_of_node (fuel : Fuel) (depth : Nat) (query : Query) (plan : Plan)
    (compiles : (node Plan.engine fuel depth query).result = .ok plan) :
    plan.outlines = query.keptOutlines := by
  induction query generalizing depth plan with
  | node query onChildren onExclusion =>
      obtain ⟨compiled, unwanted, parts, excluded, stands⟩ := standsFor_of_node compiles
      refine stands.outlines_eq ?_ ?_
      · exact flatMap_eq_of_forall₂ parts fun child member part compiled =>
          onChildren child member (depth + 1) part compiled
      · exact flatMap_eq_of_forall₂ (forall₂_toList excluded) fun child member part compiled =>
          onExclusion child (Option.mem_toList.mp member) (depth + 1) part compiled

/-- The plan of a query is its tree without the composite nodes around single children:
nothing else is lost, added, reordered or changed. -/
theorem preorder_outlines_of_compile (fuel : Fuel) (query : Query) (plan : Plan)
    (compiles : (compile Plan.engine fuel (some query)).result = .ok plan) :
    plan.preorder.map Plan.outline =
      (query.preorder.filter fun node => !node.isCollapsed).map Query.outline := by
  rw [compile, tree_result] at compiles
  exact outlines_of_node fuel 1 query plan compiles

/-- Two wrappers around a conjunction disappear, with the boost of the outer one and the
tiebreaker of the inner one; the conjunction keeps its only child, because it has an
exclusion. -/
theorem preorder_outlines_of_wrapped_conjunction :
    let two : Weight := .ofBits 1073741824
    let conjunction : Query :=
      { Query.and [Query.term "a" "x"] with boost := two, exclusion := some (Query.term "b" "y") }
    let query : Query := { Query.or [Query.disMax two [conjunction]] with boost := two }
    let plan : Plan := .and [.term "a" "x" none] (some (.term "b" "y" none)) (some two)
    (compile Plan.engine defaultFuel (some query)).result = .ok plan ∧
      plan.preorder.map Plan.outline =
        (query.preorder.filter fun node => !node.isCollapsed).map Query.outline :=
  ⟨rfl, preorder_outlines_of_compile defaultFuel _ _ rfl⟩

end Compile

end BooleanQuery
