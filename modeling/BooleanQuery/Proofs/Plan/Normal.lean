import BooleanQuery.Proofs.Plan.Interpretation
import BooleanQuery.Proofs.Plan.Tree
import BooleanQuery.Query.Basic

/-!
# Normal plans

A plan is normal if none of its nodes says something that a compilation would not have kept:
a term without a field, a weight without an effect, or a composite node that only stands
around a single child.

Plans are quoted as queries by the engine whose queries are query trees. So a quotation is an
interpretation like any other, and asks for the same combinations in the same order.
-/

namespace BooleanQuery

/-- The engine whose queries are query trees, in which each operation writes down that it was
asked for. -/
def Query.engine : Engine where
  Query := Query
  Conjunction := Query
  Disjunction := Query
  DisMax := Query
  term := Query.term
  conjunction := Query.and
  disjunction := Query.or
  disMax := Query.disMax
  exclude unwanted query := { query with exclusion := some unwanted }
  boostQuery boost query := { query with boost }
  boostConjunction boost query := { query with boost }
  boostDisjunction boost query := { query with boost }
  boostDisMax boost query := { query with boost }
  ofConjunction query := query
  ofDisjunction query := query
  ofDisMax query := query

namespace Plan

/-- The query that asks for a plan. -/
def quote (plan : Plan) : Query := Query.engine.interpret plan

@[simp] theorem quote_term (field value : String) (boost : Option Weight) :
    (Plan.term field value boost).quote =
      { Query.term field value with boost := boost.getD .zero } := by
  cases boost <;> rfl

/-- The quotation of a conjunction. -/
@[simp] theorem quote_and (children : List Plan) (exclusion : Option Plan) (boost : Option Weight) :
    (Plan.and children exclusion boost).quote =
      { Query.and (children.map quote) with
        exclusion := exclusion.map quote, boost := boost.getD .zero } := by
  unfold quote
  rw [Engine.interpret_and]
  cases exclusion <;> cases boost <;> rfl

/-- The quotation of a disjunction. -/
@[simp] theorem quote_or (children : List Plan) (boost : Option Weight) :
    (Plan.or children boost).quote =
      { Query.or (children.map quote) with boost := boost.getD .zero } := by
  unfold quote
  rw [Engine.interpret_or]
  cases boost <;> rfl

/-- The quotation of a best-of combination. -/
@[simp] theorem quote_disMax (tiebreaker : Weight) (children : List Plan) (boost : Option Weight) :
    (Plan.disMax tiebreaker children boost).quote =
      { Query.disMax tiebreaker (children.map quote) with boost := boost.getD .zero } := by
  unfold quote
  rw [Engine.interpret_disMax]
  cases boost <;> rfl

/-- What a plan asks for. -/
@[simp] def kind : Plan → Kind
  | .term _ _ _ => .term
  | .and _ _ _ => .and
  | .or _ _ => .or
  | .disMax _ _ _ => .disMax

@[simp] theorem quote_kind (plan : Plan) : plan.quote.kind = plan.kind := by
  cases plan <;> simp [Query.term, Query.and, Query.or, Query.disMax]

@[simp] theorem quote_children (plan : Plan) : plan.quote.children = plan.children.map quote := by
  cases plan <;> simp [Query.term, Query.and, Query.or, Query.disMax]

@[simp] theorem quote_exclusion (plan : Plan) :
    plan.quote.exclusion = plan.exclusion.map quote := by
  cases plan <;> simp [Query.term, Query.and, Query.or, Query.disMax]

@[simp] theorem quote_boost (plan : Plan) : plan.quote.boost = plan.boost.getD .zero := by
  cases plan <;> simp [Query.term, Query.and, Query.or, Query.disMax]

/-- The plans directly below a plan: its children in order, then its exclusion. -/
def subplans (plan : Plan) : List Plan := plan.children ++ plan.exclusion.toList

theorem mem_subplans_iff {plan lower : Plan} :
    lower ∈ plan.subplans ↔ lower ∈ plan.children ∨ lower ∈ plan.exclusion := by
  rw [subplans, List.mem_append, Option.mem_toList, Option.mem_def]

/-- What a node of a normal plan must be like, whatever is below it: a term has a field, a
weight has an effect, and a composite node with a single child has an exclusion as well. -/
def IsNormalNode (plan : Plan) : Prop :=
  (∀ weight ∈ plan.boost, weight.isPositive) ∧
    match plan with
    | .term field _ _ => field ≠ ""
    | .and children exclusion _ => children.length = 1 → exclusion.isSome
    | .or children _ | .disMax _ children _ => children.length ≠ 1

/-- Whether all nodes of a plan are such that a compilation could have made them. -/
def IsNormal (plan : Plan) : Prop := ∀ node ∈ plan.preorder, node.IsNormalNode

/-- A plan is normal if its root is like that and the plans directly below are normal. -/
theorem isNormal_iff {plan : Plan} :
    plan.IsNormal ↔ plan.IsNormalNode ∧ ∀ lower ∈ plan.subplans, lower.IsNormal := by
  unfold IsNormal
  rw [preorder_eq, List.forall_mem_cons, ← List.flatMap_append]
  refine and_congr_right fun _ => ?_
  constructor
  · intro each lower member node within
    exact each node (List.mem_flatMap.mpr ⟨lower, member, within⟩)
  · intro each node within
    obtain ⟨lower, member, within⟩ := List.mem_flatMap.mp within
    exact each lower member node within

mutual

/-- The number of nodes on the longest way down from a plan. -/
def depth : Plan → Nat
  | .term _ _ _ => 1
  | .and children exclusion _ => max (depthAll children) (depthOption exclusion) + 1
  | .or children _ | .disMax _ children _ => depthAll children + 1

/-- The greatest depth among plans. -/
def depthAll : List Plan → Nat
  | [] => 0
  | plan :: plans => max plan.depth (depthAll plans)

/-- The depth of an exclusion, if there is one. -/
def depthOption : Option Plan → Nat
  | none => 0
  | some excluded => excluded.depth

end

/-- Plans are bounded in depth if each of them is. -/
theorem depthAll_le_iff {plans : List Plan} {limit : Nat} :
    depthAll plans ≤ limit ↔ ∀ plan ∈ plans, plan.depth ≤ limit := by
  induction plans with
  | nil => simp [depthAll]
  | cons plan plans inductionHypothesis =>
      rw [depthAll, Nat.max_le, inductionHypothesis, List.forall_mem_cons]

/-- A plan is one deeper than what is below it. -/
theorem depth_le_succ_iff {plan : Plan} {limit : Nat} :
    plan.depth ≤ limit + 1 ↔ ∀ lower ∈ plan.subplans, lower.depth ≤ limit := by
  simp only [mem_subplans_iff, or_imp, forall_and, ← depthAll_le_iff]
  cases plan with
  | term field value boost => simp [depth, depthAll]
  | and children exclusion boost =>
      simp only [depth, Plan.children, Plan.exclusion, Nat.add_le_add_iff_right, Nat.max_le]
      cases exclusion <;> simp [depthOption]
  | or children boost => simp [depth]
  | disMax tiebreaker children boost => simp [depth]

theorem depth_pos (plan : Plan) : 0 < plan.depth := by
  cases plan <;> simp [depth]

end Plan

end BooleanQuery
