import BooleanQuery.Plan.Basic

/-!
# Plans as trees

A plan is a node with children, of which only conjunctions also have an exclusion.
`Plan.treeInduction` carries a property from the subtrees of a node to the node, and
`Plan.preorder` lists all nodes.
-/

namespace BooleanQuery.Plan

/-- A property that passes from the children and the exclusion of every node to the node
holds of all plans. -/
@[elab_as_elim, induction_eliminator]
theorem treeInduction {motive : Plan → Prop}
    (node : ∀ plan : Plan, (∀ child ∈ plan.children, motive child) →
      (∀ excluded ∈ plan.exclusion, motive excluded) → motive plan)
    (plan : Plan) : motive plan :=
  Plan.rec (motive_1 := motive)
    (motive_2 := fun children => ∀ child ∈ children, motive child)
    (motive_3 := fun exclusion => ∀ excluded ∈ exclusion, motive excluded)
    (fun field value boost =>
      node (.term field value boost) (fun _ absent => nomatch absent)
        (fun _ absent => nomatch absent))
    (fun children exclusion boost => node (.and children exclusion boost))
    (fun children boost onChildren =>
      node (.or children boost) onChildren (fun _ absent => nomatch absent))
    (fun tiebreaker children boost onChildren =>
      node (.disMax tiebreaker children boost) onChildren (fun _ absent => nomatch absent))
    (fun _ absent => nomatch absent)
    (fun child children holds onChildren other present => by
      cases present with
      | head => exact holds
      | tail _ later => exact onChildren other later)
    (fun _ absent => nomatch absent)
    (fun excluded holds _ present => by
      cases present
      exact holds)
    plan

mutual

/-- The nodes of a plan: the plan itself, the nodes of its children in order, and those of
its exclusion. -/
def preorder : Plan → List Plan
  | .term field value boost => [.term field value boost]
  | .and children exclusion boost =>
      .and children exclusion boost :: (preorderAll children ++ preorderOption exclusion)
  | .or children boost => .or children boost :: preorderAll children
  | .disMax tiebreaker children boost =>
      .disMax tiebreaker children boost :: preorderAll children

/-- The nodes of plans, one plan after another. -/
def preorderAll : List Plan → List Plan
  | [] => []
  | plan :: plans => plan.preorder ++ preorderAll plans

/-- The nodes of an exclusion. -/
def preorderOption : Option Plan → List Plan
  | none => []
  | some excluded => excluded.preorder

end

/-- The nodes of plans are those of one plan after another. -/
@[simp] theorem preorderAll_eq (plans : List Plan) :
    preorderAll plans = plans.flatMap preorder := by
  induction plans with
  | nil => rfl
  | cons plan plans inductionHypothesis =>
      rw [preorderAll, List.flatMap_cons, inductionHypothesis]

/-- A plan comes first among its nodes; then come those of its children and those of its
exclusion. -/
theorem preorder_eq (plan : Plan) :
    plan.preorder =
      plan :: (plan.children.flatMap preorder ++ plan.exclusion.toList.flatMap preorder) := by
  cases plan with
  | term field value boost => rfl
  | and children exclusion boost =>
      cases exclusion <;>
        simp [preorder, preorderOption]
  | or children boost => simp [preorder]
  | disMax tiebreaker children boost =>
      simp [preorder]

end BooleanQuery.Plan
