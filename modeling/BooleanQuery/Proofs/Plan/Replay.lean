import BooleanQuery.Proofs.Plan.Tree

/-!
# Plans from calls

A list of calls is a program for a stack of plans: a term is pushed, a combination takes its
children from the stack, and an exclusion or a weight changes the plan on top. A call that the
stack is not ready for is a misuse, and so is one that would overwrite an exclusion or a
weight, or that would exclude something from a conjunction that already has its weight.

Every plan has one list of calls, `Plan.construction`, that leaves exactly this plan on top of
any stack (`Plan.replay_construction`).
-/

namespace BooleanQuery.Plan

/-- What a weight is given to when it is given to a plan. -/
def target : Plan → Engine.Target
  | .term _ _ _ => .term
  | .and _ _ _ => .and
  | .or _ _ => .or
  | .disMax _ _ _ => .disMax

/-- Why a call cannot be carried out on a stack of plans. -/
inductive Misuse where
  | underflow
  | wrongKind
  | excludedTwice
  | excludedLate
  | boostedTwice
deriving DecidableEq, Repr

/-- Combine so many plans from the top of a stack; the deepest is the first child. -/
def combineTop (count : Nat) (combine : List Plan → Plan) (stack : List Plan) :
    Except Misuse (List Plan) :=
  if count ≤ stack.length then .ok (combine (stack.take count).reverse :: stack.drop count)
  else .error .underflow

/-- Exclude the plan on top of a stack from the conjunction below it. -/
def excludeTop : List Plan → Except Misuse (List Plan)
  | unwanted :: .and children exclusion boost :: rest =>
      if exclusion.isSome then .error .excludedTwice
      else if boost.isSome then .error .excludedLate
      else .ok (.and children (some unwanted) boost :: rest)
  | _ :: _ :: _ => .error .wrongKind
  | _ => .error .underflow

/-- Give a weight to the plan on top of a stack. -/
def boostTop (target : Engine.Target) (weight : Weight) :
    List Plan → Except Misuse (List Plan)
  | plan :: rest =>
      if plan.target ≠ target then .error .wrongKind
      else if plan.boost.isSome then .error .boostedTwice
      else .ok (plan.boosted weight :: rest)
  | [] => .error .underflow

/-- Carry out a call on a stack of plans. -/
def replayCall (stack : List Plan) : Engine.Call → Except Misuse (List Plan)
  | .term field value => .ok (.term field value none :: stack)
  | .and count => combineTop count (fun children => .and children none none) stack
  | .or count => combineTop count (fun children => .or children none) stack
  | .disMax tiebreaker count =>
      combineTop count (fun children => .disMax tiebreaker children none) stack
  | .exclude => excludeTop stack
  | .boost target weight => boostTop target weight stack

/-- Carry out calls, one after another, on a stack of plans. -/
def replay (calls : List Engine.Call) (stack : List Plan) : Except Misuse (List Plan) :=
  calls.foldlM replayCall stack

theorem replay_append_of_ok {first : List Engine.Call} {stack middle : List Plan}
    (carriedOut : replay first stack = .ok middle) (second : List Engine.Call) :
    replay (first ++ second) stack = replay second middle := by
  rw [replay, List.foldlM_append]
  exact congrArg (· >>= replay second) carriedOut

theorem replay_cons_of_ok {call : Engine.Call} {stack middle : List Plan}
    (carriedOut : replayCall stack call = .ok middle) (calls : List Engine.Call) :
    replay (call :: calls) stack = replay calls middle := by
  rw [replay, List.foldlM_cons]
  exact congrArg (· >>= replay calls) carriedOut

/-- The call that gives a plan its boost, if it has one. -/
def boostCalls (target : Engine.Target) (boost : Option Weight) : List Engine.Call :=
  boost.toList.map (.boost target)

mutual

/-- The calls that build a plan: those for its children in order, the one that makes it, those
for its exclusion and the excluding one, and the one that gives it its boost. -/
def construction : Plan → List Engine.Call
  | .term field value boost => .term field value :: boostCalls .term boost
  | .and children exclusion boost =>
      constructionAll children ++
        .and children.length :: (exclusionConstruction exclusion ++ boostCalls .and boost)
  | .or children boost => constructionAll children ++ .or children.length :: boostCalls .or boost
  | .disMax tiebreaker children boost =>
      constructionAll children ++
        .disMax tiebreaker children.length :: boostCalls .disMax boost

/-- The calls that build plans, one plan after another. -/
def constructionAll : List Plan → List Engine.Call
  | [] => []
  | plan :: plans => plan.construction ++ constructionAll plans

/-- The calls that give a conjunction its exclusion. -/
def exclusionConstruction : Option Plan → List Engine.Call
  | none => []
  | some excluded => excluded.construction ++ [.exclude]

end

/-- The calls that build plans are those of one plan after another. -/
@[simp] theorem constructionAll_eq (plans : List Plan) :
    constructionAll plans = plans.flatMap construction := by
  induction plans with
  | nil => rfl
  | cons plan plans inductionHypothesis =>
      rw [constructionAll, List.flatMap_cons, inductionHypothesis]

/-- The construction of a conjunction. -/
theorem construction_and (children : List Plan) (exclusion : Option Plan)
    (boost : Option Weight) :
    construction (.and children exclusion boost) =
      children.flatMap construction ++
        .and children.length :: (exclusion.toList.flatMap construction ++
          (exclusion.toList.map (fun _ => .exclude) ++ boostCalls .and boost)) := by
  rw [construction, constructionAll_eq]
  cases exclusion with
  | none => rfl
  | some excluded => simp [exclusionConstruction]

theorem construction_or (children : List Plan) (boost : Option Weight) :
    construction (.or children boost) =
      children.flatMap construction ++ .or children.length :: boostCalls .or boost := by
  rw [construction, constructionAll_eq]

/-- The construction of a best-of combination. -/
theorem construction_disMax (tiebreaker : Weight) (children : List Plan)
    (boost : Option Weight) :
    construction (.disMax tiebreaker children boost) =
      children.flatMap construction ++
        .disMax tiebreaker children.length :: boostCalls .disMax boost := by
  rw [construction, constructionAll_eq]

/-- Plans that lie on top of a stack, the last one topmost, can be combined. -/
theorem combineTop_reverse (combine : List Plan → Plan) (plans stack : List Plan) :
    combineTop plans.length combine (plans.reverse ++ stack) = .ok (combine plans :: stack) := by
  have enough : plans.length ≤ (plans.reverse ++ stack).length := by simp
  have taken : (plans.reverse ++ stack).take plans.length = plans.reverse :=
    List.take_left' List.length_reverse
  have dropped : (plans.reverse ++ stack).drop plans.length = stack :=
    List.drop_left' List.length_reverse
  rw [combineTop, if_pos enough, taken, dropped, List.reverse_reverse]

/-- The calls for plans leave them on the stack, the last one topmost. -/
theorem replay_constructionAll {plans : List Plan}
    (each : ∀ plan ∈ plans, ∀ stack, replay plan.construction stack = .ok (plan :: stack))
    (stack : List Plan) : replay (constructionAll plans) stack = .ok (plans.reverse ++ stack) := by
  induction plans generalizing stack with
  | nil => rfl
  | cons plan plans inductionHypothesis =>
      have others := inductionHypothesis fun other member =>
        each other (List.mem_cons_of_mem _ member)
      rw [constructionAll, replay_append_of_ok (each plan List.mem_cons_self stack), others,
        List.reverse_cons, List.append_assoc, List.singleton_append]

/-- A combination takes the plans that the calls before it have left on the stack. -/
theorem replay_combination {plans stack : List Plan} {call : Engine.Call}
    (combine : List Plan → Plan)
    (children : replay (constructionAll plans) stack = .ok (plans.reverse ++ stack))
    (combines : ∀ stack, replayCall stack call = combineTop plans.length combine stack)
    (calls : List Engine.Call) :
    replay (constructionAll plans ++ call :: calls) stack =
      replay calls (combine plans :: stack) := by
  have combined : replayCall (plans.reverse ++ stack) call = .ok (combine plans :: stack) := by
    rw [combines, combineTop_reverse]
  rw [replay_append_of_ok children, replay_cons_of_ok combined]

/-- The calls for an exclusion give it to a conjunction that has neither exclusion nor weight. -/
theorem replay_exclusionConstruction {exclusion : Option Plan}
    (each : ∀ excluded ∈ exclusion, ∀ stack,
      replay excluded.construction stack = .ok (excluded :: stack))
    (children stack : List Plan) :
    replay (exclusionConstruction exclusion) (.and children none none :: stack) =
      .ok (.and children exclusion none :: stack) := by
  cases exclusion with
  | none => rfl
  | some excluded =>
      rw [exclusionConstruction, replay_append_of_ok (each excluded rfl _)]
      rfl

/-- The calls that build a plan leave exactly this plan on top of any stack. -/
theorem replay_construction (plan : Plan) (stack : List Plan) :
    replay plan.construction stack = .ok (plan :: stack) := by
  induction plan generalizing stack with
  | node plan onChildren onExclusion =>
      have children := replay_constructionAll onChildren stack
      cases plan with
      | term field value boost => cases boost <;> rfl
      | and plans exclusion boost =>
          have excluded := replay_exclusionConstruction onExclusion plans stack
          rw [Plan.children] at children
          rw [Plan.exclusion] at excluded
          rw [construction,
            replay_combination (fun children => .and children none none) children fun _ => rfl,
            replay_append_of_ok excluded]
          cases boost <;> rfl
      | or plans boost =>
          rw [Plan.children] at children
          rw [construction,
            replay_combination (fun children => .or children none) children fun _ => rfl]
          cases boost <;> rfl
      | disMax tiebreaker plans boost =>
          rw [Plan.children] at children
          rw [construction,
            replay_combination (fun children => .disMax tiebreaker children none) children
              fun _ => rfl]
          cases boost <;> rfl

end BooleanQuery.Plan
