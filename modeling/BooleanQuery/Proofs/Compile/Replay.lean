import BooleanQuery.Proofs.Compile.Interpretation
import BooleanQuery.Proofs.Compile.Observation
import BooleanQuery.Proofs.Plan.Replay

/-!
# The calls of a compilation

The calls that a compilation makes can be carried out on a stack of plans, also if it fails.
If it succeeds they are the construction of the plan that the query compiles to, so the plan
is all that is left in the end, and nothing else about the query shows in the calls.

The induction starts from any calls that can be carried out. A failing part then leaves such
calls behind, with whatever it had put on the stack, and no later part is there to use it.
-/

namespace BooleanQuery

open Compile (weighted boostEvents exclusionEvents)

/-- A listing of the calls that build the queries of an engine: those for the parts of a query
in the order of the parts, and those that the compiler makes for the query itself. -/
structure Engine.Listing (engine : Engine) where
  calls : engine.Query → List Engine.Call
  calls_term : ∀ boost field value,
    calls (weighted boost engine.boostQuery (engine.term field value)) =
      .term field value :: (boostEvents .term boost).filterMap Event.call?
  calls_conjunction : ∀ boost compiled unwanted,
    calls (engine.ofConjunction (weighted boost engine.boostConjunction
        (engine.without unwanted (engine.conjunction compiled)))) =
      compiled.flatMap calls ++ .and compiled.length :: (unwanted.toList.flatMap calls ++
        (exclusionEvents unwanted ++ boostEvents .and boost).filterMap Event.call?)
  calls_disjunction : ∀ boost compiled,
    calls (engine.ofDisjunction (weighted boost engine.boostDisjunction
        (engine.disjunction compiled))) =
      compiled.flatMap calls ++
        .or compiled.length :: (boostEvents .or boost).filterMap Event.call?
  calls_disMax : ∀ boost tiebreaker compiled,
    calls (engine.ofDisMax (weighted boost engine.boostDisMax
        (engine.disMax tiebreaker compiled))) =
      compiled.flatMap calls ++
        .disMax tiebreaker compiled.length :: (boostEvents .disMax boost).filterMap Event.call?

namespace Compile

section Listings

variable {engine : Engine} (listing : engine.Listing)

/-- What a disjunction becomes is listed after its children, with the calls that are made. -/
theorem calls_disjoined (boost : Weight) (compiled : List engine.Query) :
    listing.calls (disjoined engine boost compiled) =
      compiled.flatMap listing.calls ++
        (combinationEvents compiled.length (.or compiled.length) .or boost).filterMap
          Event.call? := by
  rcases compiled with _ | ⟨only, _ | ⟨second, others⟩⟩
  · exact listing.calls_disjunction boost []
  · simp [disjoined, combinationEvents]
  · exact listing.calls_disjunction boost (only :: second :: others)

/-- What a best-of combination becomes is listed after its children, with the calls that are
made. -/
theorem calls_bestOf (boost tiebreaker : Weight) (compiled : List engine.Query) :
    listing.calls (bestOf engine boost tiebreaker compiled) =
      compiled.flatMap listing.calls ++
        (combinationEvents compiled.length (.disMax tiebreaker compiled.length) .disMax
          boost).filterMap Event.call? := by
  rcases compiled with _ | ⟨only, _ | ⟨second, others⟩⟩
  · exact listing.calls_disMax boost tiebreaker []
  · simp [bestOf, combinationEvents]
  · exact listing.calls_disMax boost tiebreaker (only :: second :: others)

variable {sound : List Engine.Call → Prop}
  (buildable : ∀ before query, sound before → sound (before ++ listing.calls query))
  {before : List Engine.Call} (soundBefore : sound before)

include buildable soundBefore

/-- The calls of a term are those listed for it. -/
theorem term_observes (query : Query) :
    (term engine query).Observes Event.call? sound before
      fun made => before ++ listing.calls made := by
  rw [term_eq]
  split
  · exact .fail soundBefore ..
  · split
    · exact .fail soundBefore ..
    · refine .ok ?_ (buildable _ _ soundBefore)
      rw [listing.calls_term]
      rfl

/-- The calls of a combination complete those listed for what it becomes. -/
theorem combination_observes (query : Query) {compiled : List engine.Query} {call : Engine.Call}
    {target : Engine.Target} {made : engine.Query}
    (listed : listing.calls made = compiled.flatMap listing.calls ++
      (combinationEvents compiled.length call target query.boost).filterMap Event.call?)
    (soundChildren : sound (before ++ compiled.flatMap listing.calls)) :
    (combination query compiled.length call target made).Observes Event.call? sound
      (before ++ compiled.flatMap listing.calls) fun made => before ++ listing.calls made := by
  unfold combination
  split
  · exact .fail soundChildren ..
  · refine .ok ?_ (buildable _ _ soundBefore)
    rw [listed, List.append_assoc]

/-- A conjunction can be made of compiled children. -/
theorem sound_and (compiled : List engine.Query) :
    sound (before ++ compiled.flatMap listing.calls ++ [.and compiled.length]) := by
  -- It is listed like this as long as it has neither an exclusion nor a weight.
  have bare : listing.calls (engine.ofConjunction (engine.conjunction compiled)) =
      compiled.flatMap listing.calls ++ [.and compiled.length] :=
    listing.calls_conjunction .zero compiled none
  rw [List.append_assoc, ← bare]
  exact buildable _ _ soundBefore

/-- The calls of a conjunction complete those listed for it, if those of its exclusion are
listed for the exclusion. -/
theorem conjunction_observes (query : Query) (compiled : List engine.Query)
    (soundChildren : sound (before ++ compiled.flatMap listing.calls))
    {exclusion : Run (Option engine.Query)}
    (onExclusion : ∀ before, sound before → exclusion.Observes Event.call? sound before
      fun unwanted => before ++ unwanted.toList.flatMap listing.calls) :
    (conjunction engine query exclusion compiled).Observes Event.call? sound
      (before ++ compiled.flatMap listing.calls) fun made => before ++ listing.calls made := by
  rcases sole : soleChild? query.exclusion compiled with _ | only
  · have made := sound_and listing buildable soundBefore compiled
    have making : (Run.emit (.called (.and compiled.length))).Observes Event.call? sound
        (before ++ compiled.flatMap listing.calls)
        fun _ => before ++ compiled.flatMap listing.calls ++ [.and compiled.length] :=
      .ok rfl made
    rw [conjunction_eq engine sole]
    refine making.bind fun _ _ => ?_
    refine (onExclusion _ made).bind fun unwanted _ => ?_
    refine .ok ?_ (buildable _ _ soundBefore)
    rw [listing.calls_conjunction]
    simp only [List.append_assoc, List.cons_append, List.nil_append]
  · obtain ⟨-, rfl⟩ := eq_of_soleChild? sole
    unfold conjunction
    rw [sole]
    exact .pure (by rw [List.flatMap_singleton]) soundChildren

section Nodes

variable {Depth : Type} [DepthCounter Depth] (fuel : Fuel) (depth : Depth)

/-- The calls of a node are those listed for what it compiles to. -/
theorem node_observes (query : Query) :
    (node engine fuel depth query).Observes Event.call? sound before
      fun made => before ++ listing.calls made := by
  induction query generalizing depth before with
  | node query onChildren onExclusion =>
      have children (before : List Engine.Call) (soundBefore : sound before) :=
        Run.Observes.mapM (fun child member before soundBefore =>
          onChildren child member soundBefore (DepthCounter.deeper depth)) soundBefore
      have exclusion (before : List Engine.Call) (soundBefore : sound before) :=
        Run.Observes.optionMapM (fun excluded member before soundBefore =>
          onExclusion excluded member soundBefore (DepthCounter.deeper depth)) soundBefore
      rw [node_eq]
      split
      · have entering : (Run.emit (.entered query.kind (DepthCounter.number depth))).Observes
            Event.call? sound before fun _ => before :=
          .ok (List.append_nil before) soundBefore
        refine entering.bind fun _ _ => ?_
        cases query.kind with
        | term => exact term_observes listing buildable soundBefore query
        | and =>
            refine (children before soundBefore).bind fun compiled soundChildren => ?_
            exact conjunction_observes listing buildable soundBefore query compiled
              soundChildren exclusion
        | or =>
            refine (children before soundBefore).bind fun compiled soundChildren => ?_
            rw [disjunction_eq]
            exact combination_observes listing buildable soundBefore query
              (calls_disjoined listing query.boost compiled) soundChildren
        | disMax =>
            refine (children before soundBefore).bind fun compiled soundChildren => ?_
            rw [disMax_eq]
            exact combination_observes listing buildable soundBefore query
              (calls_bestOf listing query.boost query.tiebreaker compiled) soundChildren
        | unknown number =>
            refine (children before soundBefore).bind fun compiled soundChildren => ?_
            exact .fail soundChildren ..
      · exact .fail soundBefore ..

end Nodes

end Listings

end Compile

/-- Plans are listed by their construction. -/
def Plan.listing : Plan.engine.Listing where
  calls := Plan.construction
  calls_term boost field value := by
    unfold weighted boostEvents
    split <;> rfl
  calls_conjunction boost compiled unwanted := by
    unfold weighted boostEvents
    cases unwanted with
    | none => split <;> exact Plan.construction_and compiled none _
    | some excluded => split <;> exact Plan.construction_and compiled (some excluded) _
  calls_disjunction boost compiled := by
    unfold weighted boostEvents
    split <;> exact Plan.construction_or compiled _
  calls_disMax boost tiebreaker compiled := by
    unfold weighted boostEvents
    split <;> exact Plan.construction_disMax tiebreaker compiled _

/-- Whether calls can be carried out on an empty stack. -/
def Plan.Replayable (calls : List Engine.Call) : Prop :=
  ∃ stack, Plan.replay calls [] = .ok stack

theorem Plan.Replayable.append_construction {calls : List Engine.Call}
    (replayable : Replayable calls) (plan : Plan) : Replayable (calls ++ plan.construction) := by
  obtain ⟨stack, carriedOut⟩ := replayable
  refine ⟨plan :: stack, ?_⟩
  rw [replay_append_of_ok carriedOut, replay_construction]

namespace Compile

theorem calls_reportFailure {α : Type} (run : Run α) : run.reportFailure.calls = run.calls :=
  run.observed_reportFailure fun _ => rfl

theorem tree_observes (fuel : Fuel) (query : Query) :
    (node Plan.engine fuel (DepthCounter.root : Nat) query).Observes Event.call?
      Plan.Replayable [] fun plan => Plan.listing.calls plan :=
  node_observes Plan.listing (fun _ plan replayable => replayable.append_construction plan)
    ⟨[], rfl⟩ fuel _ query

/-- The calls of a compilation can be carried out, whether or not it succeeds: the stack has
what each of them needs, and none of them overwrites an exclusion or a weight, or comes too
late for an exclusion. If a plan is the result, it alone is left on the stack, and the calls
are its construction. -/
theorem compile_calls_rebuild_plan (engine : Engine) (fuel : Fuel) (query : Option Query) :
    (∃ stack, Plan.replay (compile engine fuel query).calls [] = .ok stack) ∧
    ∀ plan, (compile Plan.engine fuel query).result = .ok plan →
      Plan.replay (compile engine fuel query).calls [] = .ok [plan] ∧
        (compile engine fuel query).calls = Plan.construction plan := by
  have ofPlans : (compile engine fuel query).calls = (compile Plan.engine fuel query).calls := by
    rw [Run.calls, compile_events_eq]
    rfl
  rw [ofPlans]
  cases query with
  | none => exact ⟨⟨[], rfl⟩, fun _ impossible => (nomatch impossible)⟩
  | some query =>
      have observed := tree_observes fuel query
      rw [compile, tree, calls_reportFailure, reportFailure_result]
      refine ⟨observed.isSound, fun plan compiles => ?_⟩
      have calls : (node Plan.engine fuel (DepthCounter.root : Nat) query).calls =
          Plan.construction plan := observed.reached plan compiles
      refine ⟨?_, calls⟩
      rw [calls]
      exact Plan.replay_construction plan []

/-- The wrapper in a conjunction makes no call, the exclusion follows the making of the
conjunction, and the weight comes last. -/
theorem compile_calls_rebuild_excluding_conjunction :
    let two : Weight := .ofBits 1073741824
    let query : Query :=
      { Query.and [Query.or [Query.term "a" "x"], Query.term "b" "y"] with
        boost := two, exclusion := some (Query.term "c" "z") }
    let plan : Plan :=
      .and [.term "a" "x" none, .term "b" "y" none] (some (.term "c" "z" none)) (some two)
    (compile Plan.engine defaultFuel (some query)).result = .ok plan ∧
      Plan.replay (compile Plan.engine defaultFuel (some query)).calls [] = .ok [plan] ∧
      (compile Plan.engine defaultFuel (some query)).calls = Plan.construction plan :=
  ⟨rfl, (compile_calls_rebuild_plan Plan.engine defaultFuel (some _)).2 _ rfl⟩

end Compile

end BooleanQuery
