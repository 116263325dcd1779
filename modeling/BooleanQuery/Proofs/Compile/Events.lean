import BooleanQuery.Proofs.Compile.Result
import BooleanQuery.Proofs.Plan.Interpretation

/-!
# Whole runs

What happens in a run, besides its result. Weighting, a term and a combination of compiled
children each make a fixed list of calls, which depends on the query and on the number of
children, but never on the engine; `Compile.node_eq` puts the run of a node together from
those of its children and of its exclusion. Proofs about events start from these equations.
-/

namespace BooleanQuery

namespace Compile

variable (engine : Engine)

/-- The call that gives a weight, if the weight has an effect. -/
def boostEvents (target : Engine.Target) (weight : Weight) : List Event :=
  if weight.isPositive then [.called (.boost target weight)] else []

/-- Weighting makes at most one call. -/
theorem boosted_eq {α : Type} (target : Engine.Target) (weight : Weight)
    (apply : Weight → α → α) (value : α) :
    boosted target weight apply value =
      ⟨boostEvents target weight, .ok (weighted weight apply value)⟩ := by
  unfold boosted boostEvents weighted
  split <;> rfl

/-- The run of a legal term. -/
theorem term_eq (query : Query) :
    term engine query =
      if query.exclusion.isSome || !query.children.isEmpty then
        Run.fail (.misshapenTerm query.text)
      else if query.field = "" then Run.fail (.missingField query.text)
      else
        ⟨.called (.term query.field query.value) :: boostEvents .term query.boost,
          .ok (weighted query.boost engine.boostQuery (engine.term query.field query.value))⟩ := by
  unfold term
  simp only [boosted_eq]
  rfl

/-- What happens when compiled children are combined: nothing if there is only one of them, and
otherwise the combination is made and given its weight. -/
def combinationEvents (count : Nat) (call : Engine.Call) (target : Engine.Target)
    (weight : Weight) : List Event :=
  if count = 1 then [] else .called call :: boostEvents target weight

/-- The run of a combination of so many compiled children, given what it becomes, for a node
that must not have an exclusion. -/
def combination {α : Type} (query : Query) (count : Nat) (call : Engine.Call)
    (target : Engine.Target) (made : α) : Run α :=
  if query.exclusion.isSome then Run.fail (.misplacedExclusion query.kind query.text)
  else ⟨combinationEvents count call target query.boost, .ok made⟩

/-- The run of a disjunction of compiled children. -/
theorem disjunction_eq (query : Query) (compiled : List engine.Query) :
    disjunction engine query compiled =
      combination query compiled.length (.or compiled.length) .or
        (disjoined engine query.boost compiled) := by
  unfold disjunction
  simp only [boosted_eq, bind_pure_comp, Run.map_ok]
  rcases compiled with _ | ⟨only, _ | ⟨second, others⟩⟩ <;> rfl

/-- The run of a best-of combination of compiled children. -/
theorem disMax_eq (query : Query) (compiled : List engine.Query) :
    disMax engine query compiled =
      combination query compiled.length (.disMax query.tiebreaker compiled.length) .disMax
        (bestOf engine query.boost query.tiebreaker compiled) := by
  unfold disMax
  simp only [boosted_eq, bind_pure_comp, Run.map_ok]
  rcases compiled with _ | ⟨only, _ | ⟨second, others⟩⟩ <;> rfl

/-- A child that replaces its conjunction is the only one, and there is no exclusion. -/
theorem eq_of_soleChild? {α : Type} {exclusion : Option Query} {children : List α} {only : α}
    (sole : soleChild? exclusion children = some only) : exclusion = none ∧ children = [only] := by
  rcases exclusion with _ | excluded
  · rcases children with _ | ⟨first, _ | ⟨second, others⟩⟩
    · nomatch sole
    · exact ⟨rfl, congrArg (fun child => [child]) (Option.some.inj sole)⟩
    · nomatch sole
  · nomatch sole

/-- Compile a conjunction of compiled children, given the run of its exclusion. -/
def conjunction (query : Query) (exclusion : Run (Option engine.Query))
    (compiled : List engine.Query) : Run engine.Query :=
  match soleChild? query.exclusion compiled with
  | some only => pure only
  | none => do
      let made ← Run.call (.and compiled.length) (engine.conjunction compiled)
      let unwanted ← exclusion
      let narrowed ← excluded engine unwanted made
      let weighted ← boosted .and query.boost engine.boostConjunction narrowed
      pure (engine.ofConjunction weighted)

/-- What happens when a conjunction is given its exclusion, if there is one. -/
def exclusionEvents {α : Type} (unwanted : Option α) : List Event :=
  if unwanted.isSome then [.called .exclude] else []

/-- Excluding makes at most one call. -/
theorem excluded_eq (unwanted : Option engine.Query) (made : engine.Conjunction) :
    excluded engine unwanted made =
      ⟨exclusionEvents unwanted, .ok (engine.without unwanted made)⟩ := by
  cases unwanted <;> rfl

/-- The run of a conjunction that is not replaced by its only child: it is made before its
exclusion is compiled, and given its weight after that. -/
theorem conjunction_eq {query : Query} {compiled : List engine.Query}
    (kept : soleChild? query.exclusion compiled = none) (exclusion : Run (Option engine.Query)) :
    conjunction engine query exclusion compiled = (do
      Run.emit (.called (.and compiled.length))
      let unwanted ← exclusion
      ⟨exclusionEvents unwanted ++ boostEvents .and query.boost,
        .ok (engine.ofConjunction (weighted query.boost engine.boostConjunction
          (engine.without unwanted (engine.conjunction compiled))))⟩) := by
  unfold conjunction
  rw [kept]
  simp only [excluded_eq, boosted_eq, bind_pure_comp, Run.map_ok]
  rfl

section Nodes

variable {Depth : Type} [DepthCounter Depth] (fuel : Fuel) (depth : Depth)

/-- Children are compiled one after another. -/
theorem children_eq_mapM (queries : List Query) :
    children engine fuel depth queries = queries.mapM (node engine fuel depth) := by
  induction queries with
  | nil => rfl
  | cons query queries inductionHypothesis =>
      rw [children, List.mapM_cons, inductionHypothesis]

theorem exclusionNode_eq_mapM (exclusion : Option Query) :
    exclusionNode engine fuel depth exclusion = exclusion.mapM (node engine fuel depth) := by
  cases exclusion <;> rfl

/-- The run of a node, in terms of those of its children and of its exclusion. -/
theorem node_eq (query : Query) :
    node engine fuel depth query =
      if fuel.allows depth then do
        Run.emit (.entered query.kind (DepthCounter.number depth))
        match query.kind with
        | .term => term engine query
        | .and =>
            query.children.mapM (node engine fuel (DepthCounter.deeper depth)) >>=
              conjunction engine query
                (query.exclusion.mapM (node engine fuel (DepthCounter.deeper depth)))
        | .or =>
            query.children.mapM (node engine fuel (DepthCounter.deeper depth)) >>=
              disjunction engine query
        | .disMax =>
            query.children.mapM (node engine fuel (DepthCounter.deeper depth)) >>=
              disMax engine query
        | .unknown _ => do
            let _ ← query.children.mapM (node engine fuel (DepthCounter.deeper depth))
            Run.fail (.unknownKind query.text)
      else Run.fail .tooDeep := by
  obtain ⟨kind, field, value, boost, exclusion, queries, tiebreaker⟩ := query
  simp only [← children_eq_mapM, ← exclusionNode_eq_mapM]
  unfold node
  cases kind <;> rfl

end Nodes

end Compile

end BooleanQuery
