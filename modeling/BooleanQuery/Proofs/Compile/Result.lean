import BooleanQuery.Compile.Basic
import BooleanQuery.Proofs.Query.Tree
import BooleanQuery.Proofs.Sequencing

/-!
# Results of a compilation

A run has events and a result. This module forgets the events: `Compile.node_result` gives
the result of a node as a plain recursion over results, and `Compile.node_ok_iff` says
exactly when a node compiles and to what. Proofs about results start from these two and
unfold nothing of the compiler.
-/

namespace BooleanQuery

namespace Compile

variable (engine : Engine)

/-- A value with a weight, if the weight has an effect. -/
def weighted {α : Type} (weight : Weight) (apply : Weight → α → α) (value : α) : α :=
  if weight.isPositive then apply weight value else value

/-- What a conjunction becomes, given what its children and its exclusion became. -/
def conjoined (boost : Weight) (compiled : List engine.Query)
    (unwanted : Option engine.Query) : engine.Query :=
  match unwanted, compiled with
  | none, [only] => only
  | none, compiled =>
      engine.ofConjunction (weighted boost engine.boostConjunction (engine.conjunction compiled))
  | some query, compiled =>
      engine.ofConjunction (weighted boost engine.boostConjunction
        (engine.exclude query (engine.conjunction compiled)))

/-- What a disjunction becomes, given what its children became. -/
def disjoined (boost : Weight) : List engine.Query → engine.Query
  | [only] => only
  | compiled =>
      engine.ofDisjunction (weighted boost engine.boostDisjunction (engine.disjunction compiled))

/-- What a best-of combination becomes, given what its children became. -/
def bestOf (boost tiebreaker : Weight) : List engine.Query → engine.Query
  | [only] => only
  | compiled =>
      engine.ofDisMax (weighted boost engine.boostDisMax (engine.disMax tiebreaker compiled))

/-- Weighting never fails. -/
@[simp] theorem boosted_result {α : Type} (target : Engine.Target) (weight : Weight)
    (apply : Weight → α → α) (value : α) :
    (boosted target weight apply value).result = .ok (weighted weight apply value) := by
  unfold boosted weighted
  split <;> rfl

/-- The result of a term: its shape is checked before its field. -/
theorem term_result (query : Query) :
    (term engine query).result =
      if query.exclusion.isSome || !query.children.isEmpty then
        .error (.misshapenTerm query.text)
      else if query.field = "" then .error (.missingField query.text)
      else .ok (weighted query.boost engine.boostQuery (engine.term query.field query.value)) := by
  unfold term
  split
  · rfl
  · split
    · rfl
    · simp

/-- The result of a disjunction of compiled children. -/
theorem disjunction_result (query : Query) (compiled : List engine.Query) :
    (disjunction engine query compiled).result =
      if query.exclusion.isSome then .error (.misplacedExclusion query.kind query.text)
      else .ok (disjoined engine query.boost compiled) := by
  unfold disjunction
  split
  · rfl
  · unfold disjoined
    split
    · rfl
    · simp

/-- The result of a best-of combination of compiled children. -/
theorem disMax_result (query : Query) (compiled : List engine.Query) :
    (disMax engine query compiled).result =
      if query.exclusion.isSome then .error (.misplacedExclusion query.kind query.text)
      else .ok (bestOf engine query.boost query.tiebreaker compiled) := by
  unfold disMax
  split
  · rfl
  · unfold bestOf
    split
    · rfl
    · simp

section Nodes

variable {Depth : Type} [DepthCounter Depth] (fuel : Fuel) (depth : Depth)

/-- The results of children are those of one child after another. -/
theorem children_result (queries : List Query) :
    (children engine fuel depth queries).result =
      queries.mapM fun query => (node engine fuel depth query).result := by
  induction queries with
  | nil => rfl
  | cons query queries inductionHypothesis =>
      simp [children, inductionHypothesis]

/-- The result of an exclusion is that of its query. -/
theorem exclusionNode_result (exclusion : Option Query) :
    (exclusionNode engine fuel depth exclusion).result =
      exclusion.mapM fun query => (node engine fuel depth query).result := by
  cases exclusion with
  | none => rfl
  | some query => simp [exclusionNode]

/-- A conjunction of compiled children needs no exclusion compiled to be replaced by its
only child, so whether it is replaced can be decided after the exclusion as well. -/
theorem conjunction_result (boost : Weight) (exclusion : Option Query)
    (compiled : List engine.Query) :
    (match soleChild? exclusion compiled with
      | some only => pure only
      | none => do
          let made ← Run.call (.and compiled.length) (engine.conjunction compiled)
          let unwanted ← exclusionNode engine fuel depth exclusion
          let narrowed ← excluded engine unwanted made
          let weighted ← boosted .and boost engine.boostConjunction narrowed
          pure (engine.ofConjunction weighted) : Run engine.Query).result =
      (exclusionNode engine fuel depth exclusion).result >>=
        fun unwanted => .ok (conjoined engine boost compiled unwanted) := by
  cases exclusion with
  | none =>
      rcases compiled with _ | ⟨only, _ | ⟨second, others⟩⟩
      · simp [soleChild?, exclusionNode, excluded, conjoined]
      · rfl
      · simp [soleChild?, exclusionNode, excluded, conjoined]
  | some query => simp [soleChild?, exclusionNode, excluded, conjoined]

/-- The result of a node, as a recursion over results. -/
theorem node_result (query : Query) :
    (node engine fuel depth query).result =
      if fuel.allows depth then
        match query.kind with
        | .term => (term engine query).result
        | .and => do
            let compiled ← query.children.mapM fun child =>
              (node engine fuel (DepthCounter.deeper depth) child).result
            let unwanted ← query.exclusion.mapM fun excluded =>
              (node engine fuel (DepthCounter.deeper depth) excluded).result
            .ok (conjoined engine query.boost compiled unwanted)
        | .or => do
            let compiled ← query.children.mapM fun child =>
              (node engine fuel (DepthCounter.deeper depth) child).result
            (disjunction engine query compiled).result
        | .disMax => do
            let compiled ← query.children.mapM fun child =>
              (node engine fuel (DepthCounter.deeper depth) child).result
            (disMax engine query compiled).result
        | .unknown _ => do
            let _ ← query.children.mapM fun child =>
              (node engine fuel (DepthCounter.deeper depth) child).result
            .error (.unknownKind query.text)
      else .error .tooDeep := by
  obtain ⟨kind, field, value, boost, exclusion, queries, tiebreaker⟩ := query
  simp only [← children_result, ← exclusionNode_result, ← conjunction_result]
  unfold node
  split
  · cases kind with
    | and => simp only [Run.result_bind]; rfl
    | term | or | disMax | unknown => simp
  · rfl

/-- When a node compiles, and to what: within the fuel, a term that has a field and nothing
below it, a conjunction of nodes that compile, or another combination of such nodes without
an exclusion. -/
theorem node_ok_iff (query : Query) (made : engine.Query) :
    (node engine fuel depth query).result = .ok made ↔
      fuel.allows depth ∧
        match query.kind with
        | .term => query.exclusion = none ∧ query.children = [] ∧ query.field ≠ "" ∧
            made = weighted query.boost engine.boostQuery (engine.term query.field query.value)
        | .and => ∃ compiled unwanted,
            List.Forall₂ (fun child part =>
              (node engine fuel (DepthCounter.deeper depth) child).result = .ok part)
              query.children compiled ∧
            Option.Rel (fun excluded part =>
              (node engine fuel (DepthCounter.deeper depth) excluded).result = .ok part)
              query.exclusion unwanted ∧
            made = conjoined engine query.boost compiled unwanted
        | .or => query.exclusion = none ∧ ∃ compiled,
            List.Forall₂ (fun child part =>
              (node engine fuel (DepthCounter.deeper depth) child).result = .ok part)
              query.children compiled ∧
            made = disjoined engine query.boost compiled
        | .disMax => query.exclusion = none ∧ ∃ compiled,
            List.Forall₂ (fun child part =>
              (node engine fuel (DepthCounter.deeper depth) child).result = .ok part)
              query.children compiled ∧
            made = bestOf engine query.boost query.tiebreaker compiled
        | .unknown _ => False := by
  rw [node_result]
  split
  · next allowed =>
      cases query.kind with
      | term =>
          rw [term_result]
          by_cases shape : query.exclusion = none ∧ query.children = []
          · by_cases field : query.field = "" <;> simp [allowed, shape, field, eq_comm]
          · simp only [not_and_or] at shape
            rcases shape with shape | shape <;>
              simp [allowed, shape, Option.isSome_iff_ne_none]
      | and =>
          simp only [bind_eq_ok_iff, mapM_eq_ok_iff, optionMapM_eq_ok_iff, allowed, true_and]
          grind
      | or =>
          rcases exclusion : query.exclusion with _ | excluded <;>
            simp [disjunction_result, allowed, exclusion, eq_comm (a := made)]
      | disMax =>
          rcases exclusion : query.exclusion with _ | excluded <;>
            simp [disMax_result, allowed, exclusion, eq_comm (a := made)]
      | unknown number => simp
  · next refused => simp [refused]

@[simp] theorem reportFailure_result {α : Type} (run : Run α) :
    run.reportFailure.result = run.result := by
  unfold Run.reportFailure
  split <;> rfl

theorem tree_result (query : Query) :
    (tree engine Depth fuel query).result =
      (node engine fuel (DepthCounter.root : Depth) query).result :=
  reportFailure_result _

end Nodes

end Compile

end BooleanQuery
