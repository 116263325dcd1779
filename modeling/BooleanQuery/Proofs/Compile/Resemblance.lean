import BooleanQuery.Proofs.Compile.Events
import BooleanQuery.Proofs.Compile.Observation
import BooleanQuery.Proofs.Compile.Outline

/-!
# Runs that resemble each other

An error that blames a node carries the text of all that is below the node. So a change deep
inside a query shows in its errors, even where the compiler took no notice of it. Two runs
resemble each other if an observer sees the same in both, and if they have the same result
apart from such texts.

All that the compiler sees of a node is its outline and the runs of what is below it:
`Compile.node_resembles` says that a part of a query may be replaced by any other that compiles
alike.
-/

namespace BooleanQuery

/-- An error without the text of the node that it blames. -/
def CompileError.withoutNode : CompileError → CompileError
  | .noQuery => .noQuery
  | .misshapenTerm _ => .misshapenTerm ""
  | .missingField _ => .missingField ""
  | .misplacedExclusion kind _ => .misplacedExclusion kind ""
  | .unknownKind _ => .unknownKind ""
  | .tooDeep => .tooDeep

namespace Run

variable {α β γ ω : Type} {observe : Event → Option ω}

/-- Whether an observer sees the same in two runs, and their results are the same but for the
nodes that errors blame. -/
structure Resembles (observe : Event → Option ω) (run other : Run α) : Prop where
  observed : run.events.filterMap observe = other.events.filterMap observe
  results : run.result.mapError CompileError.withoutNode =
    other.result.mapError CompileError.withoutNode

/-- Runs that resemble each other either succeed with the same result, or fail for the same
reason. -/
theorem Resembles.result_cases {run other : Run α} (resembles : run.Resembles observe other) :
    (∃ value, run.result = .ok value ∧ other.result = .ok value) ∨
      ∃ error otherError, run.result = .error error ∧ other.result = .error otherError ∧
        error.withoutNode = otherError.withoutNode := by
  obtain ⟨-, results⟩ := resembles
  generalize run.result = result at results ⊢
  generalize other.result = otherResult at results ⊢
  rcases result with error | value
  · rcases otherResult with otherError | otherValue
    · exact .inr ⟨error, otherError, rfl, rfl, Except.error.inj results⟩
    · nomatch results
  · rcases otherResult with otherError | otherValue
    · nomatch results
    · obtain rfl : value = otherValue := Except.ok.inj results
      exact .inl ⟨value, rfl, rfl⟩

theorem Resembles.refl (run : Run α) : run.Resembles observe run := ⟨rfl, rfl⟩

/-- Failures resemble each other that differ in the node that they blame. -/
theorem Resembles.fail {error other : CompileError}
    (same : error.withoutNode = other.withoutNode) :
    (Run.fail error : Run α).Resembles observe (Run.fail other) :=
  ⟨rfl, congrArg Except.error same⟩

/-- An event of which the same is seen as of another may take its place. -/
theorem Resembles.emit {event other : Event} (same : observe event = observe other) :
    (Run.emit event).Resembles observe (Run.emit other) where
  observed := by
    simp only [Run.emit, List.filterMap_cons, List.filterMap_nil, same]
  results := rfl

/-- What goes before a run unseen does not make a difference. -/
theorem Resembles.after_emit {run other : Run α} {event : Event} (unseen : observe event = none)
    (resembles : run.Resembles observe other) :
    run.Resembles observe (do Run.emit event; other) where
  observed := resembles.observed.trans (List.filterMap_cons_none unseen).symm
  results := resembles.results

/-- A sequence resembles another one part by part. -/
theorem Resembles.bind {run other : Run α} {next further : α → Run β}
    (first : run.Resembles observe other)
    (second : ∀ value, (next value).Resembles observe (further value)) :
    (run >>= next).Resembles observe (other >>= further) := by
  have observed := first.observed
  obtain ⟨events, result⟩ := run
  obtain ⟨others, otherResult⟩ := other
  rcases first.result_cases with ⟨value, rfl, rfl⟩ | ⟨error, otherError, rfl, rfl, reasons⟩
  · rw [bind_ok, bind_ok]
    refine ⟨?_, (second value).results⟩
    rw [List.filterMap_append, List.filterMap_append, (second value).observed]
    exact congrArg (· ++ _) observed
  · exact ⟨observed, congrArg Except.error reasons⟩

/-- Runs of one step on every element resemble each other step by step. -/
theorem Resembles.mapM {function : α → Run γ} {other : β → Run γ} {items : List α}
    {others : List β}
    (each : List.Forall₂ (fun item replacement =>
      (function item).Resembles observe (other replacement)) items others) :
    (items.mapM function).Resembles observe (others.mapM other) := by
  induction each with
  | nil => exact .refl _
  | cons first _ inductionHypothesis =>
      rw [List.mapM_cons, List.mapM_cons]
      exact first.bind fun value => inductionHypothesis.bind fun values => .refl _

/-- Steps on values that may be absent resemble each other if the values are there or not in
both. -/
theorem Resembles.optionMapM {function : α → Run γ} {other : β → Run γ} {item : Option α}
    {replacement : Option β}
    (each : Option.Rel (fun item replacement =>
      (function item).Resembles observe (other replacement)) item replacement) :
    (item.mapM function).Resembles observe (replacement.mapM other) := by
  cases each with
  | none => exact .refl _
  | some resembles =>
      rw [Option.mapM_some, Option.mapM_some, map_eq_pure_bind, map_eq_pure_bind]
      exact resembles.bind fun value => .refl _

/-- Reporting failures does not make a difference to who does not see them. -/
theorem Resembles.reportFailure {run other : Run α}
    (unseen : ∀ error, observe (.failed error) = none)
    (resembles : run.Resembles observe other) :
    run.reportFailure.Resembles observe other.reportFailure where
  observed := by
    rw [observed_reportFailure unseen, observed_reportFailure unseen]
    exact resembles.observed
  results := by
    rw [Compile.reportFailure_result, Compile.reportFailure_result]
    exact resembles.results

end Run

namespace Compile

variable (engine : Engine) {ω : Type} {observe : Event → Option ω}

section Parts

variable {query other : Query}

/-- Weights with the same effect make the same call. -/
theorem boostEvents_eq_of_effectiveBoost_eq
    (same : query.effectiveBoost = other.effectiveBoost) (target : Engine.Target) :
    boostEvents target query.boost = boostEvents target other.boost := by
  unfold Query.effectiveBoost at same
  unfold boostEvents
  grind

/-- Weights with the same effect do the same. -/
theorem weighted_eq_of_effectiveBoost_eq {α : Type}
    (same : query.effectiveBoost = other.effectiveBoost) (apply : Weight → α → α) (value : α) :
    weighted query.boost apply value = weighted other.boost apply value := by
  unfold Query.effectiveBoost at same
  unfold weighted
  grind

/-- A node looks at whether its exclusion is there, and at nothing else of it, to be replaced by
its only child. -/
theorem soleChild?_eq_of_isSome_eq {α : Type} {exclusion replacement : Option Query}
    (same : exclusion.isSome = replacement.isSome) (children : List α) :
    soleChild? exclusion children = soleChild? replacement children := by
  cases exclusion <;> cases replacement <;> first | rfl | nomatch same

/-- Terms resemble each other that have the same outline. -/
theorem term_resembles (kind : query.kind = .term) (same : query.outline = other.outline) :
    (term engine query).Resembles observe (term engine other) := by
  have otherKind : other.kind = .term := (congrArg Outline.kind same).symm.trans kind
  have count : query.children.length = other.children.length := congrArg Outline.children same
  have presence : query.exclusion.isSome = other.exclusion.isSome := congrArg Outline.excludes same
  have boosts : query.effectiveBoost = other.effectiveBoost := congrArg Outline.boost same
  have texts : some (query.field, query.value) = some (other.field, other.value) := by
    have terms := congrArg Outline.term same
    rwa [Query.outline, Query.outline, if_pos kind, if_pos otherKind] at terms
  obtain ⟨fields, values⟩ := Prod.mk.inj (Option.some.inj texts)
  have empty : query.children.isEmpty = other.children.isEmpty := by
    rw [Bool.eq_iff_iff, List.isEmpty_iff_length_eq_zero, List.isEmpty_iff_length_eq_zero, count]
  rw [term_eq, term_eq, presence, empty, fields, values,
    boostEvents_eq_of_effectiveBoost_eq boosts, weighted_eq_of_effectiveBoost_eq boosts]
  split
  · exact .fail rfl
  · split
    · exact .fail rfl
    · exact .refl _

/-- Combinations resemble each other of nodes that have the same outline. -/
theorem combination_resembles {α : Type} (same : query.outline = other.outline) (count : Nat)
    (call : Engine.Call) (target : Engine.Target) (made : α) :
    (combination query count call target made).Resembles observe
      (combination other count call target made) := by
  have kinds : query.kind = other.kind := congrArg Outline.kind same
  have presence : query.exclusion.isSome = other.exclusion.isSome := congrArg Outline.excludes same
  have boosts : query.effectiveBoost = other.effectiveBoost := congrArg Outline.boost same
  unfold combination combinationEvents
  rw [presence, kinds, boostEvents_eq_of_effectiveBoost_eq boosts]
  split
  · exact .fail rfl
  · exact .refl _

/-- Disjunctions of the same compiled children resemble each other if the nodes have the same
outline. -/
theorem disjunction_resembles (same : query.outline = other.outline)
    (compiled : List engine.Query) :
    (disjunction engine query compiled).Resembles observe (disjunction engine other compiled) := by
  have boosts : query.effectiveBoost = other.effectiveBoost := congrArg Outline.boost same
  have made : disjoined engine query.boost compiled = disjoined engine other.boost compiled := by
    unfold disjoined
    simp only [weighted_eq_of_effectiveBoost_eq boosts]
  rw [disjunction_eq, disjunction_eq, made]
  exact combination_resembles same ..

/-- Best-of combinations of the same compiled children resemble each other if the nodes have the
same outline. -/
theorem disMax_resembles (kind : query.kind = .disMax) (same : query.outline = other.outline)
    (compiled : List engine.Query) :
    (disMax engine query compiled).Resembles observe (disMax engine other compiled) := by
  have otherKind : other.kind = .disMax := (congrArg Outline.kind same).symm.trans kind
  have boosts : query.effectiveBoost = other.effectiveBoost := congrArg Outline.boost same
  have tiebreakers : query.tiebreaker = other.tiebreaker := by
    have tiebreakers := congrArg Outline.tiebreaker same
    rw [Query.outline, Query.outline, if_pos kind, if_pos otherKind] at tiebreakers
    exact Option.some.inj tiebreakers
  have made : bestOf engine query.boost query.tiebreaker compiled =
      bestOf engine other.boost other.tiebreaker compiled := by
    unfold bestOf
    simp only [weighted_eq_of_effectiveBoost_eq boosts, tiebreakers]
  rw [disMax_eq, disMax_eq, made, tiebreakers]
  exact combination_resembles same ..

/-- Conjunctions of the same compiled children resemble each other if the nodes have the same
outline and exclusions that resemble each other. -/
theorem conjunction_resembles (same : query.outline = other.outline)
    {exclusion replacement : Run (Option engine.Query)}
    (exclusions : exclusion.Resembles observe replacement) (compiled : List engine.Query) :
    (conjunction engine query exclusion compiled).Resembles observe
      (conjunction engine other replacement compiled) := by
  have presence : query.exclusion.isSome = other.exclusion.isSome := congrArg Outline.excludes same
  have boosts : query.effectiveBoost = other.effectiveBoost := congrArg Outline.boost same
  have soles := soleChild?_eq_of_isSome_eq presence compiled
  rcases sole : soleChild? query.exclusion compiled with _ | only
  · rw [conjunction_eq engine sole, conjunction_eq engine (soles.symm.trans sole),
      boostEvents_eq_of_effectiveBoost_eq boosts]
    simp only [weighted_eq_of_effectiveBoost_eq boosts]
    exact (Run.Resembles.refl _).bind fun _ => exclusions.bind fun unwanted => .refl _
  · unfold conjunction
    rw [← soles, sole]
    exact .refl _

end Parts

section Nodes

variable {Depth : Type} [DepthCounter Depth] {fuel otherFuel : Fuel} {depth otherDepth : Depth}

/-- Nodes with the same outline resemble each other if what is compiled below them does: the
children except below terms, and the exclusions of conjunctions. -/
theorem node_resembles {query other : Query} (same : query.outline = other.outline)
    (allowed : fuel.allows depth = otherFuel.allows otherDepth)
    (entered : observe (.entered query.kind (DepthCounter.number depth)) =
      observe (.entered query.kind (DepthCounter.number otherDepth)))
    (onChildren : query.kind ≠ .term → List.Forall₂ (fun child replacement =>
      (node engine fuel (DepthCounter.deeper depth) child).Resembles observe
        (node engine otherFuel (DepthCounter.deeper otherDepth) replacement))
      query.children other.children)
    (onExclusion : query.kind = .and → Option.Rel (fun excluded replacement =>
      (node engine fuel (DepthCounter.deeper depth) excluded).Resembles observe
        (node engine otherFuel (DepthCounter.deeper otherDepth) replacement))
      query.exclusion other.exclusion) :
    (node engine fuel depth query).Resembles observe
      (node engine otherFuel otherDepth other) := by
  have kinds : query.kind = other.kind := congrArg Outline.kind same
  rw [node_eq, node_eq, ← allowed, ← kinds]
  split
  · refine (Run.Resembles.emit entered).bind fun _ => ?_
    cases kind : query.kind with
    | term => exact term_resembles engine kind same
    | and =>
        refine (Run.Resembles.mapM (onChildren (by simp [kind]))).bind fun compiled => ?_
        exact conjunction_resembles engine same (.optionMapM (onExclusion kind)) compiled
    | or =>
        refine (Run.Resembles.mapM (onChildren (by simp [kind]))).bind fun compiled => ?_
        exact disjunction_resembles engine same compiled
    | disMax =>
        refine (Run.Resembles.mapM (onChildren (by simp [kind]))).bind fun compiled => ?_
        exact disMax_resembles engine kind same compiled
    | unknown number =>
        refine (Run.Resembles.mapM (onChildren (by simp [kind]))).bind fun compiled => ?_
        exact .fail rfl
  · exact .refl _

/-- A node around a single child is entered, and then compiles as its child. -/
theorem node_eq_of_isCollapsed {query inner : Query} (collapsed : query.isCollapsed = true)
    (child : query.children = [inner]) :
    node engine fuel depth query =
      if fuel.allows depth then do
        Run.emit (.entered query.kind (DepthCounter.number depth))
        node engine fuel (DepthCounter.deeper depth) inner
      else Run.fail .tooDeep := by
  obtain ⟨kinds, exclusion, -⟩ := Query.isCollapsed_iff.mp collapsed
  have passes (combine : List engine.Query → Run engine.Query)
      (keeps : ∀ made, combine [made] = pure made) :
      query.children.mapM (node engine fuel (DepthCounter.deeper depth)) >>= combine =
        node engine fuel (DepthCounter.deeper depth) inner := by
    rw [child, List.mapM_cons, List.mapM_nil]
    simp only [bind_assoc, pure_bind, keeps, bind_pure]
  rw [node_eq]
  congr 2
  funext entered
  rcases kinds with kind | kind | kind <;> rw [kind] <;> refine passes _ fun made => ?_
  · unfold conjunction
    rw [exclusion]
    rfl
  · unfold disjunction
    rw [exclusion]
    rfl
  · unfold disMax
    rw [exclusion]
    rfl

end Nodes

end Compile

end BooleanQuery
