import BooleanQuery.Proofs.Compile.Fuel
import BooleanQuery.Proofs.Compile.Resemblance

/-!
# Members that do not apply

Every node has all members, but which of them the compiler reads depends on the kind of the node,
on the number of its children and on whether it has an exclusion. `Query.ReadsLike` relates queries
that differ only in what is not read, at any number of nodes at once: in members that do not apply,
and in all that is below a term or in an exclusion that is not allowed.

Such queries compile alike. The calls and the steps are the same, and so is the result, but for
the text of a node that is blamed, which shows the members whether or not they apply.
-/

namespace BooleanQuery

namespace Query

/-- Whether the compiler reads the same in two nodes, apart from what is below them. -/
structure SameReading (query other : Query) : Prop where
  kind : query.kind = other.kind
  count : query.children.length = other.children.length
  presence : query.exclusion.isSome = other.exclusion.isSome
  field : query.kind = .term → query.field = other.field
  value : query.kind = .term → query.value = other.value
  boost : query.isCollapsed = false → query.effectiveBoost = other.effectiveBoost
  tiebreaker : query.isCollapsed = false → query.kind = .disMax →
    query.tiebreaker = other.tiebreaker

/-- Whether the compiler reads the same in two queries. -/
inductive ReadsLike : Query → Query → Prop where
  | node {query other : Query} (same : query.SameReading other)
      (onChildren : query.kind ≠ .term → List.Forall₂ ReadsLike query.children other.children)
      (onExclusion : query.kind = .and → Option.Rel ReadsLike query.exclusion other.exclusion) :
      ReadsLike query other

/-- Every query reads like itself. -/
theorem ReadsLike.refl (query : Query) : query.ReadsLike query := by
  induction query with
  | node query onChildren onExclusion =>
      apply ReadsLike.node
      · constructor <;> intros <;> rfl
      · exact fun _ => List.forall₂_same.mpr onChildren
      · exact fun _ => optionRel_self onExclusion

namespace SameReading

variable {query other : Query} (same : query.SameReading other)

include same

/-- Whether a node only stands around a single child shows in what is read of it. -/
theorem isCollapsed_eq : query.isCollapsed = other.isCollapsed := by
  unfold isCollapsed
  rw [same.kind, same.count, ← Option.not_isSome, ← Option.not_isSome, same.presence]

/-- Nodes have the same outline if the same is read in them, unless they only stand around a single
child. -/
theorem outline_eq (kept : query.isCollapsed = false) : query.outline = other.outline := by
  have term : (if query.kind = .term then some (query.field, query.value) else none) =
      if other.kind = .term then some (other.field, other.value) else none := by
    rw [← same.kind]
    split
    · next isTerm => rw [same.field isTerm, same.value isTerm]
    · rfl
  have tiebreaker : (if query.kind = .disMax then some query.tiebreaker else none) =
      if other.kind = .disMax then some other.tiebreaker else none := by
    rw [← same.kind]
    split
    · next isDisMax => rw [same.tiebreaker kept isDisMax]
    · rfl
  unfold outline
  rw [same.count, same.presence, same.boost kept, term, tiebreaker, same.kind]

end SameReading

end Query

namespace Compile

variable (engine : Engine)

section Nodes

variable {ω : Type} {observe : Event → Option ω} {Depth : Type} [DepthCounter Depth] {fuel : Fuel}
  {depth : Depth} {query other : Query}

/-- Nodes around single children resemble each other if the children do, whatever their boosts and
tiebreakers. -/
theorem node_resembles_of_isCollapsed (same : query.SameReading other)
    (collapsed : query.isCollapsed = true)
    (onChildren : List.Forall₂ (fun child replacement =>
      (node engine fuel (DepthCounter.deeper depth) child).Resembles observe
        (node engine fuel (DepthCounter.deeper depth) replacement))
      query.children other.children) :
    (node engine fuel depth query).Resembles observe (node engine fuel depth other) := by
  have otherCollapsed : other.isCollapsed = true := same.isCollapsed_eq ▸ collapsed
  obtain ⟨-, -, inner, child⟩ := Query.isCollapsed_iff.mp collapsed
  obtain ⟨-, -, otherInner, otherChild⟩ := Query.isCollapsed_iff.mp otherCollapsed
  rw [child, otherChild, List.forall₂_cons] at onChildren
  rw [node_eq_of_isCollapsed engine collapsed child,
    node_eq_of_isCollapsed engine otherCollapsed otherChild, ← same.kind]
  split
  · exact (Run.Resembles.refl _).bind fun _ => onChildren.1
  · exact .refl _

/-- Nodes that read alike resemble each other to every observer. -/
theorem node_resembles_of_readsLike (alike : query.ReadsLike other) :
    (node engine fuel depth query).Resembles observe (node engine fuel depth other) := by
  induction query generalizing depth other with
  | node query inChildren inExclusion =>
      obtain ⟨same, onChildren, onExclusion⟩ := alike
      have children (notTerm : query.kind ≠ .term) := by
        have paired := (List.forall₂_and_left _ _).mpr ⟨inChildren, onChildren notTerm⟩
        exact paired.imp fun child replacement ⟨inChild, childAlike⟩ =>
          @inChild (DepthCounter.deeper depth) replacement childAlike
      by_cases collapsed : query.isCollapsed
      · -- Neither boost nor tiebreaker is read here, so the outlines may differ.
        apply node_resembles_of_isCollapsed engine same collapsed
        apply children
        intro isTerm
        obtain ⟨combines, -⟩ := Query.isCollapsed_iff.mp collapsed
        simp [isTerm] at combines
      · have outlines := same.outline_eq (eq_false_of_ne_true collapsed)
        apply node_resembles engine outlines rfl rfl children
        intro isAnd
        exact optionRel_imp (onExclusion isAnd) fun excluded present replacement excludedAlike =>
          inExclusion excluded present excludedAlike

end Nodes

/-- Queries that read alike compile alike: the calls and the records of the steps are the same,
and either both succeed with the same result, or both fail for the same reason, where only the
text of the node that is blamed may differ. -/
theorem compile_of_readsLike (fuel : Fuel) {query other : Query} (alike : query.ReadsLike other) :
    let run := compile engine fuel (some query)
    let otherRun := compile engine fuel (some other)
    run.calls = otherRun.calls ∧ run.traces = otherRun.traces ∧
      ((∃ made, run.result = .ok made ∧ otherRun.result = .ok made) ∨
        ∃ error otherError, run.result = .error error ∧ otherRun.result = .error otherError ∧
          error.withoutNode = otherError.withoutNode) := by
  intro run otherRun
  have resembles {ω : Type} (observe : Event → Option ω)
      (unseen : ∀ error, observe (.failed error) = none) : run.Resembles observe otherRun := by
    apply Run.Resembles.reportFailure unseen
    exact node_resembles_of_readsLike engine alike
  have calls := resembles Event.call? fun _ => rfl
  have traces := resembles Run.traceRecord? fun _ => rfl
  refine ⟨calls.observed, ?_, calls.result_cases⟩
  rw [Run.traces_eq, Run.traces_eq]
  exact traces.observed

/-- Changes at four nodes of a disjunction that must not have an exclusion: the boost and the
tiebreaker of a node around a single child, a boost that is not a number in place of none, a value
where none applies, and another exclusion. Both queries fail for the exclusion, after the same
calls. -/
theorem compile_of_readsLike_misplaced_exclusion :
    let half : Weight := .ofBits 1056964608
    let undefined : Weight := .ofBits 2143289344
    let query : Query :=
      { Query.or [{ Query.disMax half [Query.term "a" "x"] with boost := half }, Query.term "b" "y"]
        with exclusion := some (Query.term "c" "z") }
    let other : Query :=
      { Query.or [Query.disMax undefined [Query.term "a" "x"],
          { Query.term "b" "y" with boost := undefined, tiebreaker := half }]
        with value := "v", exclusion := some (Query.or []) }
    let run := compile Plan.engine defaultFuel (some query)
    let otherRun := compile Plan.engine defaultFuel (some other)
    query.ReadsLike other ∧
      run.calls = [.term "a" "x", .term "b" "y"] ∧ run.calls = otherRun.calls ∧
      run.traces = otherRun.traces ∧
      run.result = .error (.misplacedExclusion .or query.text) ∧
      otherRun.result = .error (.misplacedExclusion .or other.text) ∧
      ((∃ made, run.result = .ok made ∧ otherRun.result = .ok made) ∨
        ∃ error otherError, run.result = .error error ∧ otherRun.result = .error otherError ∧
          error.withoutNode = otherError.withoutNode) := by
  intro half undefined query other run otherRun
  have wrapped : Query.ReadsLike { Query.disMax half [Query.term "a" "x"] with boost := half }
      (Query.disMax undefined [Query.term "a" "x"]) :=
    .node ⟨rfl, rfl, rfl, nofun, nofun, nofun, nofun⟩ (fun _ => .cons (.refl _) .nil) nofun
  have term : (Query.term "b" "y").ReadsLike
      { Query.term "b" "y" with boost := undefined, tiebreaker := half } :=
    .node ⟨rfl, rfl, rfl, fun _ => rfl, fun _ => rfl, fun _ => rfl, nofun⟩ (fun _ => .nil) nofun
  have alike : query.ReadsLike other :=
    .node ⟨rfl, rfl, rfl, nofun, nofun, fun _ => rfl, nofun⟩
      (fun _ => .cons wrapped (.cons term .nil)) nofun
  obtain ⟨calls, traces, results⟩ := compile_of_readsLike Plan.engine defaultFuel alike
  exact ⟨alike, rfl, calls, traces, rfl, rfl, results⟩

end Compile

end BooleanQuery
