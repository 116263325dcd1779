import BooleanQuery.Proofs.Compile.Resemblance
import BooleanQuery.Proofs.Query.Context

/-!
# Wrappers disappear

A node around a single child compiles as its child. So without a limit of the depth, a chain of
such nodes around any part of a query does not show: neither in the calls nor in the result, but
for the text of a node that is blamed and has them below it.
-/

namespace BooleanQuery

open Query (Context Wrapper)

theorem Query.Wrapper.isCollapsed_around (wrapper : Wrapper) (query : Query) :
    (wrapper.around query).isCollapsed = true :=
  isCollapsed_iff.mpr ⟨wrapper.combines, rfl, query, rfl⟩

namespace Compile

variable (engine : Engine) {ω : Type} {observe : Event → Option ω}
  (unseen : ∀ kind depth, observe (.entered kind depth) = none)

section Nodes

variable {Depth : Type} [DepthCounter Depth]

include unseen

/-- Without a limit it does not matter to a query at which depth it stands. -/
theorem node_resembles_at_other_depth (depth otherDepth : Depth) (query : Query) :
    (node engine none depth query).Resembles observe (node engine none otherDepth query) := by
  induction query generalizing depth otherDepth with
  | node query onChildren onExclusion =>
      refine node_resembles engine rfl rfl ((unseen ..).trans (unseen ..).symm) (fun _ => ?_)
        (fun _ => ?_)
      · exact List.forall₂_same.mpr fun child member => onChildren child member _ _
      · exact optionRel_self fun excluded present => onExclusion excluded present _ _

/-- Without a limit a query compiles inside a chain of wrappers as it does alone. -/
theorem node_resembles_chain (depth otherDepth : Depth) (wrappers : List Wrapper)
    (query : Query) :
    (node engine none depth query).Resembles observe
      (node engine none otherDepth (Wrapper.chain wrappers query)) := by
  induction wrappers generalizing otherDepth with
  | nil => exact node_resembles_at_other_depth engine unseen depth otherDepth query
  | cons wrapper wrappers inductionHypothesis =>
      rw [Wrapper.chain, List.foldr_cons,
        node_eq_of_isCollapsed engine (wrapper.isCollapsed_around _) rfl]
      exact (inductionHypothesis (DepthCounter.deeper otherDepth)).after_emit (unseen ..)

/-- Without a limit, what compiles alike may replace each other anywhere in a query. -/
theorem node_resembles_fill {query other : Query} (context : Context)
    (alike : ∀ depth otherDepth : Depth,
      (node engine none depth query).Resembles observe (node engine none otherDepth other))
    (depth otherDepth : Depth) :
    (node engine none depth (context.fill query)).Resembles observe
      (node engine none otherDepth (context.fill other)) := by
  have unchanged (depth otherDepth : Depth) (query : Query) :=
    node_resembles_at_other_depth engine unseen depth otherDepth query
  induction context generalizing depth otherDepth with
  | hole => exact alike depth otherDepth
  | child parent before inner after inductionHypothesis =>
      have counts : (before ++ inner.fill query :: after).length =
          (before ++ inner.fill other :: after).length := by
        simp only [List.length_append, List.length_cons]
      have outlines : ((Context.child parent before inner after).fill query).outline =
          ((Context.child parent before inner after).fill other).outline :=
        congrArg (fun count => ({ parent.outline with children := count } : Outline)) counts
      refine node_resembles engine outlines rfl ((unseen ..).trans (unseen ..).symm)
        (fun _ => ?_) (fun _ => ?_)
      · refine List.rel_append (List.forall₂_same.mpr fun child _ => unchanged _ _ child) ?_
        exact .cons (inductionHypothesis _ _)
          (List.forall₂_same.mpr fun child _ => unchanged _ _ child)
      · exact optionRel_self fun excluded _ => unchanged _ _ excluded
  | exclusion parent inner inductionHypothesis =>
      refine node_resembles engine rfl rfl ((unseen ..).trans (unseen ..).symm) (fun _ => ?_)
        (fun _ => ?_)
      · exact List.forall₂_same.mpr fun child _ => unchanged _ _ child
      · exact .some (inductionHypothesis _ _)

end Nodes

/-- Without a limit, a chain of wrappers around any part of any query does not show: the calls are
the same, and so is the result or the reason why there is none. -/
theorem compile_unchanged_by_wrapping_part (context : Context) (wrappers : List Wrapper)
    (query : Query) :
    let bare := compile engine none (some (context.fill query))
    let wrapped := compile engine none (some (context.fill (Wrapper.chain wrappers query)))
    bare.calls = wrapped.calls ∧
      ((∃ made, bare.result = .ok made ∧ wrapped.result = .ok made) ∨
        ∃ error otherError, bare.result = .error error ∧ wrapped.result = .error otherError ∧
          error.withoutNode = otherError.withoutNode) := by
  intro bare wrapped
  have unseen (kind : Kind) (depth : Nat) : (Event.entered kind depth).call? = none := rfl
  have nodes := node_resembles_fill engine unseen context
    (fun depth otherDepth : Nat => node_resembles_chain engine unseen depth otherDepth wrappers query)
    DepthCounter.root DepthCounter.root
  have resembles : bare.Resembles Event.call? wrapped := nodes.reportFailure fun _ => rfl
  exact ⟨resembles.observed, resembles.result_cases⟩

end Compile

end BooleanQuery
