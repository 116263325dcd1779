import BooleanQuery.Proofs.Selection

/-!
# Compiling keeps what matches

A plan matches the same documents as the query that it was compiled from. A node that keeps
its outline combines its children by the same rule; a composite node that was replaced by its
only child matches when the child does. Both facts are equalities, so nothing depends on how
many exclusions a node is under.
-/

namespace BooleanQuery.Compile

/-- A plan that stands for a node matches when the node does, if this holds of what is below
them. -/
theorem StandsFor.selects_eq {document : Document} {query : Query} {compiled : List Plan}
    {unwanted : Option Plan} {made : Plan} (stands : StandsFor query compiled unwanted made)
    (onChildren : compiled.map (Plan.selects document) =
      query.children.map (Query.selects document))
    (onExclusion : unwanted.map (Plan.selects document) =
      query.exclusion.map (Query.selects document)) :
    made.selects document = query.selects document := by
  rw [Query.selects_eq_verdict, ← onChildren, ← onExclusion]
  rcases stands with ⟨collapsed, rfl, rfl⟩ | ⟨-, rfl, rfl, outline⟩
  · exact (document.verdict_of_isCollapsed collapsed _).symm
  · rw [Plan.selects_eq_verdict, outline]

/-- A node that compiles and its plan match the same documents, at every depth. -/
theorem selects_of_node (document : Document) (fuel : Fuel) (depth : Nat) (query : Query)
    (plan : Plan) (compiles : (node Plan.engine fuel depth query).result = .ok plan) :
    plan.selects document = query.selects document := by
  induction query generalizing depth plan with
  | node query onChildren onExclusion =>
      obtain ⟨compiled, unwanted, parts, excluded, stands⟩ := standsFor_of_node compiles
      refine stands.selects_eq ?_ ?_
      · exact map_eq_of_forall₂ parts fun child member part compiled =>
          onChildren child member (depth + 1) part compiled
      · exact optionMap_eq_of_rel excluded fun child member part compiled =>
          onExclusion child member (depth + 1) part compiled

/-- A plan matches exactly the documents that its query matches, whatever terms there are and
whatever the combinations of nothing say. -/
theorem selects_iff_of_compile (document : Document) (fuel : Fuel) (query : Query)
    (plan : Plan) (compiles : (compile Plan.engine fuel (some query)).result = .ok plan) :
    query.selects document = true ↔ plan.selects document = true := by
  rw [compile, tree_result] at compiles
  rw [selects_of_node document fuel 1 query plan compiles]

/-- Two wrappers inside an exclusion disappear, and the empty conjunction that is left there
still drops the documents that it matches. -/
theorem selects_iff_of_wrapped_exclusion :
    let document : Document := ⟨fun field _ => field = "a", true, false, false⟩
    let wrapped : Query := Query.or [Query.disMax .zero [Query.and []]]
    let query : Query := { Query.and [Query.term "a" "x"] with exclusion := some wrapped }
    let plan : Plan := .and [.term "a" "x" none] (some (.and [] none none)) none
    (compile Plan.engine defaultFuel (some query)).result = .ok plan ∧
      (query.selects document = true ↔ plan.selects document = true) :=
  ⟨rfl, selects_iff_of_compile _ defaultFuel _ _ rfl⟩

end BooleanQuery.Compile
