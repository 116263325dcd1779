import BooleanQuery.Query.Preorder

/-!
# Queries as trees

A query is a node with a list of children and perhaps an exclusion. `Query.treeInduction`
carries a property from the subtrees of a node to the node, and `Query.preorder_eq` unfolds
the list of all nodes along the same structure, so that proofs about whole trees need
neither the members of a node that they do not mention nor the paths of its subtrees.
-/

namespace BooleanQuery.Query

/-- A property that passes from the children and the exclusion of every node to the node
holds of all queries. -/
@[elab_as_elim, induction_eliminator]
theorem treeInduction {motive : Query → Prop}
    (node : ∀ query : Query, (∀ child ∈ query.children, motive child) →
      (∀ excluded ∈ query.exclusion, motive excluded) → motive query)
    (query : Query) : motive query :=
  Query.rec (motive_1 := motive)
    (motive_2 := fun exclusion => ∀ excluded ∈ exclusion, motive excluded)
    (motive_3 := fun children => ∀ child ∈ children, motive child)
    (fun kind field value boost exclusion children tiebreaker onExclusion onChildren =>
      node ⟨kind, field, value, boost, exclusion, children, tiebreaker⟩ onChildren onExclusion)
    (fun _ absent => nomatch absent)
    (fun excluded holds _ present => by
      cases present
      exact holds)
    (fun _ absent => nomatch absent)
    (fun child children holds onChildren other present => by
      cases present with
      | head => exact holds
      | tail _ later => exact onChildren other later)
    query

/-- What is shown of the nodes of children is shown of one child after another, if what is shown
of a child does not depend on its number. -/
theorem childNodesFrom_map {β : Type} (view : List Step × Query → β) (shown : Query → List β)
    {path : List Step} {children : List Query}
    (onChildren : ∀ child ∈ children, ∀ step,
      (nodesFrom (path ++ [step]) child).map view = shown child) (index : Nat) :
    (childNodesFrom path index children).map view = children.flatMap shown := by
  induction children generalizing index with
  | nil => rfl
  | cons child children inductionHypothesis =>
      rw [childNodesFrom, List.map_append, List.flatMap_cons, onChildren child List.mem_cons_self,
        inductionHypothesis fun other member => onChildren other (List.mem_cons_of_mem _ member)]

/-- What is shown of the nodes of a query is shown of the query itself, of its children, and of its
exclusion, if what is shown of these does not depend on the step that leads to them. -/
theorem nodesFrom_map {β : Type} (view : List Step × Query → β) (shown : Query → List β)
    {path : List Step} {query : Query}
    (onChildren : ∀ child ∈ query.children, ∀ step,
      (nodesFrom (path ++ [step]) child).map view = shown child)
    (onExclusion : ∀ excluded ∈ query.exclusion, ∀ step,
      (nodesFrom (path ++ [step]) excluded).map view = shown excluded) :
    (nodesFrom path query).map view =
      view (path, query) ::
        (query.children.flatMap shown ++ query.exclusion.toList.flatMap shown) := by
  obtain ⟨kind, field, value, boost, exclusion, children, tiebreaker⟩ := query
  rw [nodesFrom, List.map_cons, List.map_append, childNodesFrom_map view shown onChildren]
  cases exclusion with
  | none => rfl
  | some excluded =>
      rw [exclusionNodesFrom, onExclusion excluded rfl, Option.toList_some, List.flatMap_singleton]

/-- The nodes of a query, without their paths: the query itself, the nodes of its children
in order, and those of its exclusion. -/
def preorder (query : Query) : List Query := query.nodes.map Prod.snd

/-- The nodes that are listed do not depend on the path to the root. -/
theorem nodesFrom_map_snd (path : List Step) (query : Query) :
    (nodesFrom path query).map Prod.snd = query.preorder := by
  induction query generalizing path with
  | node query onChildren onExclusion =>
      have lower (path : List Step) := nodesFrom_map Prod.snd preorder
        (fun child member step => onChildren child member (path ++ [step]))
        fun excluded member step => onExclusion excluded member (path ++ [step])
      rw [preorder, nodes, lower, lower]

/-- A query comes first among its nodes; then come those of its children and those of its
exclusion. -/
theorem preorder_eq (query : Query) :
    query.preorder =
      query :: (query.children.flatMap preorder ++ query.exclusion.toList.flatMap preorder) :=
  nodesFrom_map Prod.snd preorder (fun child _ _ => nodesFrom_map_snd _ child)
    fun excluded _ _ => nodesFrom_map_snd _ excluded

theorem self_mem_preorder (query : Query) : query ∈ query.preorder := by
  rw [preorder_eq]
  exact List.mem_cons_self

theorem mem_preorder_of_child {query child node : Query} (member : child ∈ query.children)
    (within : node ∈ child.preorder) : node ∈ query.preorder := by
  rw [preorder_eq]
  exact List.mem_cons_of_mem _ (List.mem_append_left _ (List.mem_flatMap.mpr ⟨_, member, within⟩))

/-- The nodes of an exclusion are nodes of its parent. -/
theorem mem_preorder_of_exclusion {query excluded node : Query}
    (member : excluded ∈ query.exclusion) (within : node ∈ excluded.preorder) :
    node ∈ query.preorder := by
  rw [preorder_eq]
  exact List.mem_cons_of_mem _ (List.mem_append_right _
    (List.mem_flatMap.mpr ⟨_, Option.mem_toList.mpr member, within⟩))

/-- A property holds of all nodes of a query if it holds of the query, of the nodes of its children
and of those of its exclusion. -/
theorem forall_mem_preorder_iff {query : Query} {holds : Query → Prop} :
    (∀ node ∈ query.preorder, holds node) ↔
      holds query ∧ (∀ child ∈ query.children, ∀ node ∈ child.preorder, holds node) ∧
        ∀ excluded ∈ query.exclusion, ∀ node ∈ excluded.preorder, holds node := by
  rw [preorder_eq, List.forall_mem_cons, List.forall_mem_append]
  simp only [List.mem_flatMap, Option.mem_toList, forall_exists_index, and_imp]
  refine and_congr_right fun _ => and_congr ?_ ?_
  · exact ⟨fun each child present node within => each node child present within,
      fun each node child present within => each child present node within⟩
  · exact ⟨fun each excluded present node within => each node excluded present within,
      fun each node excluded present within => each excluded present node within⟩

end BooleanQuery.Query
