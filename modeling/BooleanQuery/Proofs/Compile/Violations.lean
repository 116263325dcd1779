import BooleanQuery.Proofs.Compile.Result

/-!
# Violations

The compiler stops at the first illegal node. `Compile.violations` goes on: it lists all that
is wrong with a tree, in the order in which the compiler would come across it. Fuel, the
shape of a term and its field are checked before anything below the node; a misplaced
exclusion and an unknown kind only after all of the children. What stands below a term, and
below an exclusion that is not allowed, is never looked at.

The error of a compilation is the first violation, whatever the engine. A violation that is not
one of the fuel is found at a node that is looked at, and carries the text of this node.
-/

namespace BooleanQuery.Compile

/-- What is wrong with a term. -/
def termViolations (query : Query) : List CompileError :=
  if query.exclusion.isSome || !query.children.isEmpty then [.misshapenTerm query.text]
  else if query.field = "" then [.missingField query.text]
  else []

/-- What is wrong with a node that must not have an exclusion, apart from its children. -/
def misplacedExclusions (query : Query) : List CompileError :=
  if query.exclusion.isSome then [.misplacedExclusion query.kind query.text] else []

mutual

/-- All that is wrong with a tree whose root is at the given depth. -/
def violations (fuel : Fuel) (depth : Nat) : Query → List CompileError
  | ⟨kind, field, value, boost, exclusion, children, tiebreaker⟩ =>
      let query : Query := ⟨kind, field, value, boost, exclusion, children, tiebreaker⟩
      if fuel.any (fun limit => limit.toNat < depth) then [.tooDeep]
      else
        match kind with
        | .term => termViolations query
        | .and =>
            childViolations fuel (depth + 1) children ++
              exclusionViolations fuel (depth + 1) exclusion
        | .or | .disMax =>
            childViolations fuel (depth + 1) children ++ misplacedExclusions query
        | .unknown _ => childViolations fuel (depth + 1) children ++ [.unknownKind query.text]

/-- All that is wrong with children at the given depth. -/
def childViolations (fuel : Fuel) (depth : Nat) : List Query → List CompileError
  | [] => []
  | child :: children => violations fuel depth child ++ childViolations fuel depth children

/-- All that is wrong with an exclusion at the given depth. -/
def exclusionViolations (fuel : Fuel) (depth : Nat) : Option Query → List CompileError
  | none => []
  | some excluded => violations fuel depth excluded

end

/-- The violations of children are those of one child after another. -/
theorem childViolations_eq (fuel : Fuel) (depth : Nat) (children : List Query) :
    childViolations fuel depth children = children.flatMap (violations fuel depth) := by
  induction children with
  | nil => rfl
  | cons child children inductionHypothesis =>
      rw [childViolations, List.flatMap_cons, inductionHypothesis]

/-- The violations of an exclusion are those of its query. -/
theorem exclusionViolations_eq (fuel : Fuel) (depth : Nat) (exclusion : Option Query) :
    exclusionViolations fuel depth exclusion =
      exclusion.toList.flatMap (violations fuel depth) := by
  cases exclusion with
  | none => rfl
  | some excluded => simp [exclusionViolations]

/-- The error of a term is its first violation. -/
theorem failure?_term (engine : Engine) (query : Query) :
    failure? (term engine query).result = (termViolations query).head? := by
  rw [term_result, termViolations]
  split
  · rfl
  · split <;> rfl

theorem failure?_disjunction (engine : Engine) (query : Query) (compiled : List engine.Query) :
    failure? (disjunction engine query compiled).result = (misplacedExclusions query).head? := by
  rw [disjunction_result, misplacedExclusions]
  split <;> rfl

theorem failure?_disMax (engine : Engine) (query : Query) (compiled : List engine.Query) :
    failure? (disMax engine query compiled).result = (misplacedExclusions query).head? := by
  rw [disMax_result, misplacedExclusions]
  split <;> rfl

/-- The violations of a node, with those of its children and its exclusion as whole lists. -/
theorem violations_eq (fuel : Fuel) (depth : Nat) (query : Query) :
    violations fuel depth query =
      if fuel.allows depth then
        match query.kind with
        | .term => termViolations query
        | .and => query.children.flatMap (violations fuel (depth + 1)) ++
            query.exclusion.toList.flatMap (violations fuel (depth + 1))
        | .or | .disMax =>
            query.children.flatMap (violations fuel (depth + 1)) ++ misplacedExclusions query
        | .unknown _ =>
            query.children.flatMap (violations fuel (depth + 1)) ++ [.unknownKind query.text]
      else [.tooDeep] := by
  have limit : fuel.allows depth = !fuel.any (fun limit => limit.toNat < depth) := by
    cases fuel with
    | none => rfl
    | some limit => simp [Fuel.allows, DepthCounter.number, ← decide_not]
  rw [limit, ← exclusionViolations_eq]
  simp only [← childViolations_eq]
  obtain ⟨kind, field, value, boost, exclusion, children, tiebreaker⟩ := query
  unfold violations
  cases fuel.any (fun limit => limit.toNat < depth) with
  | true => rfl
  | false => rfl

/-- The queries directly below a node that the compiler looks at, in order. It looks at nothing
below a term, and at the exclusion of a conjunction only. -/
def inspected (query : Query) : List Query :=
  match query.kind with
  | .term => []
  | .and => query.children ++ query.exclusion.toList
  | .or | .disMax | .unknown _ => query.children

/-- What is wrong with a node itself, apart from what is below it. -/
def ownViolations (query : Query) : List CompileError :=
  match query.kind with
  | .term => termViolations query
  | .and => []
  | .or | .disMax => misplacedExclusions query
  | .unknown _ => [.unknownKind query.text]

/-- The violations of a node within the fuel are those of what is looked at below it, and then its
own. -/
theorem violations_eq_inspected (fuel : Fuel) (depth : Nat) (query : Query) :
    violations fuel depth query =
      if fuel.allows depth then
        (inspected query).flatMap (violations fuel (depth + 1)) ++ ownViolations query
      else [.tooDeep] := by
  rw [violations_eq]
  unfold inspected ownViolations
  cases query.kind with
  | term => rfl
  | and => rw [List.flatMap_append, List.append_nil]
  | _ => rfl

/-- What is wrong with a term carries its text. -/
theorem node?_of_mem_termViolations {query : Query} {error : CompileError}
    (found : error ∈ termViolations query) : error.node? = some query.text := by
  unfold termViolations at found
  split at found
  · obtain rfl := List.mem_singleton.mp found
    rfl
  · split at found
    · obtain rfl := List.mem_singleton.mp found
      rfl
    · nomatch found

/-- A misplaced exclusion is reported with the text of the node that has it. -/
theorem node?_of_mem_misplacedExclusions {query : Query} {error : CompileError}
    (found : error ∈ misplacedExclusions query) : error.node? = some query.text := by
  unfold misplacedExclusions at found
  split at found
  · obtain rfl := List.mem_singleton.mp found
    rfl
  · nomatch found

/-- What is wrong with a node itself carries its text. -/
theorem node?_of_mem_ownViolations {query : Query} {error : CompileError}
    (found : error ∈ ownViolations query) : error.node? = some query.text := by
  unfold ownViolations at found
  cases kind : query.kind with
  | term =>
      rw [kind] at found
      exact node?_of_mem_termViolations found
  | and =>
      rw [kind] at found
      nomatch found
  | or | disMax =>
      rw [kind] at found
      exact node?_of_mem_misplacedExclusions found
  | unknown number =>
      rw [kind] at found
      obtain rfl := List.mem_singleton.mp found
      rfl

/-- The error of a node is its first violation, at every depth. -/
theorem failure?_node (engine : Engine) (fuel : Fuel) (depth : Nat) (query : Query) :
    failure? (node engine fuel depth query).result = (violations fuel depth query).head? := by
  induction query generalizing depth with
  | node query onChildren onExclusion =>
      have children := failure?_mapM fun child member => onChildren child member (depth + 1)
      have exclusion := failure?_optionMapM fun excluded member =>
        onExclusion excluded member (depth + 1)
      rw [node_result, violations_eq]
      split
      · cases query.kind with
        | term => exact failure?_term engine query
        | and =>
            rw [List.head?_append, ← children, ← exclusion]
            refine failure?_bind fun compiled => ?_
            -- Once its parts are compiled, nothing can be wrong with a conjunction.
            have complete := failure?_map
              (query.exclusion.mapM fun excluded => (node engine fuel (depth + 1) excluded).result)
              (conjoined engine query.boost compiled)
            exact complete
        | or =>
            rw [List.head?_append, ← children]
            exact failure?_bind (failure?_disjunction engine query)
        | disMax =>
            rw [List.head?_append, ← children]
            exact failure?_bind (failure?_disMax engine query)
        | unknown number =>
            rw [List.head?_append, ← children]
            exact failure?_bind fun compiled => rfl
      · rfl

/-- The error of a compilation is the first violation of the query. -/
theorem failure?_compile (engine : Engine) (fuel : Fuel) (query : Query) :
    failure? (compile engine fuel (some query)).result = (violations fuel 1 query).head? := by
  rw [compile, tree_result]
  exact failure?_node engine fuel 1 query

/-- A query compiles exactly when it has no violations, and otherwise its error is the first
of them. -/
theorem compile_result_eq_first_violation (engine : Engine) (fuel : Fuel) (query : Query) :
    (∀ error, (compile engine fuel (some query)).result = .error error ↔
      (violations fuel 1 query).head? = some error) ∧
    ((∃ made, (compile engine fuel (some query)).result = .ok made) ↔
      violations fuel 1 query = []) := by
  constructor
  · intro error
    rw [← failure?_compile, failure?_eq_some_iff]
  · rw [← failure?_eq_none_iff, failure?_compile, List.head?_eq_none_iff]

end BooleanQuery.Compile
