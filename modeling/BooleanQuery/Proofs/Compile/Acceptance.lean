import BooleanQuery.Proofs.Compile.Violations
import BooleanQuery.Proofs.Query.Paths

/-!
# Acceptance

Which queries compile is said here without the compiler: every node that the query reaches
is legal where it stands, and no path is longer than the fuel. The compiler never looks at
some subtrees, but only below nodes that are illegal themselves, so nothing is overlooked.
-/

namespace BooleanQuery

namespace Query

/-- Whether a node may stand in a query, whatever is above and below it: a term has a field
and nothing below it, only a conjunction may have an exclusion, and the kind is known. -/
def IsLegal (query : Query) : Prop :=
  match query.kind with
  | .term => query.field ≠ "" ∧ query.exclusion = none ∧ query.children = []
  | .and => True
  | .or | .disMax => query.exclusion = none
  | .unknown _ => False

end Query

namespace Compile

theorem allows_iff (fuel : Fuel) (depth : Nat) :
    fuel.allows depth ↔ ∀ limit ∈ fuel, depth ≤ limit.toNat := by
  cases fuel <;> simp [Fuel.allows, DepthCounter.number]

/-- Nothing is wrong with a term exactly if it has a field and nothing below it. -/
theorem termViolations_eq_nil_iff (query : Query) :
    termViolations query = [] ↔
      query.field ≠ "" ∧ query.exclusion = none ∧ query.children = [] := by
  unfold termViolations
  by_cases shape : query.exclusion = none ∧ query.children = []
  · by_cases field : query.field = "" <;> simp [shape, field]
  · rw [not_and_or] at shape
    rcases shape with shape | shape <;> simp [shape, Option.isSome_iff_ne_none]

/-- No exclusion is misplaced exactly if there is none. -/
theorem misplacedExclusions_eq_nil_iff (query : Query) :
    misplacedExclusions query = [] ↔ query.exclusion = none := by
  unfold misplacedExclusions
  cases query.exclusion <;> simp

/-- Nothing is wrong with a node that must not have an exclusion exactly if it has none and
nothing is wrong with what is below it. -/
theorem childViolations_append_eq_nil_iff (fuel : Fuel) (depth : Nat) (query : Query) :
    query.children.flatMap (violations fuel depth) ++ misplacedExclusions query = [] ↔
      query.exclusion = none ∧ ∀ lower ∈ query.subqueries, violations fuel depth lower = [] := by
  rw [List.append_eq_nil_iff, List.flatMap_eq_nil_iff, misplacedExclusions_eq_nil_iff, and_comm]
  refine and_congr_right fun exclusion => ?_
  rw [Query.forall_subqueries_iff_of_no_exclusion exclusion]

/-- A tree has no violations exactly if its root is within the fuel and legal and the trees
directly below have none. -/
theorem violations_eq_nil_iff (fuel : Fuel) (depth : Nat) (query : Query) :
    violations fuel depth query = [] ↔
      fuel.allows depth ∧ query.IsLegal ∧
        ∀ lower ∈ query.subqueries, violations fuel (depth + 1) lower = [] := by
  rw [violations_eq]
  by_cases allowed : fuel.allows depth
  · simp only [allowed, if_true, true_and, Query.IsLegal]
    cases query.kind with
    | term =>
        -- There is nothing below a legal term.
        rw [termViolations_eq_nil_iff]
        refine ⟨fun legal => ⟨legal, ?_⟩, And.left⟩
        rw [Query.forall_subqueries_iff_of_no_exclusion legal.2.1, legal.2.2]
        exact fun _ absent => absurd absent List.not_mem_nil
    | and => simp [Query.mem_subqueries_iff, or_imp, forall_and]
    | or | disMax => exact childViolations_append_eq_nil_iff fuel (depth + 1) query
    | unknown number => simp
  · simp [allowed]

/-- A tree that stands below `above` nodes has no violations exactly if all nodes that it
reaches are legal and the fuel allows the depth of the end of every path. -/
theorem violations_eq_nil_iff_reaches (fuel : Fuel) (above : Nat) (query : Query) :
    violations fuel (above + 1) query = [] ↔
      (∀ node, query.Reaches node → node.IsLegal) ∧
        ∀ path, query.IsPath path → fuel.allows (above + path.length) := by
  induction query using Query.subqueryInduction generalizing above with
  | passes query onSubqueries =>
      have further : ∀ lower ∈ query.subqueries, (violations fuel (above + 1 + 1) lower = [] ↔
          (∀ node, lower.Reaches node → node.IsLegal) ∧
            ∀ path, lower.IsPath path → fuel.allows (above + (path.length + 1))) := by
        intro lower member
        simp only [onSubqueries lower member (above + 1), Nat.add_assoc, Nat.add_comm 1]
      rw [violations_eq_nil_iff, Query.forall_reaches_iff,
        Query.forall_isPath_iff fun length => fuel.allows (above + length)]
      constructor
      · rintro ⟨allowed, legal, clean⟩
        refine ⟨⟨legal, ?_⟩, allowed, ?_⟩
        · exact fun lower member => ((further lower member).mp (clean lower member)).1
        · exact fun lower member => ((further lower member).mp (clean lower member)).2
      · rintro ⟨⟨legal, reached⟩, allowed, within⟩
        refine ⟨allowed, legal, ?_⟩
        exact fun lower member =>
          (further lower member).mpr ⟨reached lower member, within lower member⟩

/-- What the compiler looks at below a node stands directly below it. -/
theorem mem_subqueries_of_mem_inspected {query lower : Query} (member : lower ∈ inspected query) :
    lower ∈ query.subqueries := by
  unfold inspected at member
  cases kind : query.kind with
  | term =>
      rw [kind] at member
      nomatch member
  | and =>
      rw [kind] at member
      exact member
  | or | disMax | unknown =>
      rw [kind] at member
      exact Query.mem_subqueries_iff.mpr (.inl member)

/-- Whether the compiler looks from a node at another directly below it. -/
def Inspects (upper lower : Query) : Prop := lower ∈ inspected upper

/-- Whether a list of nodes leads down from a query, which it starts with, and the compiler looks
from each of them at the next. -/
def IsInspectedPath (query : Query) (path : List Query) : Prop :=
  path.head? = some query ∧ path.IsChain Inspects

/-- A tree is found too deep at its root or in a tree directly below that is looked at. -/
theorem tooDeep_at_root_or_below {fuel : Fuel} {depth : Nat} {query : Query}
    (found : .tooDeep ∈ violations fuel depth query) :
    ¬fuel.allows depth ∨
      ∃ lower ∈ inspected query, .tooDeep ∈ violations fuel (depth + 1) lower := by
  by_cases allowed : fuel.allows depth
  · right
    rw [violations_eq_inspected, if_pos allowed] at found
    rcases List.mem_append.mp found with below | own
    · exact List.mem_flatMap.mp below
    · nomatch node?_of_mem_ownViolations own
  · exact .inl allowed

/-- A tree is found too deep only if the fuel does not allow the depth of the end of some path that
is looked at. -/
theorem exists_inspectedPath_of_tooDeep {fuel : Fuel} {above : Nat} {query : Query}
    (found : .tooDeep ∈ violations fuel (above + 1) query) :
    ∃ path, IsInspectedPath query path ∧ ¬fuel.allows (above + path.length) := by
  induction query using Query.subqueryInduction generalizing above with
  | passes query onSubqueries =>
      rcases tooDeep_at_root_or_below found with refused | ⟨lower, member, found⟩
      · exact ⟨[query], ⟨rfl, .singleton query⟩, refused⟩
      · obtain ⟨path, ⟨start, chain⟩, refused⟩ :=
          onSubqueries lower (mem_subqueries_of_mem_inspected member) found
        refine ⟨query :: path, ⟨rfl, List.isChain_cons.mpr ⟨?_, chain⟩⟩, ?_⟩
        · intro next first
          obtain rfl : lower = next := Option.some.inj (start.symm.trans first)
          exact member
        · rwa [List.length_cons, Nat.add_comm path.length, ← Nat.add_assoc]

/-- A tree is found too deep only if the fuel does not allow the depth of the end of some
path. -/
theorem exists_isPath_of_tooDeep {fuel : Fuel} {above : Nat} {query : Query}
    (found : .tooDeep ∈ violations fuel (above + 1) query) :
    ∃ path, query.IsPath path ∧ ¬fuel.allows (above + path.length) := by
  obtain ⟨path, ⟨start, chain⟩, refused⟩ := exists_inspectedPath_of_tooDeep found
  exact ⟨path, ⟨start, chain.imp fun _ _ => mem_subqueries_of_mem_inspected⟩, refused⟩

/-- A query compiles, whatever the engine, exactly if all its nodes are legal and no path is
longer than the fuel. So no query compiles without fuel, and none is too deep if the fuel has
no limit. -/
theorem compile_succeeds_iff_legal_within_fuel (engine : Engine) (fuel : Fuel) (query : Query) :
    ((∃ made, (compile engine fuel (some query)).result = .ok made) ↔
      (∀ node, query.Reaches node → node.IsLegal) ∧
        ∀ limit ∈ fuel, ∀ path, query.IsPath path → path.length ≤ limit.toNat) ∧
    (¬∃ made, (compile engine (some 0) (some query)).result = .ok made) ∧
    (compile engine none (some query)).result ≠ .error .tooDeep := by
  have succeeds (fuel : Fuel) :
      (∃ made, (compile engine fuel (some query)).result = .ok made) ↔
        (∀ node, query.Reaches node → node.IsLegal) ∧
          ∀ limit ∈ fuel, ∀ path, query.IsPath path → path.length ≤ limit.toNat := by
    rw [← failure?_eq_none_iff, failure?_compile, List.head?_eq_none_iff,
      violations_eq_nil_iff_reaches fuel 0]
    refine and_congr_right fun _ => ?_
    simp only [allows_iff, Nat.zero_add]
    exact ⟨fun within limit member path leads => within path leads limit member,
      fun within path leads limit member => within limit member path leads⟩
  refine ⟨succeeds fuel, ?_, ?_⟩
  · intro compiles
    obtain ⟨-, within⟩ := (succeeds (some 0)).mp compiles
    have rootFits := within 0 rfl [query] (.singleton query)
    exact Nat.not_succ_le_zero 0 rootFits
  · intro failed
    rw [← failure?_eq_some_iff, failure?_compile] at failed
    obtain ⟨path, -, refused⟩ := exists_isPath_of_tooDeep (List.mem_of_head? failed)
    exact refused rfl

end Compile

end BooleanQuery
