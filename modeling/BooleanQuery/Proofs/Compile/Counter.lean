import BooleanQuery.Proofs.Compile.Log
import BooleanQuery.Proofs.Query.DecodedDepth

/-!
# The counter of depths

A counter of bounded width counts exactly as long as it is not taken past its greatest number.
Which depths are counted is said here without a counter: `Compile.Counts` follows a query down
from each node that the fuel allows, so it covers whatever a compilation looks at. If all these
depths are below a bound, then every counter that is exact below the bound gives the same run as
the counter without bound, whatever it does beyond.

The fuel is checked one level below the node at which the counter is raised. So a limit bounds
the counted depths by one more than itself, and the greatest limit of 32 bits bounds them only
together with the depth of the query.
-/

namespace BooleanQuery

/-- Whether a counter is exact below a bound: it starts at one, and one deeper is one more as
long as this is below the bound. -/
structure DepthCounter.ExactBelow (bound : Nat) (Depth : Type) [DepthCounter Depth] : Prop where
  root : DepthCounter.number (DepthCounter.root : Depth) = 1
  deeper : ∀ depth : Depth, DepthCounter.number depth + 1 < bound →
    DepthCounter.number (DepthCounter.deeper depth) = DepthCounter.number depth + 1

/-- A counter of 32 bits is exact below the number at which it returns to zero. -/
theorem DepthCounter.exactBelow_word : DepthCounter.ExactBelow (2 ^ 32) UInt32 where
  root := rfl
  deeper depth below := by
    change (depth + 1).toNat = depth.toNat + 1
    rw [UInt32.toNat_add]
    exact Nat.mod_eq_of_lt below

namespace Compile

/-- The depths that are counted when a query is compiled at a depth: this one and, if the fuel
allows it, those that are counted for the queries directly below, one deeper. -/
inductive Counts (fuel : Fuel) : Nat → Query → Nat → Prop where
  | own (depth : Nat) (query : Query) : Counts fuel depth query depth
  | lower {depth counted : Nat} {query lower : Query} (allowed : fuel.allows depth)
      (member : lower ∈ query.subqueries) (further : Counts fuel (depth + 1) lower counted) :
      Counts fuel depth query counted

namespace Counts

/-- With a limit, what is counted is at most one more than the limit. -/
theorem le_limit {limit : UInt32} {depth counted : Nat} {query : Query}
    (counts : Counts (some limit) depth query counted) (start : depth ≤ limit.toNat + 1) :
    counted ≤ limit.toNat + 1 := by
  induction counts with
  | own => exact start
  | lower allowed _ _ inductionHypothesis =>
      have within := (allows_iff _ _).mp allowed limit rfl
      exact inductionHypothesis (Nat.succ_le_succ within)

/-- What is counted stays within the depth of the query. -/
theorem lt_add_depth {fuel : Fuel} {depth counted : Nat} {query : Query}
    (counts : Counts fuel depth query counted) : counted < depth + query.depth := by
  induction counts with
  | own depth query =>
      have deep := query.depth_pos
      omega
  | @lower depth counted query lower _ member _ inductionHypothesis =>
      have deep := query.depth_pos
      have shallower : lower.depth ≤ query.depth - 1 :=
        Query.depth_le_succ_iff.mp (by omega) lower member
      omega

/-- What is counted is not above the query. -/
theorem le_counted {fuel : Fuel} {depth counted : Nat} {query : Query}
    (counts : Counts fuel depth query counted) : depth ≤ counted := by
  induction counts with
  | own => exact Nat.le_refl _
  | lower _ _ _ inductionHypothesis => exact Nat.le_of_succ_le inductionHypothesis

/-- The depth of every node that the fuel allows is counted, because it also allows those above
the node. -/
theorem of_mem_levelsFrom {fuel : Fuel} {depth : Nat} {query : Query} {level : Kind × Nat}
    (member : level ∈ query.levelsFrom depth) (allowed : fuel.allows level.2) :
    Counts fuel depth query level.2 := by
  induction query generalizing depth with
  | node query onChildren onExclusion =>
      rw [Query.levelsFrom_eq, List.mem_cons, List.mem_append, List.mem_flatMap, List.mem_flatMap]
        at member
      have ofLower {lower : Query} (below : lower ∈ query.subqueries)
          (further : Counts fuel (depth + 1) lower level.2) : Counts fuel depth query level.2 :=
        .lower (allows_of_le (Nat.le_of_succ_le further.le_counted) allowed) below further
      rcases member with rfl | ⟨child, present, within⟩ | ⟨excluded, present, within⟩
      · exact .own depth query
      · exact ofLower (Query.mem_subqueries_iff.mpr (.inl present))
          (onChildren child present within)
      · have isExclusion := Option.mem_toList.mp present
        exact ofLower (Query.mem_subqueries_iff.mpr (.inr isExclusion))
          (onExclusion excluded isExclusion within)

/-- A limit below the greatest one of 32 bits, or a query that is no deeper than the greatest
number of 32 bits, keeps all that is counted from one on below the bound of these numbers. -/
theorem lt_word {fuel : Fuel} {query : Query} {counted : Nat}
    (counts : Counts fuel 1 query counted)
    (shallow : (∃ limit ∈ fuel, limit.toNat < 2 ^ 32 - 1) ∨ query.depth ≤ 2 ^ 32 - 1) :
    counted < 2 ^ 32 := by
  rcases shallow with ⟨limit, rfl, below⟩ | shallow
  · have atMost := counts.le_limit (Nat.le_add_left 1 limit.toNat)
    omega
  · have within := counts.lt_add_depth
    omega

end Counts

variable (engine : Engine)

section Exact

variable {Depth : Type} [DepthCounter Depth] {bound : Nat} {fuel : Fuel} {query : Query}

/-- As long as all that is counted is below the bound of an exact counter, a node is compiled as
it is without bound. -/
theorem node_eq_of_exactBelow (exact : DepthCounter.ExactBelow bound Depth) {depth : Depth}
    (below : ∀ counted, Counts fuel (DepthCounter.number depth) query counted → counted < bound) :
    node engine fuel depth query = node engine fuel (DepthCounter.number depth) query := by
  induction query generalizing depth with
  | node query onChildren onExclusion =>
      have allowsAlike : fuel.allows (DepthCounter.number depth) = fuel.allows depth := rfl
      rw [node_eq, node_eq, allowsAlike]
      split
      · next allowed =>
          -- Whatever stands below is counted, and by this the counter is exact one level deeper.
          have raised {lower : Query} (member : lower ∈ query.subqueries) :
              DepthCounter.number (DepthCounter.deeper depth) = DepthCounter.number depth + 1 :=
            exact.deeper depth (below _ (.lower allowed member (.own _ lower)))
          have further {lower : Query} (member : lower ∈ query.subqueries) (counted : Nat)
              (counts : Counts fuel (DepthCounter.number (DepthCounter.deeper depth)) lower
                counted) : counted < bound :=
            below counted (.lower allowed member (raised member ▸ counts))
          have children := mapM_congr fun child present =>
            have member := Query.mem_subqueries_iff.mpr (.inl present)
            (onChildren child present (further member)).trans
              (congrArg (node engine fuel · child) (raised member))
          have exclusion := optionMapM_congr fun excluded present =>
            have member := Query.mem_subqueries_iff.mpr (.inr present)
            (onExclusion excluded present (further member)).trans
              (congrArg (node engine fuel · excluded) (raised member))
          rw [children, exclusion]
          rfl
      · rfl

/-- As long as all that is counted is below the bound of an exact counter, a tree is compiled as
it is without bound. -/
theorem tree_eq_of_exactBelow (exact : DepthCounter.ExactBelow bound Depth)
    (below : ∀ counted, Counts fuel 1 query counted → counted < bound) :
    tree engine Depth fuel query = compile engine fuel (some query) := by
  have same : node engine fuel (DepthCounter.root : Depth) query =
      node engine fuel (DepthCounter.number (DepthCounter.root : Depth)) query :=
    node_eq_of_exactBelow engine exact (exact.root ▸ below)
  rw [tree, same, exact.root]
  rfl

end Exact

/-- The nodes entered in a compilation are counted. -/
theorem counts_of_mem_entered {fuel : Fuel} {query : Query} {level : Kind × Nat}
    (member : level ∈ (compile engine fuel (some query)).entered) :
    Counts fuel 1 query level.2 := by
  have visited := node_visits engine fuel 1 query
  have entered : (compile engine fuel (some query)).entered = (node engine fuel 1 query).entered :=
    Run.observed_reportFailure (fun _ => rfl) _
  rw [entered] at member
  exact Counts.of_mem_levelsFrom (visited.beginning.subset member)
    (Run.allows_of_mem_entered visited.within member)

/-- Under a limit below the greatest one of 32 bits, whatever the depth of the query, and under any
fuel if the query is no deeper than the greatest number of 32 bits: all depths that are counted, so
those of all nodes entered, are below the bound of these numbers. Hence every counter that is exact
below this bound, and in particular the counter of 32 bits, gives the same run as the counter
without bound: the same events, which hold the calls and the depths that are logged, and the same
result. -/
theorem word_counter_exact (fuel : Fuel) (query : Query)
    (shallow : (∃ limit ∈ fuel, limit.toNat < 2 ^ 32 - 1) ∨ query.depth ≤ 2 ^ 32 - 1) :
    (∀ level ∈ (compile engine fuel (some query)).entered, Counts fuel 1 query level.2) ∧
      (∀ counted, Counts fuel 1 query counted → counted < 2 ^ 32) ∧
      (∀ (Depth : Type) [DepthCounter Depth], DepthCounter.ExactBelow (2 ^ 32) Depth →
        tree engine Depth fuel query = compile engine fuel (some query)) ∧
      tree engine UInt32 fuel query = compile engine fuel (some query) := by
  have below (counted : Nat) (counts : Counts fuel 1 query counted) : counted < 2 ^ 32 :=
    counts.lt_word shallow
  refine ⟨fun level member => counts_of_mem_entered engine member, below, ?_, ?_⟩
  · intro Depth counter exact
    exact tree_eq_of_exactBelow engine exact below
  · exact tree_eq_of_exactBelow engine DepthCounter.exactBelow_word below

/-- A limit of two cuts a query of three levels off, where depth three has been counted; without a
limit the three levels are compiled. In both runs the counter of 32 bits is exact. -/
theorem word_counter_exact_uneven_conjunction :
    let query := { Query.and [.term "a" "x"] with exclusion := some (.or [.term "b" "y"]) }
    let plan : Plan := .and [.term "a" "x" none] (some (.term "b" "y" none)) none
    ((∃ limit ∈ some (2 : UInt32), limit.toNat < 2 ^ 32 - 1) ∧ ¬ query.depth ≤ 2 ∧
        Counts (some 2) 1 query 3 ∧ 3 < 2 ^ 32 ∧
        (tree Plan.engine UInt32 (some 2) query).result = .error .tooDeep ∧
        tree Plan.engine UInt32 (some 2) query = compile Plan.engine (some 2) (some query)) ∧
      (query.depth ≤ 2 ^ 32 - 1 ∧
        (tree Plan.engine UInt32 none query).result = .ok plan ∧
        tree Plan.engine UInt32 none query = compile Plan.engine none (some query)) := by
  intro query plan
  have limited : ∃ limit ∈ some (2 : UInt32), limit.toNat < 2 ^ 32 - 1 := ⟨2, rfl, by decide⟩
  have shallow : query.depth ≤ 2 ^ 32 - 1 := by decide
  have counts : Counts (some 2) 1 query 3 :=
    .lower rfl (Query.mem_subqueries_iff.mpr (.inr rfl))
      (.lower rfl (Query.mem_subqueries_iff.mpr (.inl List.mem_cons_self))
        (.own 3 (.term "b" "y")))
  obtain ⟨-, below, -, same⟩ := word_counter_exact Plan.engine (some 2) query (.inl limited)
  obtain ⟨-, -, -, sameUnlimited⟩ := word_counter_exact Plan.engine none query (.inr shallow)
  exact ⟨⟨limited, by decide, counts, below 3 counts, rfl, same⟩, shallow, rfl, sameUnlimited⟩

section Boundary

theorem mem_entered_bind {α β : Type} {run : Run α} {level : Kind × Nat}
    (member : level ∈ run.entered) (next : α → Run β) : level ∈ (run >>= next).entered :=
  ((run.events_prefix_bind next).filterMap Event.entered?).subset member

/-- What is entered after a success is entered in the whole run. -/
theorem mem_entered_of_next {α β : Type} {run : Run α} {value : α} {next : α → Run β}
    {level : Kind × Nat} (succeeds : run.result = .ok value)
    (member : level ∈ (next value).entered) : level ∈ (run >>= next).entered := by
  rcases run with ⟨events, error | made⟩
  · nomatch succeeds
  · cases succeeds
    exact (List.sublist_append_right events _).filterMap Event.entered? |>.subset member

/-- A counter of 32 bits that is never stopped counts nested conjunctions up to its greatest
number and on from zero. -/
theorem mem_entered_nested {fuel : Fuel} (unstopped : ∀ depth : UInt32, fuel.allows depth)
    (levels : Nat) (depth : UInt32) :
    (.and, (depth + UInt32.ofNat levels).toNat) ∈
      (node engine fuel depth (Query.nested levels)).entered := by
  induction levels generalizing depth with
  | zero =>
      rw [node_eq, if_pos (unstopped depth)]
      refine mem_entered_bind (List.mem_singleton.mpr ?_) _
      rw [show depth + UInt32.ofNat 0 = depth from UInt32.add_zero depth]
      rfl
  | succ levels inductionHypothesis =>
      have shifted : depth + UInt32.ofNat (levels + 1) = depth + 1 + UInt32.ofNat levels := by
        rw [UInt32.ofNat_add, UInt32.add_assoc, UInt32.add_comm 1]
        rfl
      rw [node_eq, if_pos (unstopped depth), shifted]
      refine @mem_entered_of_next _ _ _ () _ _ rfl ?_
      change _ ∈ (conjunction engine (Query.nested (levels + 1))
        (some (Query.nested levels) |>.mapM (node engine fuel (depth + 1))) []).entered
      rw [conjunction_eq engine rfl, Option.mapM_some, map_eq_pure_bind]
      refine @mem_entered_of_next _ _ _ () _ _ rfl ?_
      exact mem_entered_bind (mem_entered_bind (inductionHypothesis (depth + 1)) _) _

/-- Beyond the bound the counters differ: if the fuel allows all numbers of 32 bits, the counter of
32 bits enters a node at depth zero in a query that is one node deeper, and the counter without
bound does not. -/
theorem tree_ne_of_beyond_word {fuel : Fuel} (unstopped : ∀ depth : UInt32, fuel.allows depth)
    {levels : Nat} (beyond : levels + 1 = 2 ^ 32) :
    (Query.nested levels).depth = 2 ^ 32 ∧
      tree engine UInt32 fuel (Query.nested levels) ≠
        compile engine fuel (some (Query.nested levels)) := by
  refine ⟨(Query.depth_nested levels).trans beyond, fun same => ?_⟩
  have wrapped : (1 + UInt32.ofNat levels : UInt32).toNat = 0 := by
    rw [UInt32.toNat_add, UInt32.toNat_ofNat', UInt32.toNat_one]
    omega
  have entered : (Kind.and, 0) ∈ (tree engine UInt32 fuel (Query.nested levels)).entered := by
    have within := mem_entered_nested engine unstopped levels 1
    rw [wrapped] at within
    rw [Run.entered, tree, Run.observed_reportFailure fun _ => rfl]
    exact within
  rw [same] at entered
  exact absurd (counts_of_mem_entered engine entered).le_counted (by decide)

end Boundary

end Compile

end BooleanQuery
