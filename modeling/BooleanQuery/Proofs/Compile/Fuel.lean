import BooleanQuery.Proofs.Compile.Depth
import BooleanQuery.Proofs.Compile.Events
import BooleanQuery.Proofs.Compile.Observation

/-!
# More fuel

Less fuel can only cut a run short. `Run.CutsShort` compares two runs of this kind: they are
the same, or the first one fails for its fuel after the beginning of what happens in the
second. The relation passes through every combination that the compiler is made of, so the
runs of a node under two fuels are related as soon as those of its parts are.

With the depth of a query the comparison becomes a bound: all fuels that allow the depth give
the same run.
-/

namespace BooleanQuery

/-- Whether a fuel is at most another, where having no limit is the most. -/
def Fuel.AtMost : Fuel → Fuel → Prop
  | _, none => True
  | none, some _ => False
  | some limit, some larger => limit ≤ larger

theorem Fuel.atMost_none (fuel : Fuel) : fuel.AtMost none := by
  cases fuel <;> trivial

/-- What a fuel allows, a fuel that is at least as much allows too. -/
theorem Fuel.AtMost.allows {Depth : Type} [DepthCounter Depth] {fuel larger : Fuel}
    (atMost : fuel.AtMost larger) {depth : Depth} (allowed : fuel.allows depth) :
    larger.allows depth := by
  cases larger with
  | none => rfl
  | some larger =>
      cases fuel with
      | none => nomatch atMost
      | some limit =>
          have within : DepthCounter.number depth ≤ limit.toNat := of_decide_eq_true allowed
          have bound : limit.toNat ≤ larger.toNat := UInt32.le_iff_toNat_le.mp atMost
          exact decide_eq_true (within.trans bound)

namespace Run

variable {α β : Type}

/-- A run is another one, or it fails for its fuel after the beginning of the other. -/
inductive CutsShort (run whole : Run α) : Prop where
  | same (same : run = whole)
  | cut (exhausted : run.result = .error .tooDeep) (beginning : run.events <+: whole.events)

/-- A run begins with its first part. -/
theorem events_prefix_bind (run : Run α) (next : α → Run β) :
    run.events <+: (run >>= next).events := by
  rcases run with ⟨events, error | value⟩
  · exact List.prefix_rfl
  · exact List.prefix_append events (next value).events

theorem CutsShort.refl (run : Run α) : run.CutsShort run := .same rfl

/-- A run that fails for its fuel at once cuts every run short. -/
theorem CutsShort.tooDeep (whole : Run α) : (Run.fail .tooDeep).CutsShort whole :=
  .cut rfl (List.nil_prefix)

/-- In a sequence, each part may be cut short. -/
theorem CutsShort.bind {run whole : Run α} {next further : α → Run β}
    (first : run.CutsShort whole) (second : ∀ value, (next value).CutsShort (further value)) :
    (run >>= next).CutsShort (whole >>= further) := by
  cases first with
  | same same =>
      subst same
      rcases run with ⟨events, error | value⟩
      · exact .refl _
      · rw [bind_ok, bind_ok]
        cases second value with
        | same same =>
            rw [same]
            exact .refl _
        | cut exhausted beginning =>
            exact .cut exhausted ((List.prefix_append_right_inj events).mpr beginning)
  | cut exhausted beginning =>
      rcases run with ⟨events, error | value⟩
      · obtain rfl : error = .tooDeep := Except.error.inj exhausted
        exact .cut rfl (beginning.trans (events_prefix_bind whole further))
      · nomatch exhausted

/-- In a run of one step on every element, each step may be cut short. -/
theorem CutsShort.mapM {function other : α → Run β} {items : List α}
    (each : ∀ item ∈ items, (function item).CutsShort (other item)) :
    (items.mapM function).CutsShort (items.mapM other) := by
  induction items with
  | nil => exact .refl _
  | cons item items inductionHypothesis =>
      have others := inductionHypothesis fun later member =>
        each later (List.mem_cons_of_mem _ member)
      rw [List.mapM_cons, List.mapM_cons]
      refine (each item List.mem_cons_self).bind fun value => ?_
      exact others.bind fun values => .refl _

/-- A step on a value that may be absent may be cut short. -/
theorem CutsShort.optionMapM {function other : α → Run β} {item : Option α}
    (each : ∀ present ∈ item, (function present).CutsShort (other present)) :
    (item.mapM function).CutsShort (item.mapM other) := by
  cases item with
  | none => exact .refl _
  | some present =>
      rw [Option.mapM_some, Option.mapM_some, map_eq_pure_bind, map_eq_pure_bind]
      exact (each present rfl).bind fun value => .refl _

/-- The log records that tell every step, in order. -/
def traces (run : Run α) : List LogRecord :=
  run.log.filter fun record => record.1 = .trace

/-- The record that an event leaves if it is a step. -/
def traceRecord? (event : Event) : Option LogRecord :=
  event.logRecord?.filter fun record => record.1 = .trace

theorem traces_eq (run : Run α) : run.traces = run.events.filterMap traceRecord? :=
  List.filter_filterMap ..

/-- Who does not see failures sees the beginning of the whole run in what is left of it, also
if failures are reported. -/
theorem CutsShort.observed_prefix {ω : Type} {observe : Event → Option ω}
    (unseen : ∀ error, observe (.failed error) = none) {run whole : Run α}
    (cut : run.CutsShort whole) :
    run.reportFailure.events.filterMap observe <+:
      whole.reportFailure.events.filterMap observe := by
  rw [observed_reportFailure unseen, observed_reportFailure unseen]
  cases cut with
  | same same =>
      subst same
      exact List.prefix_rfl
  | cut exhausted beginning => exact beginning.filterMap observe

end Run

namespace Compile

variable (engine : Engine)

/-- A conjunction may be cut short in its exclusion. -/
theorem conjunction_cutsShort (query : Query) (compiled : List engine.Query)
    {exclusion whole : Run (Option engine.Query)} (cut : exclusion.CutsShort whole) :
    (conjunction engine query exclusion compiled).CutsShort
      (conjunction engine query whole compiled) := by
  rcases sole : soleChild? query.exclusion compiled with _ | only
  · rw [conjunction_eq engine sole, conjunction_eq engine sole]
    refine (Run.CutsShort.refl _).bind fun _ => ?_
    exact cut.bind fun unwanted => .refl _
  · unfold conjunction
    rw [sole]
    exact .refl _

/-- The run of a node under less fuel cuts short that under more. -/
theorem node_cutsShort {Depth : Type} [DepthCounter Depth] {fuel larger : Fuel}
    (atMost : fuel.AtMost larger) (depth : Depth) (query : Query) :
    (node engine fuel depth query).CutsShort (node engine larger depth query) := by
  induction query generalizing depth with
  | node query onChildren onExclusion =>
      have children := Run.CutsShort.mapM fun child member =>
        onChildren child member (DepthCounter.deeper depth)
      have exclusion := Run.CutsShort.optionMapM fun excluded member =>
        onExclusion excluded member (DepthCounter.deeper depth)
      rw [node_eq, node_eq]
      by_cases allowed : fuel.allows depth
      · rw [if_pos allowed, if_pos (atMost.allows allowed)]
        refine (Run.CutsShort.refl _).bind fun _ => ?_
        cases query.kind with
        | term => exact .refl _
        | and =>
            exact children.bind fun compiled =>
              conjunction_cutsShort engine query compiled exclusion
        | or => exact children.bind fun compiled => .refl _
        | disMax => exact children.bind fun compiled => .refl _
        | unknown number => exact children.bind fun compiled => .refl _
      · rw [if_neg allowed]
        exact .tooDeep _

/-- A tree that is not found too deep compiles in the same way under more fuel. -/
theorem tree_eq_of_ne_tooDeep {Depth : Type} [DepthCounter Depth] {fuel larger : Fuel}
    (atMost : fuel.AtMost larger) {query : Query}
    (enough : (tree engine Depth fuel query).result ≠ .error .tooDeep) :
    tree engine Depth larger query = tree engine Depth fuel query := by
  rw [tree, reportFailure_result] at enough
  cases node_cutsShort engine atMost (DepthCounter.root : Depth) query with
  | same same => rw [tree, tree, same]
  | cut exhausted beginning => exact absurd exhausted enough

/-- All fuels that allow the depth of a query compile it in the same way, whether or not it is
legal. -/
theorem compile_eq_of_allows_depth {fuel : Fuel} {query : Query}
    (allowed : fuel.allows query.depth) :
    compile engine fuel (some query) = compile engine none (some query) :=
  (tree_eq_of_ne_tooDeep engine fuel.atMost_none (result_ne_tooDeep allowed)).symm

/-- A legal query that is deeper than the fuel allows is found too deep. -/
theorem result_eq_tooDeep_of_legal {fuel : Fuel} {query : Query}
    (legal : ∀ node, query.Reaches node → node.IsLegal) (refused : ¬ fuel.allows query.depth) :
    (compile engine fuel (some query)).result = .error .tooDeep := by
  by_contra enough
  have same : compile engine none (some query) = compile engine fuel (some query) :=
    tree_eq_of_ne_tooDeep engine fuel.atMost_none enough
  obtain ⟨made, succeeds⟩ := (succeeds_iff_allows_depth engine none query).mpr ⟨legal, rfl⟩
  rw [same] at succeeds
  exact refused ((succeeds_iff_allows_depth engine fuel query).mp ⟨made, succeeds⟩).2

/-- A compilation that is not cut short by its fuel is the same under more fuel. One that is cut
short has made the first calls and told the first steps of every compilation under more fuel.
So a query compiles under no fuel at all, or exactly if its depth is not above the limit. -/
theorem compile_of_more_fuel (query : Query) :
    (∀ fuel larger : Fuel, fuel.AtMost larger →
      ((compile engine fuel (some query)).result ≠ .error .tooDeep →
        compile engine larger (some query) = compile engine fuel (some query)) ∧
      ((compile engine fuel (some query)).result = .error .tooDeep →
        (compile engine fuel (some query)).calls <+: (compile engine larger (some query)).calls ∧
        (compile engine fuel (some query)).traces <+:
          (compile engine larger (some query)).traces)) ∧
    ((∀ fuel, ¬ ∃ made, (compile engine fuel (some query)).result = .ok made) ∨
      ∀ fuel : Fuel, (∃ made, (compile engine fuel (some query)).result = .ok made) ↔
        ∀ limit ∈ fuel, query.depth ≤ limit.toNat) := by
  constructor
  · intro fuel larger atMost
    have cut := node_cutsShort engine atMost (DepthCounter.root : Nat) query
    refine ⟨tree_eq_of_ne_tooDeep engine atMost, fun exhausted => ?_⟩
    rw [Run.traces_eq, Run.traces_eq]
    constructor
    · exact cut.observed_prefix fun _ => rfl
    · exact cut.observed_prefix fun _ => rfl
  · by_cases legal : ∀ node, query.Reaches node → node.IsLegal
    · right
      intro fuel
      rw [succeeds_iff_allows_depth, allows_iff]
      exact and_iff_right legal
    · left
      intro fuel succeeds
      exact legal ((succeeds_iff_allows_depth engine fuel query).mp succeeds).1

/-- A limit of two cuts the compilation off below the second child of a conjunction, when the
call for the first child has been made. A limit of three is as good as none. -/
theorem compile_of_more_fuel_uneven_conjunction :
    let query := Query.and [Query.term "a" "x", Query.or [Query.term "b" "y"]]
    let made : Plan := .and [.term "a" "x" none, .term "b" "y" none] none none
    (compile Plan.engine (some 2) (some query)).result = .error .tooDeep ∧
      (compile Plan.engine (some 2) (some query)).calls = [.term "a" "x"] ∧
      ((compile Plan.engine (some 2) (some query)).calls <+:
          (compile Plan.engine (some 3) (some query)).calls ∧
        (compile Plan.engine (some 2) (some query)).traces <+:
          (compile Plan.engine (some 3) (some query)).traces) ∧
      (compile Plan.engine (some 3) (some query)).result = .ok made ∧
      compile Plan.engine none (some query) = compile Plan.engine (some 3) (some query) := by
  intro query made
  have larger : Fuel.AtMost (some 2) (some 3) := by
    show (2 : UInt32) ≤ 3
    decide
  refine ⟨rfl, rfl, ?_, rfl, ?_⟩
  · exact ((compile_of_more_fuel Plan.engine query).1 _ _ larger).2 rfl
  · exact ((compile_of_more_fuel Plan.engine query).1 _ _ (Fuel.atMost_none _)).1 nofun

end Compile

end BooleanQuery
