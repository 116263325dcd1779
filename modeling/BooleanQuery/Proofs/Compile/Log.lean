import BooleanQuery.Proofs.Compile.Fuel
import BooleanQuery.Proofs.Text.Pieces

/-!
# The log of a compilation

A compilation tells which nodes it enters and, if it fails, why. `Run.Visits` compares a run
with the nodes that it should enter: those that it does enter are the first of them, and all
of them if it succeeds. So where a run stops needs no case of its own, and neither do the
subtrees that are never looked at, because what skips them fails.

A compilation visits the nodes of the query in preorder. Its log consists of one record for
each node entered and, at the end, one for the failure if there is one.
-/

namespace BooleanQuery

namespace Query

/-- The kind of a node and its depth, if the node that its path starts from is at the given
depth: each step leads one deeper. -/
def level (depth : Nat) (visited : List Step × Query) : Kind × Nat :=
  (visited.2.kind, depth + visited.1.length)

/-- The nodes of a query in preorder, each by its kind and its depth, if the query itself is at
the given depth. -/
def levelsFrom (depth : Nat) (query : Query) : List (Kind × Nat) := query.nodes.map (level depth)

/-- A path to the root adds its length to all depths. -/
theorem nodesFrom_map_level (path : List Step) (depth : Nat) (query : Query) :
    (nodesFrom path query).map (level depth) = query.levelsFrom (depth + path.length) := by
  induction query generalizing path depth with
  | node query onChildren onExclusion =>
      have longer (path : List Step) (depth : Nat) (step : Step) :
          depth + (path ++ [step]).length = depth + path.length + 1 := by
        rw [List.length_append, List.length_singleton, Nat.add_assoc]
      have lower (path : List Step) (depth : Nat) :=
        nodesFrom_map (level depth) (levelsFrom (depth + path.length + 1))
          (fun child member step =>
            (onChildren child member (path ++ [step]) depth).trans (by rw [longer]))
          fun excluded member step =>
            (onExclusion excluded member (path ++ [step]) depth).trans (by rw [longer])
      rw [levelsFrom, nodes, lower, lower]
      rfl

/-- The depth of a query comes first; the depths of the nodes below it start one deeper. -/
theorem levelsFrom_eq (depth : Nat) (query : Query) :
    query.levelsFrom depth =
      (query.kind, depth) :: (query.children.flatMap (levelsFrom (depth + 1)) ++
        query.exclusion.toList.flatMap (levelsFrom (depth + 1))) :=
  nodesFrom_map (level depth) (levelsFrom (depth + 1))
    (fun child _ step => nodesFrom_map_level [step] depth child)
    fun excluded _ step => nodesFrom_map_level [step] depth excluded

end Query

/-- Whether an event may happen before a run ends: nodes are entered within the fuel, and no
failure is reported. -/
def Event.IsWithin (fuel : Fuel) : Event → Prop
  | .entered _ depth => fuel.allows depth
  | .called _ => True
  | .failed _ => False

namespace Run

variable {α β : Type} (fuel : Fuel)

/-- A run enters the first of the given nodes, and all of them if it succeeds. -/
structure Visits (run : Run α) (levels : List (Kind × Nat)) : Prop where
  beginning : run.entered <+: levels
  complete : ∀ value, run.result = .ok value → run.entered = levels
  within : ∀ event ∈ run.events, event.IsWithin fuel

variable {fuel} {levels further : List (Kind × Nat)}

theorem Visits.fail (error : CompileError) : (Run.fail error : Run α).Visits fuel levels where
  beginning := List.nil_prefix
  complete _ impossible := nomatch impossible
  within _ absent := nomatch absent

/-- A run that only calls the engine enters no node. -/
theorem Visits.ofCalls {run : Run α} (calls : ∀ event ∈ run.events, ∃ call, event = .called call) :
    run.Visits fuel [] := by
  have nothing : run.entered = [] := by
    rw [entered, List.filterMap_eq_nil_iff]
    intro event member
    obtain ⟨call, rfl⟩ := calls event member
    rfl
  refine ⟨nothing ▸ List.prefix_rfl, fun _ _ => nothing, fun event member => ?_⟩
  obtain ⟨call, rfl⟩ := calls event member
  trivial

theorem Visits.pure (value : α) : (Pure.pure value : Run α).Visits fuel [] :=
  .ofCalls fun _ absent => nomatch absent

/-- Entering a node within the fuel enters this node. -/
theorem Visits.enter {kind : Kind} {depth : Nat} (allowed : fuel.allows depth) :
    (Run.emit (.entered kind depth)).Visits fuel [(kind, depth)] where
  beginning := List.prefix_rfl
  complete _ _ := rfl
  within event member := by
    obtain rfl := List.mem_singleton.mp member
    exact allowed

/-- In a sequence the nodes of the second part follow those of the first. -/
theorem Visits.bind {run : Run α} {next : α → Run β} (first : run.Visits fuel levels)
    (second : ∀ value, (next value).Visits fuel further) :
    (run >>= next).Visits fuel (levels ++ further) := by
  rcases run with ⟨events, error | value⟩
  · exact ⟨first.beginning.trans (List.prefix_append ..), fun _ impossible => (nomatch impossible),
      first.within⟩
  · have all : entered ⟨events, .ok value⟩ = levels := first.complete value rfl
    have together : entered (⟨events, .ok value⟩ >>= next) = levels ++ (next value).entered := by
      rw [← all, bind_ok]
      exact List.filterMap_append
    refine ⟨?_, ?_, ?_⟩
    · rw [together]
      exact (List.prefix_append_right_inj levels).mpr (second value).beginning
    · intro made succeeds
      rw [together, (second value).complete made succeeds]
    · intro event member
      rcases List.mem_append.mp member with earlier | later
      · exact first.within event earlier
      · exact (second value).within event later

/-- One step on every element enters the nodes of one element after another. -/
theorem Visits.mapM {function : α → Run β} {shown : α → List (Kind × Nat)} {items : List α}
    (each : ∀ item ∈ items, (function item).Visits fuel (shown item)) :
    (items.mapM function).Visits fuel (items.flatMap shown) := by
  induction items with
  | nil =>
      rw [List.mapM_nil]
      exact .pure []
  | cons item items inductionHypothesis =>
      have others := inductionHypothesis fun other member =>
        each other (List.mem_cons_of_mem _ member)
      rw [List.mapM_cons, List.flatMap_cons, ← List.append_nil (items.flatMap shown)]
      refine (each item List.mem_cons_self).bind fun value => ?_
      exact others.bind fun values => .pure (value :: values)

/-- A step on a value that may be absent enters its nodes, if it is present. -/
theorem Visits.optionMapM {function : α → Run β} {shown : α → List (Kind × Nat)}
    {item : Option α} (each : ∀ present ∈ item, (function present).Visits fuel (shown present)) :
    (item.mapM function).Visits fuel (item.toList.flatMap shown) := by
  cases item with
  | none => exact .pure none
  | some present =>
      rw [Option.mapM_some, map_eq_pure_bind, Option.toList_some, List.flatMap_singleton,
        ← List.append_nil (shown present)]
      exact (each present rfl).bind fun value => .pure (some value)

end Run

namespace Compile

variable (engine : Engine)

/-- Giving a weight is a call. -/
theorem called_of_mem_boostEvents {target : Engine.Target} {weight : Weight} {event : Event}
    (member : event ∈ boostEvents target weight) : ∃ call, event = .called call := by
  unfold boostEvents at member
  split at member
  · exact ⟨_, List.mem_singleton.mp member⟩
  · nomatch member

/-- A call and the giving of a weight are calls. -/
theorem called_of_mem_cons_boostEvents {call : Engine.Call} {target : Engine.Target}
    {weight : Weight} {event : Event}
    (member : event ∈ .called call :: boostEvents target weight) :
    ∃ call, event = .called call := by
  rcases List.mem_cons.mp member with rfl | later
  · exact ⟨call, rfl⟩
  · exact called_of_mem_boostEvents later

section Pieces

variable {fuel : Fuel} {levels : Query → List (Kind × Nat)}

/-- A term enters no further node, whatever is below it: if something is, it fails. -/
theorem term_visits (query : Query) :
    (term engine query).Visits fuel
      (query.children.flatMap levels ++ query.exclusion.toList.flatMap levels) := by
  rw [term_eq]
  split
  · exact .fail _
  · next shape =>
      obtain ⟨noExclusion, noChildren⟩ : query.exclusion = none ∧ query.children = [] := by
        simpa using shape
      rw [noExclusion, noChildren]
      split
      · exact .fail _
      · exact .ofCalls fun event member => called_of_mem_cons_boostEvents member

/-- A combination of compiled children enters no further node, whatever its exclusion is: if it
has one, it fails. -/
theorem combination_visits {α : Type} (query : Query) (count : Nat) (call : Engine.Call)
    (target : Engine.Target) (made : α) :
    (combination query count call target made).Visits fuel
      (query.exclusion.toList.flatMap levels) := by
  unfold combination
  cases query.exclusion with
  | some excluded => exact .fail _
  | none =>
      refine .ofCalls fun event (member : event ∈ combinationEvents ..) => ?_
      unfold combinationEvents at member
      split at member
      · nomatch member
      · exact called_of_mem_cons_boostEvents member

/-- A conjunction of compiled children enters the nodes of its exclusion. -/
theorem conjunction_visits (query : Query) (compiled : List engine.Query)
    {exclusion : Run (Option engine.Query)}
    (onExclusion : exclusion.Visits fuel (query.exclusion.toList.flatMap levels)) :
    (conjunction engine query exclusion compiled).Visits fuel
      (query.exclusion.toList.flatMap levels) := by
  rcases sole : soleChild? query.exclusion compiled with _ | only
  · have making : (Run.emit (.called (.and compiled.length))).Visits fuel [] :=
      .ofCalls fun event member => ⟨_, List.mem_singleton.mp member⟩
    rw [conjunction_eq engine sole, ← List.append_nil (List.flatMap _ _)]
    refine making.bind fun _ => onExclusion.bind fun unwanted => ?_
    refine .ofCalls fun event member => ?_
    rcases List.mem_append.mp member with excluding | boosting
    · unfold exclusionEvents at excluding
      split at excluding
      · exact ⟨_, List.mem_singleton.mp excluding⟩
      · nomatch excluding
    · exact called_of_mem_boostEvents boosting
  · obtain ⟨absent, -⟩ := eq_of_soleChild? sole
    unfold conjunction
    rw [sole, absent]
    exact .pure only

end Pieces

/-- A node enters itself and what is below it, in preorder. -/
theorem node_visits (fuel : Fuel) (depth : Nat) (query : Query) :
    (node engine fuel depth query).Visits fuel (query.levelsFrom depth) := by
  induction query generalizing depth with
  | node query onChildren onExclusion =>
      have children := Run.Visits.mapM fun child member => onChildren child member (depth + 1)
      have exclusion := Run.Visits.optionMapM fun excluded member =>
        onExclusion excluded member (depth + 1)
      rw [node_eq, Query.levelsFrom_eq, ← List.singleton_append]
      split
      · next allowed =>
          refine (Run.Visits.enter allowed).bind fun _ => ?_
          cases query.kind with
          | term => exact term_visits engine query
          | and =>
              exact children.bind fun compiled => conjunction_visits engine query compiled exclusion
          | or =>
              refine children.bind fun compiled => ?_
              rw [disjunction_eq]
              exact combination_visits ..
          | disMax =>
              refine children.bind fun compiled => ?_
              rw [disMax_eq]
              exact combination_visits ..
          | unknown number => exact children.bind fun compiled => .fail _
      · exact .fail _

end Compile

/-- The record that entering a node leaves. -/
def stepRecord (level : Kind × Nat) : LogRecord :=
  (.trace, "compiling " ++ level.1.name ++ " node at depth " ++ toString level.2)

/-- The record that a failure leaves. -/
def failureRecord (error : CompileError) : LogRecord :=
  (.debug, "query compilation failed: " ++ error.message)

/-- The text of an integer is that of its magnitude, after a minus sign if it is negative. -/
theorem toList_toString_int (value : Int) :
    (toString value).toList =
      (if value < 0 then ['-'] else []) ++ Nat.toDigits 10 value.natAbs := by
  rw [Int.toString_eq_repr, Int.repr_eq_if]
  by_cases negative : value < 0
  · rw [if_neg (by omega), if_pos negative, String.toList_append, Nat.toList_repr,
      show (-value).toNat = value.natAbs by omega]
    rfl
  · rw [if_pos (by omega), if_neg negative, Nat.toList_repr,
      show value.toNat = value.natAbs by omega, List.nil_append]

/-- The text of an integer has only digits and a minus sign. -/
theorem isDigit_or_eq_of_mem_toString_int {value : Int} {character : Char}
    (member : character ∈ (toString value).toList) : character.isDigit ∨ character = '-' := by
  rw [toList_toString_int, List.mem_append] at member
  rcases member with sign | digit
  · split at sign
    · exact .inr (List.mem_singleton.mp sign)
    · nomatch sign
  · exact .inl (Nat.isDigit_of_mem_toDigits (by decide) (by decide) digit)

theorem toDigits_ten_injective : Function.Injective (Nat.toDigits 10) := by
  intro number other same
  have values := congrArg (fun digits => Nat.ofDigitChars 10 digits 0) same
  simpa only [Nat.ofDigitChars_ten_toDigits] using values

/-- An integer is determined by its text. -/
theorem toString_int_injective : Function.Injective (toString : Int → String) := by
  intro value other same
  have noSign (number : Nat) {digits : List Char} : Nat.toDigits 10 number ≠ '-' :: digits := by
    intro shape
    have sign : '-' ∈ Nat.toDigits 10 number := shape ▸ List.mem_cons_self
    exact absurd (Nat.isDigit_of_mem_toDigits (by decide) (by decide) sign) (by decide)
  have texts := congrArg String.toList same
  rw [toList_toString_int, toList_toString_int] at texts
  split at texts <;> split at texts
  · have magnitudes := toDigits_ten_injective (List.cons.inj texts).2
    omega
  · exact absurd texts.symm (noSign _)
  · exact absurd texts (noSign _)
  · have magnitudes := toDigits_ten_injective texts
    omega

namespace Kind

/-- There are only digits and a minus sign in the name of a kind exactly if it is unknown. -/
theorem isDigit_or_eq_of_mem_name_iff (kind : Kind) :
    (∀ character ∈ kind.name.toList, character.isDigit ∨ character = '-') ↔
      ∃ number, kind = .unknown number := by
  cases kind with
  | unknown number =>
      exact ⟨fun _ => ⟨number, rfl⟩, fun _ _ member => isDigit_or_eq_of_mem_toString_int member⟩
  | _ => exact ⟨fun digits => absurd (digits _ List.mem_cons_self) (by decide), nofun⟩

/-- A kind is determined by its name. -/
theorem name_injective : Function.Injective name := by
  intro kind other same
  have unknown := kind.isDigit_or_eq_of_mem_name_iff
  rw [same, other.isDigit_or_eq_of_mem_name_iff] at unknown
  by_cases numbered : ∃ number, kind = .unknown number
  · obtain ⟨number, rfl⟩ := numbered
    obtain ⟨otherNumber, rfl⟩ := unknown.mpr ⟨number, rfl⟩
    rw [Int32.toInt_inj.mp (toString_int_injective same)]
  · have otherKnown := mt unknown.mp numbered
    cases kind <;> cases other
    all_goals first
      | rfl
      | exact absurd ⟨_, rfl⟩ numbered
      | exact absurd ⟨_, rfl⟩ otherKnown
      | exact absurd same (by decide)

/-- There is no blank in the name of a kind. -/
theorem blank_not_mem_name (kind : Kind) : ' ' ∉ kind.name.toList := by
  cases kind with
  | unknown number =>
      intro member
      exact absurd (isDigit_or_eq_of_mem_toString_int member) (by decide)
  | _ => decide

end Kind

/-- A record of a step determines the kind and the depth of the node. -/
theorem stepRecord_injective : Function.Injective stepRecord := by
  rintro ⟨kind, depth⟩ ⟨other, otherDepth⟩ same
  have toList (kind : Kind) (depth : Nat) : (stepRecord (kind, depth)).2.toList =
      "compiling ".toList ++ (kind.name.toList ++
        ' ' :: ("node at depth ".toList ++ Nat.toDigits 10 depth)) := by
    simp [stepRecord, String.toList_append, Nat.toString_eq_repr, Nat.toList_repr]
  have texts := congrArg (fun record => record.2.toList) same
  simp only [toList] at texts
  obtain ⟨names, rest⟩ := Text.eq_of_append_cons_eq kind.blank_not_mem_name
    other.blank_not_mem_name (List.append_cancel_left texts)
  rw [Kind.name_injective (String.toList_inj.mp names),
    toDigits_ten_injective (List.append_cancel_left rest)]

namespace Run

variable {α : Type} {fuel : Fuel}

/-- Before a run ends, each node entered leaves a record, and nothing else does. -/
theorem log_eq_of_within {run : Run α} (within : ∀ event ∈ run.events, event.IsWithin fuel) :
    run.log = run.entered.map stepRecord := by
  rw [log, entered, List.map_filterMap]
  refine List.filterMap_congr fun event member => ?_
  cases event with
  | entered kind depth => rfl
  | called call => rfl
  | failed error => exact (within _ member).elim

/-- Before a run ends, all records tell steps. -/
theorem traces_eq_of_within {run : Run α} (within : ∀ event ∈ run.events, event.IsWithin fuel) :
    run.traces = run.entered.map stepRecord := by
  rw [traces, log_eq_of_within within, List.filter_eq_self]
  intro record member
  obtain ⟨level, -, rfl⟩ := List.mem_map.mp member
  rfl

/-- A node that a run enters before it ends is within the fuel. -/
theorem allows_of_mem_entered {run : Run α} (within : ∀ event ∈ run.events, event.IsWithin fuel)
    {level : Kind × Nat} (member : level ∈ run.entered) : fuel.allows level.2 := by
  obtain ⟨event, happened, isLevel⟩ := List.mem_filterMap.mp member
  have allowed := within event happened
  cases event with
  | entered kind depth =>
      obtain rfl := Option.some.inj isLevel
      exact allowed
  | called call => nomatch isLevel
  | failed error => nomatch isLevel

theorem log_reportFailure (run : Run α) :
    run.reportFailure.log = run.log ++ (failure? run.result).toList.map failureRecord := by
  rcases run with ⟨events, error | value⟩
  · exact List.filterMap_append
  · exact (List.append_nil _).symm

end Run

namespace Compile

/-- The nodes entered in a compilation come first among the nodes of the query in preorder, each
with its depth, and none of them is deeper than the fuel allows. Each leaves one record, from
which its kind and its depth can be told. If the compilation succeeds, all nodes have been entered
and there is no other record; if it fails, there is one more, the last, for its error. -/
theorem compile_log_in_preorder (engine : Engine) (fuel : Fuel) (query : Query) :
    let run := compile engine fuel (some query)
    Function.Injective stepRecord ∧
      run.traces = run.entered.map stepRecord ∧
      run.entered <+: query.levelsFrom 1 ∧
      (∀ limit ∈ fuel, ∀ level ∈ run.entered, level.2 ≤ limit.toNat) ∧
      (∀ made, run.result = .ok made →
        run.entered = query.levelsFrom 1 ∧ run.log = run.traces) ∧
      ∀ error, run.result = .error error → run.log = run.traces ++ [failureRecord error] := by
  have visited := node_visits engine fuel 1 query
  have traced := Run.traces_eq_of_within visited.within
  have entered : (tree engine Nat fuel query).entered = (node engine fuel 1 query).entered :=
    Run.observed_reportFailure (fun _ => rfl) _
  have traces : (tree engine Nat fuel query).traces = (node engine fuel 1 query).traces := by
    rw [Run.traces_eq, Run.traces_eq]
    exact Run.observed_reportFailure (fun _ => rfl) _
  have logged : (tree engine Nat fuel query).log = (node engine fuel 1 query).traces ++
      (failure? (node engine fuel 1 query).result).toList.map failureRecord := by
    rw [traced, ← Run.log_eq_of_within visited.within]
    exact Run.log_reportFailure _
  have result : (tree engine Nat fuel query).result = (node engine fuel 1 query).result :=
    reportFailure_result _
  simp only [compile, entered, traces, logged, result]
  refine ⟨stepRecord_injective, traced, visited.beginning, ?_, ?_, ?_⟩
  · intro limit isLimit level member
    have allowed := Run.allows_of_mem_entered visited.within member
    exact (allows_iff fuel level.2).mp allowed limit isLimit
  · intro made succeeds
    refine ⟨visited.complete made succeeds, ?_⟩
    rw [failure?_eq_none_iff.mpr ⟨made, succeeds⟩]
    exact List.append_nil _
  · intro error fails
    rw [failure?_eq_some_iff.mpr fails]
    rfl

/-- A disjunction with an exclusion ends the compilation after its child and before its exclusion;
a conjunction with one is entered with all that is below it, down to the last depth allowed. -/
theorem compile_log_in_preorder_of_exclusions :
    let lower := [Query.or [Query.term "a" "x", Query.term "b" "y"]]
    let legal := { Query.and lower with exclusion := some (Query.term "c" "z") }
    let illegal := { Query.or lower with exclusion := some (Query.term "c" "z") }
    let levels := [(Kind.or, 2), (.term, 3), (.term, 3), (.term, 2)]
    let plan : Plan := .and [.or [.term "a" "x" none, .term "b" "y" none] none]
      (some (.term "c" "z" none)) none
    let error := CompileError.misplacedExclusion .or illegal.text
    let good := compile Plan.engine (some 3) (some legal)
    let bad := compile Plan.engine (some 3) (some illegal)
    (good.result = .ok plan ∧ good.entered = (.and, 1) :: levels ∧
        good.entered = legal.levelsFrom 1 ∧ good.log = good.traces ∧
        (Kind.term, 3) ∈ good.entered ∧ 3 ≤ UInt32.toNat 3) ∧
      (bad.result = .error error ∧ bad.entered = [(.or, 1), (.or, 2), (.term, 3), (.term, 3)] ∧
        illegal.levelsFrom 1 = (.or, 1) :: levels ∧ bad.entered <+: illegal.levelsFrom 1 ∧
        bad.log = bad.traces ++ [failureRecord error]) := by
  intro lower legal illegal levels plan error good bad
  obtain ⟨-, -, -, within, complete, -⟩ := compile_log_in_preorder Plan.engine (some 3) legal
  obtain ⟨-, -, beginning, -, -, failed⟩ := compile_log_in_preorder Plan.engine (some 3) illegal
  have deepest : (Kind.term, 3) ∈ good.entered := List.mem_of_elem_eq_true rfl
  exact ⟨⟨rfl, rfl, (complete plan rfl).1, (complete plan rfl).2, deepest,
    within 3 rfl _ deepest⟩, rfl, rfl, rfl, beginning, failed error rfl⟩

end Compile

end BooleanQuery
