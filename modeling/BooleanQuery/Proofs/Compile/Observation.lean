import BooleanQuery.Compile.Run

/-!
# Observed runs

An observer sees some of the events of a run. A run is described by what the observer has seen
before it and after it: `Run.Observes` says what has been seen in the end if the run succeeds,
and that what has been seen is sound wherever the run stops. The rules below put such
descriptions together along the run, so that a failure in the middle needs no case of its own.
-/

namespace BooleanQuery.Run

variable {α β ω : Type} (observe : Event → Option ω) (sound : List ω → Prop)

/-- A description of a run that starts when `before` has been seen. -/
structure Observes (before : List ω) (run : Run α) (after : α → List ω) : Prop where
  reached : ∀ value, run.result = .ok value →
    before ++ run.events.filterMap observe = after value
  isSound : sound (before ++ run.events.filterMap observe)

variable {observe sound} {before : List ω}

/-- A run that fails at once shows nothing. -/
theorem Observes.fail (soundBefore : sound before) (error : CompileError)
    (after : α → List ω) : (Run.fail error : Run α).Observes observe sound before after where
  reached _ impossible := nomatch impossible
  isSound := by
    rw [Run.fail, List.filterMap_nil, List.append_nil]
    exact soundBefore

/-- A run of known events that succeeds shows those of them that are observed. -/
theorem Observes.ok {events : List Event} {value : α} {after : α → List ω}
    (reached : before ++ events.filterMap observe = after value)
    (soundAfter : sound (after value)) :
    (⟨events, .ok value⟩ : Run α).Observes observe sound before after where
  reached other same := by
    obtain rfl : value = other := Except.ok.inj same
    exact reached
  isSound := reached ▸ soundAfter

theorem Observes.pure {value : α} {after : α → List ω} (unchanged : before = after value)
    (soundBefore : sound before) :
    (Pure.pure value : Run α).Observes observe sound before after :=
  .ok ((List.append_nil before).trans unchanged) (unchanged ▸ soundBefore)

/-- In a sequence the second part starts where the first one has ended. -/
theorem Observes.bind {run : Run α} {next : α → Run β} {middle : α → List ω}
    {after : β → List ω} (first : run.Observes observe sound before middle)
    (second : ∀ value, sound (middle value) →
      (next value).Observes observe sound (middle value) after) :
    (run >>= next).Observes observe sound before after := by
  rcases run with ⟨events, error | value⟩
  · exact ⟨fun _ impossible => (nomatch impossible), first.isSound⟩
  · have seen := first.reached value rfl
    have rest := second value (seen ▸ first.isSound)
    have whole : before ++ (events ++ (next value).events).filterMap observe =
        middle value ++ (next value).events.filterMap observe := by
      rw [List.filterMap_append, ← List.append_assoc, seen]
    rw [bind_ok]
    exact ⟨fun made succeeds => whole.trans (rest.reached made succeeds),
      whole ▸ rest.isSound⟩

/-- A run of one step on every element shows what the steps show, one after another. -/
theorem Observes.mapM {function : α → Run β} {shown : β → List ω} {items : List α}
    (each : ∀ item ∈ items, ∀ before, sound before →
      (function item).Observes observe sound before fun value => before ++ shown value)
    (soundBefore : sound before) :
    (items.mapM function).Observes observe sound before
      fun values => before ++ values.flatMap shown := by
  induction items generalizing before with
  | nil =>
      rw [List.mapM_nil]
      exact .pure (List.append_nil before).symm soundBefore
  | cons item items inductionHypothesis =>
      rw [List.mapM_cons]
      refine (each item List.mem_cons_self before soundBefore).bind fun value soundValue => ?_
      refine (inductionHypothesis (fun other member => each other (List.mem_cons_of_mem _ member))
        soundValue).bind fun values soundValues => ?_
      have together : before ++ shown value ++ values.flatMap shown =
          before ++ (value :: values).flatMap shown := by
        rw [List.flatMap_cons, List.append_assoc]
      exact .pure together soundValues

/-- A run of a step on a value that may be absent shows what the step shows. -/
theorem Observes.optionMapM {function : α → Run β} {shown : β → List ω} {item : Option α}
    (each : ∀ present ∈ item, ∀ before, sound before →
      (function present).Observes observe sound before fun value => before ++ shown value)
    (soundBefore : sound before) :
    (item.mapM function).Observes observe sound before
      fun value => before ++ value.toList.flatMap shown := by
  rcases item with _ | present
  · exact .pure (List.append_nil before).symm soundBefore
  · rw [Option.mapM_some, map_eq_pure_bind]
    refine (each present rfl before soundBefore).bind fun value soundValue => ?_
    refine .pure ?_ soundValue
    rw [Option.toList_some, List.flatMap_singleton]

/-- Who does not see failures does not see that one is reported. -/
theorem observed_reportFailure (unseen : ∀ error, observe (.failed error) = none)
    (run : Run α) :
    run.reportFailure.events.filterMap observe = run.events.filterMap observe := by
  rcases run with ⟨events, error | value⟩
  · have nothing : [Event.failed error].filterMap observe = [] :=
      List.filterMap_cons_none (unseen error)
    rw [reportFailure, List.filterMap_append, nothing, List.append_nil]
  · rfl

end BooleanQuery.Run
