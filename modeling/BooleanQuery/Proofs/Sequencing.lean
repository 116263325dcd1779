import Mathlib.Data.List.Forall2

/-!
# Sequences that may fail

When a sequence of steps in `Except` succeeds, and with which error it fails otherwise: for
two steps, for one step on every element of a list, and for one step on a value that may be
absent.
-/

namespace BooleanQuery

@[simp] theorem ok_bind {ε α β : Type} (value : α) (next : α → Except ε β) :
    Except.ok value >>= next = next value := rfl

@[simp] theorem error_bind {ε α β : Type} (error : ε) (next : α → Except ε β) :
    Except.error error >>= next = .error error := rfl

@[simp] theorem pure_eq_ok_iff {ε α : Type} {value made : α} :
    (pure value : Except ε α) = .ok made ↔ value = made := by
  simp [pure, Except.pure]

/-- A step after another succeeds exactly when both do. -/
@[simp] theorem bind_eq_ok_iff {ε α β : Type} {step : Except ε α} {next : α → Except ε β}
    {made : β} : step >>= next = .ok made ↔ ∃ value, step = .ok value ∧ next value = .ok made := by
  rcases step with error | value <;> simp

/-- Converting what a step yields does not change whether it succeeds. -/
@[simp] theorem map_eq_ok_iff {ε α β : Type} {step : Except ε α} {convert : α → β} {made : β} :
    step.map convert = .ok made ↔ ∃ value, step = .ok value ∧ convert value = made := by
  rcases step with error | value <;> simp [Except.map]

@[simp] theorem fmap_eq_ok_iff {ε α β : Type} {step : Except ε α} {convert : α → β} {made : β} :
    convert <$> step = .ok made ↔ ∃ value, step = .ok value ∧ convert value = made :=
  map_eq_ok_iff

@[simp] theorem fmap_eq_error_iff {ε α β : Type} {step : Except ε α} {convert : α → β}
    {error : ε} : convert <$> step = .error error ↔ step = .error error := by
  rcases step with failed | value <;> simp [Functor.map, Except.map]

/-- If a step yields what another does, as far as something holds, so it does after a
conversion. -/
theorem map_eq_ok_congr {ε α β : Type} {step other : Except ε α} {holds : Prop}
    (same : ∀ value, step = .ok value ↔ holds ∧ other = .ok value) (convert : α → β) (made : β) :
    step.map convert = .ok made ↔ holds ∧ other.map convert = .ok made := by
  simp [same, and_assoc]

@[simp] theorem mapError_eq_ok_iff {ε δ α : Type} {step : Except ε α} {convert : ε → δ} {made : α} :
    step.mapError convert = .ok made ↔ step = .ok made := by
  rcases step with error | value <;> simp [Except.mapError]

@[simp] theorem mem_toOption_iff {ε α : Type} {step : Except ε α} {made : α} :
    made ∈ step.toOption ↔ step = .ok made := by
  rcases step with error | value <;> simp [Except.toOption]

/-- A mapping in `Except` succeeds exactly when it does so on every element. -/
@[simp] theorem mapM_eq_ok_iff {ε α β : Type} {function : α → Except ε β} {items : List α}
    {made : List β} :
    items.mapM function = .ok made ↔
      List.Forall₂ (fun item result => function item = .ok result) items made := by
  induction items generalizing made with
  | nil => cases made <;> simp
  | cons item items inductionHypothesis =>
      cases made <;> simp [inductionHypothesis]

/-- A mapping of an optional value in `Except` succeeds exactly when the value has a result
or is absent. -/
@[simp] theorem optionMapM_eq_ok_iff {ε α β : Type} {function : α → Except ε β} {item : Option α}
    {made : Option β} :
    item.mapM function = .ok made ↔
      Option.Rel (fun item result => function item = .ok result) item made := by
  cases item <;> cases made <;> simp

/-- If one step is another and a conversion on every element of a list, so it is on the list. -/
theorem mapM_eq_map_mapM {m : Type → Type} [Monad m] [LawfulMonad m] {α β γ : Type}
    {function : α → m γ} {other : α → m β} {convert : β → γ} {items : List α}
    (each : ∀ item ∈ items, function item = convert <$> other item) :
    items.mapM function = List.map convert <$> items.mapM other := by
  induction items with
  | nil => simp
  | cons item items inductionHypothesis =>
      have others := inductionHypothesis fun later member =>
        each later (List.mem_cons_of_mem _ member)
      simp only [List.mapM_cons, each item List.mem_cons_self, others, map_bind, bind_map_left,
        map_pure, List.map_cons]

/-- If one step is another and a conversion on a value that may be absent, so it is where the
value is mapped. -/
theorem optionMapM_eq_map_optionMapM {m : Type → Type} [Monad m] [LawfulMonad m] {α β γ : Type}
    {function : α → m γ} {other : α → m β} {convert : β → γ} {item : Option α}
    (each : ∀ present ∈ item, function present = convert <$> other present) :
    item.mapM function = Option.map convert <$> item.mapM other := by
  rcases item with _ | present
  · simp
  · simp [each present rfl]

/-- Steps that are the same on every element of a list are the same on the list. -/
theorem mapM_congr {m : Type → Type} [Monad m] [LawfulMonad m] {α β : Type}
    {function other : α → m β} {items : List α}
    (each : ∀ item ∈ items, function item = other item) :
    items.mapM function = items.mapM other := by
  have mapped : items.mapM function = List.map id <$> items.mapM other :=
    mapM_eq_map_mapM fun item member => (each item member).trans (id_map _).symm
  rw [mapped, List.map_id_fun, id_map]

/-- Steps that are the same on a value that may be absent are the same where it is mapped. -/
theorem optionMapM_congr {m : Type → Type} [Monad m] [LawfulMonad m] {α β : Type}
    {function other : α → m β} {item : Option α}
    (each : ∀ present ∈ item, function present = other present) :
    item.mapM function = item.mapM other := by
  rcases item with _ | present
  · rfl
  · rw [Option.mapM_some, Option.mapM_some, each present rfl]

/-- Values that may be absent are paired as lists of at most one value are. -/
theorem forall₂_toList {α β : Type} {relation : α → β → Prop} {item : Option α}
    {made : Option β} (paired : Option.Rel relation item made) :
    List.Forall₂ relation item.toList made.toList := by
  cases paired with
  | none => exact .nil
  | some related => exact .cons related .nil

/-- Paired values are both present or both absent. -/
theorem isSome_eq_of_rel {α β : Type} {relation : α → β → Prop} {item : Option α}
    {made : Option β} (paired : Option.Rel relation item made) : item.isSome = made.isSome := by
  cases paired <;> rfl

/-- Every result is paired with one of the items. -/
theorem exists_mem_of_forall₂ {α β : Type} {relation : α → β → Prop} {items : List α}
    {made : List β} (paired : List.Forall₂ relation items made) {result : β}
    (member : result ∈ made) : ∃ item ∈ items, relation item result := by
  induction paired with
  | nil => nomatch member
  | cons related _ inductionHypothesis =>
      rcases List.mem_cons.mp member with rfl | later
      · exact ⟨_, List.mem_cons_self, related⟩
      · obtain ⟨item, among, related⟩ := inductionHypothesis later
        exact ⟨item, List.mem_cons_of_mem _ among, related⟩

/-- If every item can be paired with a result, the items can be. -/
theorem exists_forall₂ {α β : Type} {relation : α → β → Prop} {items : List α}
    (each : ∀ item ∈ items, ∃ result, relation item result) :
    ∃ made, List.Forall₂ relation items made := by
  induction items with
  | nil => exact ⟨[], .nil⟩
  | cons item items inductionHypothesis =>
      obtain ⟨result, related⟩ := each item List.mem_cons_self
      obtain ⟨made, others⟩ := inductionHypothesis fun other member =>
        each other (List.mem_cons_of_mem _ member)
      exact ⟨result :: made, .cons related others⟩

/-- Lists that are the same for paired elements are the same for the paired lists. -/
theorem flatMap_eq_of_forall₂ {α β γ : Type} {relation : α → β → Prop} {left : α → List γ}
    {right : β → List γ} {items : List α} {made : List β}
    (paired : List.Forall₂ relation items made)
    (each : ∀ item ∈ items, ∀ result, relation item result → right result = left item) :
    made.flatMap right = items.flatMap left := by
  induction paired with
  | nil => rfl
  | cons related _ inductionHypothesis =>
      rw [List.flatMap_cons, List.flatMap_cons, each _ List.mem_cons_self _ related,
        inductionHypothesis fun item member => each item (List.mem_cons_of_mem _ member)]

/-- Functions that agree on paired elements agree on the paired lists. -/
theorem map_eq_of_forall₂ {α β γ : Type} {relation : α → β → Prop} {left : α → γ}
    {right : β → γ} {items : List α} {made : List β} (paired : List.Forall₂ relation items made)
    (each : ∀ item ∈ items, ∀ result, relation item result → right result = left item) :
    made.map right = items.map left := by
  rw [List.map_eq_flatMap, List.map_eq_flatMap]
  refine flatMap_eq_of_forall₂ paired fun item member result related => ?_
  rw [each item member result related]

/-- Functions that agree on paired values agree on values that may be absent. -/
theorem optionMap_eq_of_rel {α β γ : Type} {relation : α → β → Prop} {left : α → γ}
    {right : β → γ} {item : Option α} {made : Option β} (paired : Option.Rel relation item made)
    (each : ∀ present ∈ item, ∀ result, relation present result → right result = left present) :
    made.map right = item.map left := by
  cases paired with
  | none => rfl
  | some related => exact congrArg some (each _ rfl _ related)

theorem optionRel_self {α : Type} {relation : α → α → Prop} {item : Option α}
    (each : ∀ present ∈ item, relation present present) : Option.Rel relation item item := by
  cases item with
  | none => exact .none
  | some present => exact .some (each present rfl)

/-- Paired values that may be absent are paired in another way, if they are where they are there. -/
theorem optionRel_imp {α β : Type} {relation further : α → β → Prop} {item : Option α}
    {made : Option β} (paired : Option.Rel relation item made)
    (each : ∀ present ∈ item, ∀ result, relation present result → further present result) :
    Option.Rel further item made := by
  cases paired with
  | none => exact .none
  | some related => exact .some (each _ rfl _ related)

/-- Whether two steps both succeed, with related results, or both fail with the same error. -/
inductive Alike {ε α β : Type} (relation : α → β → Prop) : Except ε α → Except ε β → Prop where
  | ok {value : α} {other : β} (related : relation value other) :
      Alike relation (.ok value) (.ok other)
  | error (error : ε) : Alike relation (.error error) (.error error)

section Alike

variable {ε α β γ δ : Type} {relation : α → β → Prop} {further : γ → δ → Prop}

/-- Steps after steps that are alike are alike if they are on related results. -/
theorem Alike.bind {step : Except ε α} {other : Except ε β} {next : α → Except ε γ}
    {otherNext : β → Except ε δ} (first : Alike relation step other)
    (second : ∀ value otherValue, relation value otherValue →
      Alike further (next value) (otherNext otherValue)) :
    Alike further (step >>= next) (other >>= otherNext) := by
  cases first with
  | ok related => exact second _ _ related
  | error error => exact .error error

/-- Steps on paired elements that are alike are alike on the lists. -/
theorem Alike.mapM {pairs : α → β → Prop} {function : α → Except ε γ} {other : β → Except ε δ}
    {items : List α} {others : List β} (paired : List.Forall₂ pairs items others)
    (each : ∀ item ∈ items, ∀ counterpart, pairs item counterpart →
      Alike further (function item) (other counterpart)) :
    Alike (List.Forall₂ further) (items.mapM function) (others.mapM other) := by
  induction paired with
  | nil => exact .ok .nil
  | cons first _ inductionHypothesis =>
      rw [List.mapM_cons, List.mapM_cons]
      refine (each _ List.mem_cons_self _ first).bind fun value otherValue related => ?_
      refine (inductionHypothesis fun item member =>
        each item (List.mem_cons_of_mem _ member)).bind fun values otherValues others => ?_
      exact .ok (.cons related others)

/-- Steps on paired values that may be absent are alike if they are where the values are there. -/
theorem Alike.optionMapM {pairs : α → β → Prop} {function : α → Except ε γ}
    {other : β → Except ε δ} {item : Option α} {counterpart : Option β}
    (paired : Option.Rel pairs item counterpart)
    (each : ∀ present ∈ item, ∀ partner, pairs present partner →
      Alike further (function present) (other partner)) :
    Alike (Option.Rel further) (item.mapM function) (counterpart.mapM other) := by
  cases paired with
  | none => exact .ok .none
  | some related =>
      rw [Option.mapM_some, Option.mapM_some, map_eq_pure_bind, map_eq_pure_bind]
      exact (each _ rfl _ related).bind fun value otherValue others => .ok (.some others)

end Alike

/-- The error of a step, if it fails. -/
def failure? {ε α : Type} : Except ε α → Option ε
  | .error error => some error
  | .ok _ => none

@[simp] theorem failure?_eq_some_iff {ε α : Type} {step : Except ε α} {error : ε} :
    failure? step = some error ↔ step = .error error := by
  cases step <;> simp [failure?]

@[simp] theorem failure?_eq_none_iff {ε α : Type} {step : Except ε α} :
    failure? step = none ↔ ∃ value, step = .ok value := by
  cases step <;> simp [failure?]

/-- The error of two steps is that of the first, or else that of the second, which must not
depend on what the first yields. -/
theorem failure?_bind {ε α β : Type} {step : Except ε α} {next : α → Except ε β}
    {later : Option ε} (uniform : ∀ value, failure? (next value) = later) :
    failure? (step >>= next) = (failure? step).or later := by
  rcases step with error | value
  · rfl
  · exact uniform value

@[simp] theorem failure?_map {ε α β : Type} (step : Except ε α) (convert : α → β) :
    failure? (convert <$> step) = failure? step := by
  rcases step with error | value <;> rfl

/-- If the error of a step on each element comes first in a list of errors, the error of the
steps on all elements comes first in these lists one after another. -/
theorem failure?_mapM {ε α β : Type} {function : α → Except ε β} {errors : α → List ε}
    {items : List α}
    (each : ∀ item ∈ items, failure? (function item) = (errors item).head?) :
    failure? (items.mapM function) = (items.flatMap errors).head? := by
  induction items with
  | nil => rfl
  | cons item items inductionHypothesis =>
      have others := inductionHypothesis fun other member =>
        each other (List.mem_cons_of_mem _ member)
      rw [List.mapM_cons, List.flatMap_cons, List.head?_append,
        ← each item List.mem_cons_self, ← others]
      refine failure?_bind fun first => ?_
      rw [bind_pure_comp, failure?_map]

/-- The error of a step on a value that may be absent. -/
theorem failure?_optionMapM {ε α β : Type} {function : α → Except ε β} {errors : α → List ε}
    {item : Option α}
    (each : ∀ present ∈ item, failure? (function present) = (errors present).head?) :
    failure? (item.mapM function) = (item.toList.flatMap errors).head? := by
  rcases item with _ | present
  · rfl
  · rw [Option.mapM_some, failure?_map, each present rfl]
    simp

end BooleanQuery
