import BooleanQuery.Json.Pointer
import BooleanQuery.Proofs.Json.Canonical
import BooleanQuery.Proofs.Json.Takes

/-!
# Nesting

A value that is read opens at most as many brackets inside each other as the reader may open.
Sorting its members and going to one of the values inside do not change that.
-/

namespace BooleanQuery.Json

open Text (Bytes)

variable {α Mismatch : Type}

/-- Every item of a sequence has been taken somewhere. -/
theorem ItemsFrom.exists_taken {close : UInt8} {takes : List α → Bytes → α → Bytes → Prop}
    {before items : List α} {text rest : Bytes}
    (taken : ItemsFrom close takes before text items rest) {item : α} (among : item ∈ items) :
    ∃ earlier start middle, takes earlier start item middle := by
  induction taken with
  | last taken closes =>
      obtain rfl := List.mem_singleton.mp among
      exact ⟨_, _, _, taken⟩
  | another taken separates others inductionHypothesis =>
      rcases List.mem_cons.mp among with rfl | later
      · exact ⟨_, _, _, taken⟩
      · exact inductionHypothesis later

/-- Every item of a bracketed sequence has been taken somewhere. -/
theorem Items.exists_taken {close : UInt8} {takes : List α → Bytes → α → Bytes → Prop}
    {items : List α} {text rest : Bytes} (taken : Items close takes text items rest) {item : α}
    (among : item ∈ items) : ∃ earlier start middle, takes earlier start item middle := by
  rcases taken with ⟨-, rfl⟩ | ⟨start, -, taken⟩
  · nomatch among
  · exact taken.exists_taken among

namespace Value

/-- A value opens at most so many brackets inside each other. -/
inductive Within : Nat → Value → Prop where
  | scalar (nesting value) : Within nesting (.scalar value)
  | array {nesting elements} (each : ∀ element ∈ elements, Within nesting element) :
      Within (nesting + 1) (.array elements)
  | object {nesting members} (each : ∀ named ∈ members, Within nesting named.2) :
      Within (nesting + 1) (.object members)

/-- One bracket more may be opened, but need not be. -/
theorem Within.succ {nesting : Nat} {value : Value} (within : Within nesting value) :
    Within (nesting + 1) value := by
  induction within with
  | scalar nesting value => exact .scalar _ value
  | array _ inductionHypothesis => exact .array inductionHypothesis
  | object _ inductionHypothesis => exact .object inductionHypothesis

/-- A reader takes values that open no more brackets inside each other than it may. -/
theorem within_of_takes {nesting : Nat} {text rest : Bytes} {value : Value}
    (taken : (reader nesting : Reader Mismatch Value).Takes text value rest) :
    Within nesting value := by
  induction nesting generalizing text value rest with
  | zero =>
      rcases takes_bracketed.mp taken with ⟨_, -, refused⟩ | ⟨_, -, refused⟩ |
        ⟨_, _, -, -, -, other⟩
      · exact absurd refused not_takes_refuse
      · exact absurd refused not_takes_refuse
      · obtain ⟨scalar, -, rfl⟩ := takes_map.mp other
        exact .scalar 0 scalar
  | succ nesting inductionHypothesis =>
      rcases takes_bracketed.mp taken with ⟨_, -, list⟩ | ⟨_, -, object⟩ | ⟨_, _, -, -, -, other⟩
      · obtain ⟨found, items, rfl⟩ := takes_map.mp list
        refine .array fun element among => ?_
        obtain ⟨_, _, _, element⟩ := (takes_elements.mp items).exists_taken among
        exact inductionHypothesis (takes_delay.mp element)
      · obtain ⟨found, items, rfl⟩ := takes_map.mp object
        refine .object fun named among => ?_
        obtain ⟨_, _, _, member⟩ := (takes_members.mp items).exists_taken among
        obtain ⟨key, _, -, afterKey⟩ := takes_andThen.mp member
        obtain ⟨_, _, -, afterColon⟩ := takes_andThen.mp afterKey
        obtain ⟨inner, read, rfl⟩ := takes_map.mp afterColon
        exact inductionHypothesis read
      · obtain ⟨scalar, -, rfl⟩ := takes_map.mp other
        exact .scalar _ scalar

/-- The value that is written in a text is within the greatest nesting. -/
theorem within_of_written {text : Bytes} {value : Value} (isWritten : written text = .ok value) :
    Within greatestNesting value := by
  obtain ⟨rest, taken, -⟩ := document_eq_ok_iff.mp isWritten
  exact within_of_takes taken

/-- The canonical form of a value opens no more brackets. -/
theorem Within.canonical {nesting : Nat} {value : Value} (within : Within nesting value) :
    Within nesting value.canonical := by
  induction within with
  | scalar nesting value => exact .scalar nesting value
  | array _ inductionHypothesis =>
      rw [Value.canonical, canonicalElements_eq_map]
      refine .array fun element among => ?_
      obtain ⟨written, present, rfl⟩ := List.mem_map.mp among
      exact inductionHypothesis written present
  | object _ inductionHypothesis =>
      rw [Value.canonical, canonicalMembers_eq_map]
      refine .object fun named among => ?_
      obtain ⟨written, present, rfl⟩ := List.mem_map.mp (mem_of_mem_settle among)
      exact inductionHypothesis written present

/-- The value of a text is within the greatest nesting. -/
theorem within_of_ofText {text : Bytes} {value : Value} (isValue : ofText text = .ok value) :
    Within greatestNesting value := by
  unfold ofText at isValue
  split at isValue
  · next written isWritten =>
      obtain rfl := Except.ok.inj isValue
      exact (within_of_written isWritten).canonical
  · cases isValue

/-- A value one step inside opens no more brackets. -/
theorem Within.step {nesting : Nat} {value inner : Value} {step : List Char}
    (within : Within nesting value) (found : value.step? step = some inner) :
    Within nesting inner := by
  cases within with
  | scalar => cases found
  | array each =>
      rw [step?] at found
      split at found
      · exact (each inner (List.mem_of_getElem? found)).succ
      · cases found
  | object each =>
      obtain ⟨before, after, rfl, -⟩ := List.lookup_eq_some_iff.mp found
      exact (each _ (List.mem_append_right before List.mem_cons_self)).succ

/-- A value some steps inside opens no more brackets. -/
theorem Within.descend {nesting : Nat} {value inner : Value} {steps : List (List Char)}
    (within : Within nesting value) (found : value.descend? steps = some inner) :
    Within nesting inner := by
  induction steps generalizing value with
  | nil =>
      obtain rfl := Option.some.inj found
      exact within
  | cons step steps inductionHypothesis =>
      rw [descend?] at found
      split at found
      · next next reached => exact inductionHypothesis (within.step reached) found
      · cases found

/-- The value that a pointer leads to opens no more brackets. -/
theorem Within.pointed {nesting : Nat} {value inner : Value} {pointer : String}
    (within : Within nesting value) (found : value.at? pointer = some inner) :
    Within nesting inner := by
  rw [at?] at found
  split at found
  · exact within.descend found
  · cases found

end Value

end BooleanQuery.Json
