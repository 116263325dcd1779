import BooleanQuery.Text.Utf8
import BooleanQuery.Json.Fault

/-!
# Readers

A reader takes a value off the beginning of a text and returns the unread rest, which is
always shorter. A failure says what stood in the way and how many bytes were unread when
it was noticed.

Besides faults of the text there are mismatches: the text is JSON, but not what its
reader asks for. Readers are polymorphic in the type of mismatches, so those that ask for
nothing special serve every other reader.

The module holds the plumbing, and the punctuation of lists and objects around readers
for their items.
-/

namespace BooleanQuery.Json

open Text (Bytes)

/-- What stands in the way of a value. -/
inductive Obstacle (Mismatch : Type) where
  | malformed (fault : Fault)
  | mismatch (reason : Mismatch)
deriving DecidableEq, Repr

/-- An obstacle, and the number of unread bytes when it was noticed. -/
structure Failure (Mismatch : Type) where
  obstacle : Obstacle Mismatch
  unread : Nat
deriving DecidableEq, Repr

/-- What reading a value yields: the value and the unread rest, or a failure. -/
abbrev Outcome (Mismatch α : Type) := Except (Failure Mismatch) (α × Bytes)

/-- A reader of values: a function from a text to an outcome, which leaves less than it
was given. -/
structure Reader (Mismatch α : Type) where
  run : Bytes → Outcome Mismatch α
  shrinks : ∀ {text value rest}, run text = .ok (value, rest) → rest.length < text.length

variable {Mismatch α β : Type}

namespace Failure

/-- A fault noticed before the given rest. -/
def before (fault : Fault) (rest : Bytes) : Failure Mismatch :=
  ⟨.malformed fault, rest.length⟩

/-- A fault of the next byte, which counts as read; at the end there is none to count. -/
def next (fault : Fault) (rest : Bytes) : Failure Mismatch :=
  ⟨.malformed fault, rest.length - 1⟩

/-- A mismatch noticed before the given rest. -/
def mismatched (reason : Mismatch) (rest : Bytes) : Failure Mismatch :=
  ⟨.mismatch reason, rest.length⟩

end Failure

/-- The bytes that may stand between tokens. -/
def isBlank (byte : UInt8) : Bool :=
  byte = ' '.toUInt8 || byte = '\n'.toUInt8 || byte = '\t'.toUInt8 || byte = '\r'.toUInt8

/-- A text without the blanks at its beginning. -/
def skipBlanks (text : Bytes) : Bytes := text.dropWhile isBlank

theorem skipBlanks_length_le (text : Bytes) : (skipBlanks text).length ≤ text.length :=
  (List.dropWhile_sublist _).length_le

theorem length_lt_of_skipBlanks {text rest : Bytes} {head : UInt8}
    (shape : skipBlanks text = head :: rest) : rest.length < text.length := by
  have bound := skipBlanks_length_le text
  rw [shape, List.length_cons] at bound
  omega

namespace Reader

/-- A reader built only when it is used, so that readers may contain themselves at a
smaller depth. -/
def delay (reader : Unit → Reader Mismatch α) : Reader Mismatch α where
  run text := (reader ()).run text
  shrinks := (reader ()).shrinks

/-- Apply a function to what is read. -/
def map (reader : Reader Mismatch α) (convert : α → β) : Reader Mismatch β where
  run text :=
    match reader.run text with
    | .ok (value, rest) => .ok (convert value, rest)
    | .error failure => .error failure
  shrinks {text _ rest} outcome := by
    split at outcome
    · next value middle read =>
        simp only [Except.ok.injEq, Prod.mk.injEq] at outcome
        exact outcome.2 ▸ reader.shrinks read
    · cases outcome

/-- Read one value after another. -/
def andThen (first : Reader Mismatch α) (second : α → Reader Mismatch β) :
    Reader Mismatch β where
  run text :=
    match first.run text with
    | .ok (value, rest) => (second value).run rest
    | .error failure => .error failure
  shrinks {text _ rest} outcome := by
    split at outcome
    · next value middle read =>
        exact Nat.lt_trans ((second value).shrinks outcome) (first.shrinks read)
    · cases outcome

/-- Check what was read; a mismatch is noticed after the value. -/
def refine (reader : Reader Mismatch α) (check : α → Except Mismatch β) :
    Reader Mismatch β where
  run text :=
    match reader.run text with
    | .ok (value, rest) =>
        match check value with
        | .ok checked => .ok (checked, rest)
        | .error reason => .error (.mismatched reason rest)
    | .error failure => .error failure
  shrinks {text _ rest} outcome := by
    split at outcome
    · next value middle read =>
        split at outcome
        · simp only [Except.ok.injEq, Prod.mk.injEq] at outcome
          exact outcome.2 ▸ reader.shrinks read
        · cases outcome
    · cases outcome

/-- Check what was read; a fault is noticed after the value. -/
def validate (reader : Reader Mismatch α) (check : α → Except Fault β) :
    Reader Mismatch β where
  run text :=
    match reader.run text with
    | .ok (value, rest) =>
        match check value with
        | .ok checked => .ok (checked, rest)
        | .error fault => .error (.before fault rest)
    | .error failure => .error failure
  shrinks {text _ rest} outcome := by
    split at outcome
    · next value middle read =>
        split at outcome
        · simp only [Except.ok.injEq, Prod.mk.injEq] at outcome
          exact outcome.2 ▸ reader.shrinks read
        · cases outcome
    · cases outcome

end Reader

/-- Read the colon between a key and its value. -/
def colon : Reader Mismatch Unit where
  run text :=
    match skipBlanks text with
    | [] => .error (.next .endInObject [])
    | head :: rest =>
        if head = ':'.toUInt8 then .ok ((), rest)
        else .error (.next .expectedColon (head :: rest))
  shrinks {text _ rest} outcome := by
    split at outcome
    · cases outcome
    · next head middle shape =>
        split at outcome
        · simp only [Except.ok.injEq, Prod.mk.injEq] at outcome
          exact outcome.2 ▸ length_lt_of_skipBlanks shape
        · cases outcome

/-- The text after a comma in a list or object that ends with `close`: at least one item
has to follow. -/
def afterComma (close : UInt8) (text : Bytes) : Except (Failure Mismatch) Bytes :=
  match skipBlanks text with
  | [] => .error (.next .endInValue [])
  | head :: rest =>
      if head = close then .error (.next .trailingComma (head :: rest))
      else .ok (head :: rest)

/-- What follows an item of a list or object that ends with `close`: the end, and the text after
it, or another item at the beginning of a text. -/
inductive Continuation where
  | closed (rest : Bytes)
  | another (text : Bytes)

/-- Read the punctuation after an item: the closing bracket, or a comma that another item
follows. -/
def continuation (close : UInt8) (missing unseparated : Fault) (text : Bytes) :
    Except (Failure Mismatch) Continuation :=
  match skipBlanks text with
  | [] => .error (.next missing [])
  | head :: rest =>
      if head = close then .ok (.closed rest)
      else if head = ','.toUInt8 then (afterComma close rest).map .another
      else .error (.next unseparated (head :: rest))

/-- A comma leaves less text. -/
theorem afterComma_length_le {close : UInt8} {text following : Bytes}
    (outcome : @afterComma Mismatch close text = .ok following) :
    following.length ≤ text.length := by
  unfold afterComma at outcome
  split at outcome
  · cases outcome
  · next head rest shape =>
      split at outcome
      · cases outcome
      · cases outcome
        exact shape ▸ skipBlanks_length_le text

/-- The closing bracket leaves less text. -/
theorem length_lt_of_closed {close : UInt8} {missing unseparated : Fault}
    {text rest : Bytes}
    (outcome : @continuation Mismatch close missing unseparated text =
      .ok (.closed rest)) : rest.length < text.length := by
  unfold continuation at outcome
  split at outcome
  · cases outcome
  · next head middle shape =>
      split at outcome
      · cases outcome
        exact length_lt_of_skipBlanks shape
      · split at outcome
        · cases comma : @afterComma Mismatch close middle <;>
            simp [Except.map, comma] at outcome
        · cases outcome

/-- Separating punctuation leaves less text. -/
theorem length_lt_of_another {close : UInt8} {missing unseparated : Fault}
    {text following : Bytes}
    (outcome : @continuation Mismatch close missing unseparated text =
      .ok (.another following)) : following.length < text.length := by
  unfold continuation at outcome
  split at outcome
  · cases outcome
  · next head middle shape =>
      split at outcome
      · cases outcome
      · split at outcome
        · cases comma : @afterComma Mismatch close middle with
          | error failure => simp [Except.map, comma] at outcome
          | ok found =>
              simp only [Except.map, comma, Except.ok.injEq, Continuation.another.injEq]
                at outcome
              subst outcome
              exact Nat.lt_of_le_of_lt (afterComma_length_le comma)
                (length_lt_of_skipBlanks shape)
        · cases outcome

end BooleanQuery.Json
