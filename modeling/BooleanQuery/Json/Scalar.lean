import BooleanQuery.Json.Number
import BooleanQuery.Json.Quoted
import BooleanQuery.Json.Items

/-!
# Scalars and brackets

A scalar is a value without brackets. Whatever is asked for, a scalar is read as a whole
before it is judged, so one reader serves every purpose; `bracketed` chooses between it
and what follows an opening bracket.
-/

namespace BooleanQuery.Json

open Text (Bytes)

/-- A value without brackets. -/
inductive Scalar where
  | null
  | boolean (value : Bool)
  | number (value : Number)
  | text (value : String)
deriving DecidableEq, Repr

variable {Mismatch α : Type}

/-- Read the remaining letters of a word. -/
def wordEnd : Bytes → Bytes → Except (Failure Mismatch) Bytes
  | [], text => .ok text
  | _ :: _, [] => .error (.next .endInValue [])
  | letter :: letters, byte :: rest =>
      if byte = letter then wordEnd letters rest else .error (.before .expectedWord rest)

/-- A word never lengthens a text. -/
theorem wordEnd_length_le {letters text rest : Bytes}
    (outcome : @wordEnd Mismatch letters text = .ok rest) :
    rest.length ≤ text.length := by
  fun_induction @wordEnd Mismatch letters text with
  | case1 =>
      cases outcome
      exact Nat.le_refl _
  | case2 => cases outcome
  | case3 letter letters text inductionHypothesis =>
      exact Nat.le_succ_of_le (inductionHypothesis outcome)
  | case4 => cases outcome

/-- The scalar written as a word that starts with the given letter, and the other letters
of the word. -/
def word? (initial : UInt8) : Option (Scalar × Bytes) :=
  if initial = 'n'.toUInt8 then some (.null, Text.bytesOf "ull")
  else if initial = 't'.toUInt8 then some (.boolean true, Text.bytesOf "rue")
  else if initial = 'f'.toUInt8 then some (.boolean false, Text.bytesOf "alse")
  else none

/-- Read a scalar. -/
def scalar : Reader Mismatch Scalar where
  run
    | [] => .error (.next .endInValue [])
    | head :: rest =>
        match word? head with
        | some (value, letters) =>
            match wordEnd letters rest with
            | .ok after => .ok (value, after)
            | .error failure => .error failure
        | none =>
            if head = '"'.toUInt8 then (string.map .text).run rest
            else if head = '-'.toUInt8 ∨ (digit? head).isSome then
              (number.map .number).run (head :: rest)
            else .error (.next .expectedValue (head :: rest))
  shrinks {text _ rest} outcome := by
    split at outcome
    · cases outcome
    · split at outcome
      · split at outcome
        · next read =>
            cases outcome
            exact Nat.lt_succ_of_le (wordEnd_length_le read)
        · cases outcome
      · split at outcome
        · exact Nat.lt_succ_of_lt ((string.map _).shrinks outcome)
        · split at outcome
          · exact (number.map _).shrinks outcome
          · cases outcome

/-- Skip blanks and choose by the next byte: what follows an opening bracket of a list, an
opening bracket of an object, or anything else. -/
def bracketed (list object other : Reader Mismatch α) : Reader Mismatch α where
  run text :=
    match skipBlanks text with
    | [] => .error (.next .endInValue [])
    | head :: rest =>
        if head = '['.toUInt8 then list.run rest
        else if head = '\x7b'.toUInt8 then object.run rest
        else other.run (head :: rest)
  shrinks {text _ rest} outcome := by
    split at outcome
    · cases outcome
    · next head middle shape =>
        have shorter := length_lt_of_skipBlanks shape
        split at outcome
        · exact Nat.lt_trans (list.shrinks outcome) shorter
        · split at outcome
          · exact Nat.lt_trans (object.shrinks outcome) shorter
          · exact Nat.lt_of_lt_of_le (other.shrinks outcome)
              (shape ▸ skipBlanks_length_le text)

/-- Refuse everything with a failure that depends on the rest. -/
def refuse (failure : Bytes → Failure Mismatch) : Reader Mismatch α where
  run text := .error (failure text)
  shrinks outcome := by cases outcome

/-- Refuse to open another bracket. -/
def tooDeep : Reader Mismatch α := refuse (.before .nestingTooDeep)

/-- The number of brackets that may be open at once. -/
def greatestNesting : Nat := 127

/-- Read a whole text: a value, and nothing but blanks after it. -/
def document (reader : Reader Mismatch α) (text : Bytes) : Except (Failure Mismatch) α :=
  match reader.run text with
  | .error failure => .error failure
  | .ok (value, rest) =>
      match skipBlanks rest with
      | [] => .ok value
      | head :: after => .error (.next .trailingCharacters (head :: after))

end BooleanQuery.Json
