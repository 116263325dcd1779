import BooleanQuery.Json.Reader

/-!
# Lists and objects around their items

The readers of this module start after an opening bracket and read up to the closing one.
They are given readers for the items, so the same punctuation serves the values of a
document and the nodes of a query.

* `elements` reads any number of elements of one kind;
* `slots` reads elements that each have a place of their own, of which those at the end
  may be left out;
* `members` reads the members of an object, telling each what stood before it.
-/

namespace BooleanQuery.Json

open Text (Bytes)

variable {Mismatch α : Type}

/-- The continuation after an element of a list. -/
def elementEnd (text : Bytes) : Except (Failure Mismatch) Continuation :=
  continuation ']'.toUInt8 .endInList .expectedElementEnd text

/-- The continuation after a member of an object. -/
def memberEnd (text : Bytes) : Except (Failure Mismatch) Continuation :=
  continuation '\x7d'.toUInt8 .endInObject .expectedMemberEnd text

/-- Read one or more elements and the closing bracket. -/
def elementsFrom (element : Reader Mismatch α) (text : Bytes) :
    Outcome Mismatch (List α) :=
  match read : element.run text with
  | .error failure => .error failure
  | .ok (value, rest) =>
      match separated : @elementEnd Mismatch rest with
      | .error failure => .error failure
      | .ok (.closed after) => .ok ([value], after)
      | .ok (.another following) =>
          have : following.length < text.length :=
            Nat.lt_trans (length_lt_of_another separated) (element.shrinks read)
          match elementsFrom element following with
          | .error failure => .error failure
          | .ok (values, after) => .ok (value :: values, after)
termination_by text.length

/-- One or more elements leave less text. -/
theorem elementsFrom_shrinks (element : Reader Mismatch α) {text rest : Bytes}
    {values : List α} (outcome : elementsFrom element text = .ok (values, rest)) :
    rest.length < text.length := by
  fun_induction elementsFrom element text generalizing values rest with
  | case1 => cases outcome
  | case2 => cases outcome
  | case3 text value middle read after separated =>
      cases outcome
      exact Nat.lt_trans (length_lt_of_closed separated) (element.shrinks read)
  | case4 => cases outcome
  | case5 text value middle read following separated shorter values after others
      inductionHypothesis =>
      cases outcome
      exact Nat.lt_trans (inductionHypothesis others) shorter

/-- Read the elements of a list after its opening bracket. -/
def elements (element : Reader Mismatch α) : Reader Mismatch (List α) where
  run text :=
    match skipBlanks text with
    | [] => .error (.next .endInList [])
    | head :: rest =>
        if head = ']'.toUInt8 then .ok ([], rest) else elementsFrom element (head :: rest)
  shrinks {text _ rest} outcome := by
    split at outcome
    · cases outcome
    · next head middle shape =>
        split at outcome
        · cases outcome
          exact length_lt_of_skipBlanks shape
        · exact Nat.lt_of_lt_of_le (elementsFrom_shrinks element outcome)
            (shape ▸ skipBlanks_length_le text)

/-- Close a list in which every place is taken. -/
def fullListEnd : Reader Mismatch (List α) where
  run text :=
    match skipBlanks text with
    | [] => .error (.next .endInList [])
    | head :: rest =>
        if head = ']'.toUInt8 then .ok ([], rest)
        else if head = ','.toUInt8 then
          match skipBlanks rest with
          | [] => .error (.next .trailingCharacters [])
          | surplus :: after =>
              .error (.next
                (if surplus = ']'.toUInt8 then .trailingComma else .trailingCharacters)
                (surplus :: after))
        else .error (.next .trailingCharacters (head :: rest))
  shrinks {text _ rest} outcome := by
    split at outcome
    · cases outcome
    · next head middle shape =>
        split at outcome
        · cases outcome
          exact length_lt_of_skipBlanks shape
        · split at outcome
          · split at outcome <;> cases outcome
          · cases outcome

/-- Read one or more elements, each by the reader of its place. -/
def slotsFrom (first : Reader Mismatch α) : List (Reader Mismatch α) → Reader Mismatch (List α)
  | [] => first.andThen fun value => fullListEnd.map fun none => value :: none
  | second :: others =>
      first.andThen fun value =>
        { run := fun text =>
            match elementEnd text with
            | .error failure => .error failure
            | .ok (.closed after) => .ok ([value], after)
            | .ok (.another following) =>
                match (slotsFrom second others).run following with
                | .error failure => .error failure
                | .ok (values, after) => .ok (value :: values, after)
          shrinks := by
            intro text values rest outcome
            split at outcome
            · cases outcome
            · next separated =>
                cases outcome
                exact length_lt_of_closed separated
            · next following separated =>
                split at outcome
                · cases outcome
                · next read =>
                    cases outcome
                    exact Nat.lt_trans ((slotsFrom second others).shrinks read)
                      (length_lt_of_another separated) }

/-- Read a list whose elements have places after its opening bracket; places at the end
may be left out. -/
def slots (first : Reader Mismatch α) (others : List (Reader Mismatch α)) :
    Reader Mismatch (List α) where
  run text :=
    match skipBlanks text with
    | [] => .error (.next .endInList [])
    | head :: rest =>
        if head = ']'.toUInt8 then .ok ([], rest)
        else (slotsFrom first others).run (head :: rest)
  shrinks {text _ rest} outcome := by
    split at outcome
    · cases outcome
    · next head middle shape =>
        split at outcome
        · cases outcome
          exact length_lt_of_skipBlanks shape
        · exact Nat.lt_of_lt_of_le ((slotsFrom first others).shrinks outcome)
            (shape ▸ skipBlanks_length_le text)

/-- Read one or more members and the closing bracket: keys by `key`, and what follows a key
by `member`, which is told the members before it. -/
def membersFrom {κ : Type} (key : Reader Mismatch κ)
    (member : List α → κ → Reader Mismatch α) (before : List α) (text : Bytes) :
    Outcome Mismatch (List α) :=
  match read : (key.andThen (member before)).run text with
  | .error failure => .error failure
  | .ok (value, rest) =>
      match separated : @memberEnd Mismatch rest with
      | .error failure => .error failure
      | .ok (.closed after) => .ok (before ++ [value], after)
      | .ok (.another following) =>
          have : following.length < text.length :=
            Nat.lt_trans (length_lt_of_another separated)
              ((key.andThen (member before)).shrinks read)
          membersFrom key member (before ++ [value]) following
termination_by text.length

/-- One or more members leave less text. -/
theorem membersFrom_shrinks {κ : Type} (key : Reader Mismatch κ)
    (member : List α → κ → Reader Mismatch α) (before : List α) {text rest : Bytes}
    {values : List α} (outcome : membersFrom key member before text = .ok (values, rest)) :
    rest.length < text.length := by
  fun_induction membersFrom key member before text generalizing values rest with
  | case1 => cases outcome
  | case2 => cases outcome
  | case3 before text value middle read after separated =>
      cases outcome
      exact Nat.lt_trans (length_lt_of_closed separated)
        ((key.andThen (member before)).shrinks read)
  | case4 before text value middle read following separated shorter inductionHypothesis =>
      exact Nat.lt_trans (inductionHypothesis outcome) shorter

/-- Read the members of an object after its opening bracket. -/
def members {κ : Type} (key : Reader Mismatch κ)
    (member : List α → κ → Reader Mismatch α) : Reader Mismatch (List α) where
  run text :=
    match skipBlanks text with
    | [] => .error (.next .endInObject [])
    | head :: rest =>
        if head = '\x7d'.toUInt8 then .ok ([], rest)
        else membersFrom key member [] (head :: rest)
  shrinks {text _ rest} outcome := by
    split at outcome
    · cases outcome
    · next head middle shape =>
        split at outcome
        · cases outcome
          exact length_lt_of_skipBlanks shape
        · exact Nat.lt_of_lt_of_le (membersFrom_shrinks key member [] outcome)
            (shape ▸ skipBlanks_length_le text)

end BooleanQuery.Json
