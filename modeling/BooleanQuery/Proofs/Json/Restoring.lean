import BooleanQuery.Proofs.Json.Number
import BooleanQuery.Proofs.Json.Quoted

/-!
# Reading what is written

`Restores` says that a reader takes a written text for a value, whatever follows it in a
document, if the brackets in the text fit into those that may be opened; and that too many
brackets are what is reported if they do not. The lemmas of this module carry this from
items to lists, objects and documents: of the items that do not fit, the first is reported,
because those before it are read without fault.
-/

namespace BooleanQuery.Json

open Text (Bytes encode encode_append)

variable {Mismatch α β : Type}

/-- A text that may follow an item: nothing, a comma, or a closing bracket. -/
def Follows (rest : Bytes) : Prop :=
  ∀ byte ∈ rest.head?, byte = ','.toUInt8 ∨ byte = ']'.toUInt8 ∨ byte = '\x7d'.toUInt8

theorem Follows.endsNumber {rest : Bytes} (follows : Follows rest) : EndsNumber rest := by
  intro byte among
  rcases follows byte among with rfl | rfl | rfl <;> decide

/-- More brackets are open than may be. -/
def IsTooDeep (outcome : Except (Failure Mismatch) α) : Prop :=
  ∃ unread, outcome = .error ⟨.malformed .nestingTooDeep, unread⟩

/-- A reader restores a value from a written text if its brackets fit, and else reports that
there are too many. -/
structure Restores (reader : Reader Mismatch α) (written : List Char) (value : α)
    (fits : Prop) : Prop where
  read : fits → ∀ rest, Follows rest → reader.run (encode written ++ rest) = .ok (value, rest)
  refuse : ¬fits → ∀ rest, Follows rest → IsTooDeep (reader.run (encode written ++ rest))

/-- Blanks are skipped up to the first byte of an item. -/
theorem skipBlanks_eq {head : UInt8} (visible : isBlank head = false) (rest : Bytes) :
    skipBlanks (head :: rest) = head :: rest := by
  rw [skipBlanks, List.dropWhile_cons, if_neg (by simp [visible])]

/-- A text starts with a byte that neither is a blank nor opens a bracket. -/
def StartsScalar (written : List Char) : Prop :=
  ∃ head others, encode written = head :: others ∧ isBlank head = false ∧
    head ≠ '['.toUInt8 ∧ head ≠ '\x7b'.toUInt8

theorem startsScalar_quoted (text : String) : StartsScalar (quoted text) :=
  ⟨'"'.toUInt8, _, rfl, by decide, by decide, by decide⟩

theorem startsScalar_null : StartsScalar "null".toList :=
  ⟨'n'.toUInt8, _, rfl, by decide, by decide, by decide⟩

/-- A number starts with a minus sign or a digit. -/
theorem startsScalar_number {written : List Char} {value : Number}
    (taken : (@number Mismatch).Takes (encode written) value []) : StartsScalar written := by
  obtain ⟨head, others, shape, start⟩ := head_of_takes_number taken
  have differs (other : UInt8) := @ne_of_startsNumber head other start
  refine ⟨head, others, shape, ?_, differs _ (by decide) (by decide),
    differs _ (by decide) (by decide)⟩
  simp only [isBlank, Bool.or_eq_false_iff, decide_eq_false_iff_not]
  exact ⟨⟨⟨differs _ (by decide) (by decide), differs _ (by decide) (by decide)⟩,
    differs _ (by decide) (by decide)⟩, differs _ (by decide) (by decide)⟩

namespace Restores

variable {reader : Reader Mismatch α} {written : List Char} {value : α} {fits : Prop}

/-- What fits is restored as it is read. -/
theorem of_run (read : ∀ rest, Follows rest → reader.run (encode written ++ rest) =
    .ok (value, rest)) : Restores reader written value True :=
  ⟨fun _ => read, fun unfit => absurd trivial unfit⟩

/-- Whether something fits may be said in other words. -/
theorem congr {other : Prop} (restored : Restores reader written value fits)
    (same : fits ↔ other) : Restores reader written value other :=
  ⟨fun fit => restored.read (same.mpr fit), fun unfit => restored.refuse (unfit ∘ same.mp)⟩

/-- A reader that does the same with another text restores the value from it. -/
theorem of_run_eq {other : Reader Mismatch α} {longer : List Char}
    (restored : Restores reader written value fits)
    (same : ∀ rest, other.run (encode longer ++ rest) = reader.run (encode written ++ rest)) :
    Restores other longer value fits := by
  refine ⟨fun fit rest follows => ?_, fun unfit rest follows => ?_⟩
  · rw [same]
    exact restored.read fit rest follows
  · rw [same]
    exact restored.refuse unfit rest follows

/-- A restored value is converted. -/
theorem map (restored : Restores reader written value fits) (convert : α → β) :
    Restores (reader.map convert) written (convert value) fits := by
  refine ⟨fun fit rest follows => ?_, fun unfit rest follows => ?_⟩
  · simp only [Reader.map, restored.read fit rest follows]
  · obtain ⟨unread, refused⟩ := restored.refuse unfit rest follows
    exact ⟨unread, by simp only [Reader.map, refused]⟩

/-- A restored value is checked. -/
theorem refine (restored : Restores reader written value fits) {check : α → Except Mismatch β}
    {checked : β} (passes : check value = .ok checked) :
    Restores (reader.refine check) written checked fits := by
  refine ⟨fun fit rest follows => ?_, fun unfit rest follows => ?_⟩
  · simp only [Reader.refine, restored.read fit rest follows, passes]
  · obtain ⟨unread, refused⟩ := restored.refuse unfit rest follows
    exact ⟨unread, by simp only [Reader.refine, refused]⟩

/-- Where no bracket may be opened, nothing that has one fits. -/
theorem tooDeep (unfit : ¬fits) :
    Restores (Json.tooDeep : Reader Mismatch α) written value fits :=
  ⟨fun fit => absurd fit unfit, fun _ _ _ => ⟨_, rfl⟩⟩

theorem bracketed_list {list : Reader Mismatch α} (restored : Restores list written value fits)
    (object other : Reader Mismatch α) :
    Restores (bracketed list object other) ('[' :: written) value fits :=
  ⟨restored.read, restored.refuse⟩

theorem bracketed_object {object : Reader Mismatch α}
    (restored : Restores object written value fits) (list other : Reader Mismatch α) :
    Restores (bracketed list object other) ('\x7b' :: written) value fits :=
  ⟨restored.read, restored.refuse⟩

/-- A scalar is restored where a bracket might stand. -/
theorem bracketed_other {other : Reader Mismatch α} (restored : Restores other written value fits)
    (starts : StartsScalar written) (list object : Reader Mismatch α) :
    Restores (bracketed list object other) written value fits := by
  obtain ⟨head, others, shape, visible, notList, notObject⟩ := starts
  refine restored.of_run_eq fun rest => ?_
  rw [shape, List.cons_append]
  simp only [bracketed, skipBlanks_eq visible, if_neg notList, if_neg notObject]

/-- A document is restored if its value is. -/
theorem document (restored : Restores reader written value fits) :
    (fits → document reader (encode written) = .ok value) ∧
      (¬fits → IsTooDeep (Json.document reader (encode written))) := by
  have ends : Follows [] := nofun
  rw [← List.append_nil (encode written)]
  constructor
  · intro fit
    rw [Json.document, restored.read fit [] ends]
    rfl
  · intro unfit
    obtain ⟨unread, refused⟩ := restored.refuse unfit [] ends
    exact ⟨unread, by rw [Json.document, refused]⟩

end Restores

theorem restores_quoted (text : String) :
    Restores (@scalar Mismatch) (quoted text) (.text text) True :=
  .of_run fun rest _ => scalar_run_quoted text rest

theorem restores_number {written : List Char} {value : Number}
    (taken : (@number Mismatch).Takes (encode written) value []) :
    Restores (@scalar Mismatch) written (.number value) True :=
  .of_run fun _ follows => scalar_run_of_takes_number taken follows.endsNumber

theorem restores_null : Restores (@scalar Mismatch) "null".toList .null True :=
  .of_run fun _ _ => rfl

/-- A text starts with a byte that neither is a blank nor closes a bracket. -/
def StartsItem (written : List Char) : Prop :=
  ∃ head others, encode written = head :: others ∧ isBlank head = false ∧
    head ≠ ']'.toUInt8 ∧ head ≠ '\x7d'.toUInt8

/-- After an item a comma is followed by the next one. -/
theorem continuation_comma {close : UInt8} {missing unseparated : Fault} {written : List Char}
    (notComma : close ≠ ','.toUInt8) (closes : close = ']'.toUInt8 ∨ close = '\x7d'.toUInt8)
    (starts : StartsItem written) (rest : Bytes) :
    @continuation Mismatch close missing unseparated
        (','.toUInt8 :: (encode written ++ rest)) = .ok (.another (encode written ++ rest)) := by
  obtain ⟨head, others, shape, visible, notList, notObject⟩ := starts
  have differs : head ≠ close := by
    rcases closes with rfl | rfl
    · exact notList
    · exact notObject
  have next : @afterComma Mismatch close (encode written ++ rest) =
      .ok (encode written ++ rest) := by
    rw [shape, List.cons_append, afterComma, skipBlanks_eq visible]
    exact if_neg differs
  simp only [continuation, skipBlanks_eq (show isBlank ','.toUInt8 = false from by decide),
    if_neg notComma.symm, if_true, next]
  rfl

/-- After the last item the bracket is closed. -/
theorem continuation_close {close : UInt8} {missing unseparated : Fault}
    (closes : close = ']'.toUInt8 ∨ close = '\x7d'.toUInt8) (rest : Bytes) :
    @continuation Mismatch close missing unseparated (close :: rest) = .ok (.closed rest) := by
  have visible : isBlank close = false := by
    rcases closes with rfl | rfl <;> decide
  simp only [continuation, skipBlanks_eq visible, if_true]

theorem follows_close {close : UInt8} (closes : close = ']'.toUInt8 ∨ close = '\x7d'.toUInt8)
    (rest : Bytes) : Follows (close :: rest) := by
  rintro byte ⟨⟩
  exact .inr closes

theorem follows_comma (rest : Bytes) : Follows (','.toUInt8 :: rest) := by
  rintro byte ⟨⟩
  exact .inl rfl

theorem encode_commaSeparated (first second : List Char) (others : List (List Char)) :
    encode (commaSeparated (first :: second :: others)) =
      encode first ++ ','.toUInt8 :: encode (commaSeparated (second :: others)) := by
  rw [commaSeparated, List.intercalate_cons_cons, encode_append, encode_append, List.append_assoc]
  rfl

/-- Items start where the first of them does. -/
theorem startsItem_commaSeparated {first : List Char} (starts : StartsItem first)
    (others : List (List Char)) : StartsItem (commaSeparated (first :: others)) := by
  obtain ⟨head, tail, shape, visible, differs⟩ := starts
  cases others with
  | nil => exact ⟨head, tail, by rw [commaSeparated, List.intercalate_singleton, shape],
      visible, differs⟩
  | cons second others =>
      rw [StartsItem, encode_commaSeparated, shape]
      exact ⟨head, _, List.cons_append, visible, differs⟩

section Sequences

variable {close : UInt8} {missing unseparated : Fault} {item : List α → Reader Mismatch α}
  {sequence : List α → Bytes → Outcome Mismatch (List α)} {written : β → List Char}
  {value : β → α} {fits : β → Prop}

/-- Items are written so that each is restored, given the values of those before it. -/
def ItemsRestore (item : List α → Reader Mismatch α) (written : β → List Char) (value : β → α)
    (fits : β → Prop) (items : List β) : Prop :=
  ∀ earlier current later, items = earlier ++ current :: later →
    StartsItem (written current) ∧
      Restores (item (earlier.map value)) (written current) (value current) (fits current)

/-- Items separated by commas are restored by a reader that takes one after another. The
first item that does not fit is reached, because those before it are restored. -/
theorem sequence_restores (closes : close = ']'.toUInt8 ∨ close = '\x7d'.toUInt8)
    (inTurn : ReadsInTurn close missing unseparated item sequence)
    {earlier others : List β} {first : β}
    (restore : ItemsRestore item written value fits (earlier ++ first :: others))
    (rest : Bytes) :
    ((∀ current ∈ first :: others, fits current) →
      sequence (earlier.map value)
          (encode (commaSeparated ((first :: others).map written)) ++ close :: rest) =
        .ok ((earlier ++ first :: others).map value, rest)) ∧
    ((¬∀ current ∈ first :: others, fits current) →
      IsTooDeep (sequence (earlier.map value)
        (encode (commaSeparated ((first :: others).map written)) ++ close :: rest))) := by
  have notComma : close ≠ ','.toUInt8 := by
    rcases closes with rfl | rfl <;> decide
  induction others generalizing earlier first with
  | nil =>
      obtain ⟨-, restored⟩ := restore earlier first [] rfl
      have text : commaSeparated ([first].map written) = written first :=
        List.intercalate_singleton
      rw [text, inTurn, List.forall_mem_singleton]
      constructor
      · intro fit
        rw [restored.read fit _ (follows_close closes rest)]
        simp only [continuation_close closes, List.map_append, List.map_cons, List.map_nil]
      · intro unfit
        obtain ⟨unread, refused⟩ := restored.refuse unfit _ (follows_close closes rest)
        exact ⟨unread, by rw [refused]⟩
  | cons second others inductionHypothesis =>
      obtain ⟨-, restored⟩ := restore earlier first (second :: others) rfl
      have split : earlier ++ first :: second :: others =
          (earlier ++ [first]) ++ second :: others := by
        simp
      obtain ⟨starts, -⟩ := restore (earlier ++ [first]) second others split
      have separated : @continuation Mismatch close missing unseparated
          (','.toUInt8 :: (encode (commaSeparated ((second :: others).map written)) ++
            close :: rest)) = .ok (.another _) :=
        continuation_comma notComma closes (startsItem_commaSeparated starts _) _
      obtain ⟨readOthers, refuseOthers⟩ := inductionHypothesis (split ▸ restore)
      rw [List.map_append, List.map_singleton, ← split] at readOthers
      rw [List.map_append, List.map_singleton] at refuseOthers
      rw [List.map_cons, List.map_cons, encode_commaSeparated, List.append_assoc,
        List.cons_append, ← List.map_cons, inTurn, List.forall_mem_cons]
      -- A first item that fits leaves the comma, and the others are reached.
      constructor
      · rintro ⟨fit, others⟩
        rw [restored.read fit _ (follows_comma _)]
        simp only [separated]
        exact readOthers others
      · intro unfit
        by_cases fit : fits first
        · rw [restored.read fit _ (follows_comma _)]
          simp only [separated]
          exact refuseOthers fun others => unfit ⟨fit, others⟩
        · obtain ⟨unread, refused⟩ := restored.refuse fit _ (follows_comma _)
          exact ⟨unread, by rw [refused]⟩

/-- The same for a reader that may also close its bracket at once. -/
theorem restores_sequence (closes : close = ']'.toUInt8 ∨ close = '\x7d'.toUInt8)
    (inTurn : ReadsInTurn close missing unseparated item sequence)
    {reader : Reader Mismatch (List α)} (failure : Failure Mismatch)
    (opens : ∀ text, reader.run text =
      match skipBlanks text with
      | [] => .error failure
      | head :: rest => if head = close then .ok ([], rest) else sequence [] (head :: rest))
    {items : List β} (restore : ItemsRestore item written value fits items) {bracket : Char}
    (isClose : encode [bracket] = [close]) :
    Restores reader (commaSeparated (items.map written) ++ [bracket]) (items.map value)
      (∀ current ∈ items, fits current) := by
  have text (rest : Bytes) : encode (commaSeparated (items.map written) ++ [bracket]) ++ rest =
      encode (commaSeparated (items.map written)) ++ close :: rest := by
    rw [encode_append, isClose, List.append_assoc]
    rfl
  cases items with
  | nil =>
      have visible : isBlank close = false := by
        rcases closes with rfl | rfl <;> decide
      refine ⟨fun _ rest _ => ?_, fun unfit => absurd (List.forall_mem_nil _) unfit⟩
      rw [text, opens]
      change (match skipBlanks (close :: rest) with | [] => _ | head :: rest => _) = _
      rw [skipBlanks_eq visible]
      exact if_pos rfl
  | cons first others =>
      have run (rest : Bytes) : reader.run
          (encode (commaSeparated ((first :: others).map written)) ++ close :: rest) =
            sequence [] (encode (commaSeparated ((first :: others).map written)) ++
              close :: rest) := by
        obtain ⟨head, tail, shape, visible, notList, notObject⟩ :=
          startsItem_commaSeparated (restore [] first others rfl).1 (others.map written)
        have differs : head ≠ close := by
          rcases closes with rfl | rfl
          · exact notList
          · exact notObject
        rw [List.map_cons, shape, List.cons_append, opens, skipBlanks_eq visible]
        exact if_neg differs
      have restored := sequence_restores closes inTurn
        (show ItemsRestore item written value fits ([] ++ first :: others) from restore)
      refine ⟨fun fit rest _ => ?_, fun unfit rest _ => ?_⟩
      · rw [text, run]
        exact (restored rest).1 fit
      · rw [text, run]
        exact (restored rest).2 unfit

end Sequences

/-- The elements of a list are restored if each of them is. -/
theorem restores_elements {element : Reader Mismatch α} {written : β → List Char} {value : β → α}
    {fits : β → Prop} {items : List β}
    (restore : ItemsRestore (fun _ => element) written value fits items) :
    Restores (elements element) (commaSeparated (items.map written) ++ [']']) (items.map value)
      (∀ current ∈ items, fits current) := by
  have unchanged (outcome : Outcome Mismatch (List α)) :
      (outcome.map fun read => ([] ++ read.1, read.2)) = outcome := by
    cases outcome <;> rfl
  refine restores_sequence (.inl rfl) (readsInTurn_elementsFrom element) (.next .endInList [])
    (fun text => ?_) restore rfl
  rcases shape : skipBlanks text with _ | ⟨head, rest⟩
  · simp only [elements, shape]
  · simp only [elements, shape, unchanged]

/-- The members of an object are restored if each of them is, given those before it. -/
theorem restores_members {κ : Type} {key : Reader Mismatch κ}
    {member : List α → κ → Reader Mismatch α} {written : β → List Char} {value : β → α}
    {fits : β → Prop} {items : List β}
    (restore : ItemsRestore (fun before => key.andThen (member before)) written value fits items) :
    Restores (members key member) (commaSeparated (items.map written) ++ ['\x7d'])
      (items.map value) (∀ current ∈ items, fits current) :=
  restores_sequence (.inr rfl) (readsInTurn_membersFrom key member) (.next .endInObject [])
    (fun _ => rfl) restore rfl

/-- A member is restored after its key. -/
theorem restores_keyed {name : String} {member : String → Reader Mismatch α}
    {value : Reader Mismatch α} {written : List Char} {made : α} {fits : Prop}
    (named : member name = colon.andThen fun _ => value)
    (restored : Restores value written made fits) :
    Restores (key.andThen member) (quoted name ++ ':' :: written) made fits := by
  refine restored.of_run_eq fun rest => ?_
  rw [encode_append, List.append_assoc]
  simp only [Reader.andThen, key_run_quoted, named]
  rfl

theorem startsItem_keyed (name : String) (written : List Char) :
    StartsItem (quoted name ++ ':' :: written) :=
  ⟨'"'.toUInt8, _, rfl, by decide, by decide, by decide⟩

theorem startsItem_object (written : List Char) : StartsItem ('\x7b' :: written) :=
  ⟨'\x7b'.toUInt8, _, rfl, by decide, by decide, by decide⟩

end BooleanQuery.Json
