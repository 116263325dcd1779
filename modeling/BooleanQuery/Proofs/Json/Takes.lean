import BooleanQuery.Json.Value

/-!
# What readers take

`Reader.Takes` says that a reader takes a value off a text and leaves a rest. The lemmas of
this module say for each combination of readers what it takes, in terms of what its parts
take, so that nothing else has to be known about how readers are built. The two bracketed
sequences, lists and objects, share one description: `Items` are items one after another,
separated by commas, up to a closing bracket, where each item may depend on those before it.
-/

namespace BooleanQuery.Json

open Text (Bytes)

variable {Mismatch α β : Type}

/-- A reader takes a value off the beginning of a text and leaves a rest. -/
def Reader.Takes (reader : Reader Mismatch α) (text : Bytes) (value : α) (rest : Bytes) :
    Prop :=
  reader.run text = .ok (value, rest)

section Combinations

variable {text rest : Bytes}

/-- A converted value is taken where the value is. -/
@[simp] theorem takes_map {reader : Reader Mismatch α} {convert : α → β} {value : β} :
    (reader.map convert).Takes text value rest ↔
      ∃ read, reader.Takes text read rest ∧ convert read = value := by
  unfold Reader.Takes Reader.map
  dsimp only
  split
  · next read after outcome =>
      simp only [outcome, Except.ok.injEq, Prod.mk.injEq, and_assoc, exists_eq_left']
      exact and_comm
  · next failure outcome => simp [outcome]

/-- Two values are taken one after the other. -/
@[simp] theorem takes_andThen {first : Reader Mismatch α} {second : α → Reader Mismatch β}
    {value : β} :
    (first.andThen second).Takes text value rest ↔
      ∃ read middle, first.Takes text read middle ∧ (second read).Takes middle value rest := by
  unfold Reader.Takes Reader.andThen
  dsimp only
  split
  · next read after outcome =>
      constructor
      · intro later
        exact ⟨read, after, outcome, later⟩
      · rintro ⟨other, middle, early, later⟩
        cases outcome.symm.trans early
        exact later
  · next failure outcome => simp [outcome]

/-- A checked value is taken where a value is that passes the check. -/
@[simp] theorem takes_refine {reader : Reader Mismatch α} {check : α → Except Mismatch β}
    {value : β} :
    (reader.refine check).Takes text value rest ↔
      ∃ read, reader.Takes text read rest ∧ check read = .ok value := by
  unfold Reader.Takes Reader.refine
  dsimp only
  split
  · next read after outcome =>
      split
      · next checked passed => simp [outcome, passed, and_comm, and_assoc]
      · next reason failed => simp [outcome, failed, and_assoc]
  · next failure outcome => simp [outcome]

/-- A validated value is taken where a value is that is valid. -/
@[simp] theorem takes_validate {reader : Reader Mismatch α} {check : α → Except Fault β}
    {value : β} :
    (reader.validate check).Takes text value rest ↔
      ∃ read, reader.Takes text read rest ∧ check read = .ok value := by
  unfold Reader.Takes Reader.validate
  dsimp only
  split
  · next read after outcome =>
      split
      · next checked passed => simp [outcome, passed, and_comm, and_assoc]
      · next fault failed => simp [outcome, failed, and_assoc]
  · next failure outcome => simp [outcome]

@[simp] theorem takes_delay {reader : Unit → Reader Mismatch α} {value : α} :
    (Reader.delay reader).Takes text value rest ↔ (reader ()).Takes text value rest :=
  Iff.rfl

@[simp] theorem not_takes_refuse {failure : Bytes → Failure Mismatch} {value : α} :
    ¬(refuse failure : Reader Mismatch α).Takes text value rest := by
  intro taken
  cases taken

/-- A colon is taken after blanks. -/
@[simp] theorem takes_colon {value : Unit} :
    (colon : Reader Mismatch Unit).Takes text value rest ↔
      skipBlanks text = ':'.toUInt8 :: rest := by
  unfold Reader.Takes colon
  dsimp only
  split
  · next shape => simp [shape]
  · next head after shape =>
      split
      · next isColon => simp [shape, isColon]
      · next other => simp [shape, other]

/-- After blanks, a list is taken after its bracket, an object after its brace, and anything
else from its first byte on. -/
@[simp] theorem takes_bracketed {list object other : Reader Mismatch α} {value : α} :
    (bracketed list object other).Takes text value rest ↔
      (∃ after, skipBlanks text = '['.toUInt8 :: after ∧ list.Takes after value rest) ∨
      (∃ after, skipBlanks text = '\x7b'.toUInt8 :: after ∧ object.Takes after value rest) ∨
      (∃ head after, skipBlanks text = head :: after ∧ head ≠ '['.toUInt8 ∧
        head ≠ '\x7b'.toUInt8 ∧ other.Takes (head :: after) value rest) := by
  have brackets : '['.toUInt8 ≠ '\x7b'.toUInt8 := by decide
  unfold Reader.Takes bracketed
  dsimp only
  split
  · next shape => simp [shape]
  · next head after shape =>
      split
      · next isList => simp [shape, isList, brackets]
      · next notList =>
          split
          · next isObject => simp [shape, isObject, brackets.symm]
          · next notObject => simp [shape, notList, notObject, and_assoc]

/-- The value of a document is taken off its text and leaves nothing but blanks. -/
@[simp] theorem document_eq_ok_iff {reader : Reader Mismatch α} {value : α} :
    document reader text = .ok value ↔
      ∃ rest, reader.Takes text value rest ∧ skipBlanks rest = [] := by
  unfold Reader.Takes document
  split
  · next failure outcome => simp [outcome]
  · next read after outcome =>
      split
      · next blank => simp [outcome, blank, and_assoc]
      · next head others trailing =>
          simp only [outcome, reduceCtorEq, Except.ok.injEq, Prod.mk.injEq, false_iff,
            not_exists, not_and]
          rintro rest ⟨-, rfl⟩
          simp [trailing]

end Combinations

/-- The content of a string, by its first byte. -/
theorem stringContent_cons (byte : UInt8) (rest : Bytes) :
    @stringContent Mismatch (byte :: rest) =
      if byte = '"'.toUInt8 then .ok ([], rest)
      else if byte = '\\'.toUInt8 then
        match escape.run rest with
        | .error failure => .error failure
        | .ok (character, following) =>
            (stringContent following).map fun read =>
              (String.utf8EncodeChar character ++ read.1, read.2)
      else if byte < 0x20 then .error (.before .controlCharacter rest)
      else (stringContent rest).map fun read => (byte :: read.1, read.2) := by
  rw [stringContent]
  split
  · rfl
  · split
    · split
      · next failed => rw [failed]
      · next character following read =>
          simp only [read]
          rcases stringContent following with failure | found <;> rfl
    · split
      · rfl
      · rcases stringContent rest with failure | found <;> rfl

/-- After blanks the closing bracket follows, and then the rest. -/
def Closes (close : UInt8) (text rest : Bytes) : Prop := skipBlanks text = close :: rest

/-- After blanks an item starts, which is not the closing bracket. -/
def Starts (close : UInt8) (text start : Bytes) : Prop :=
  skipBlanks text = start ∧ ∃ head after, start = head :: after ∧ head ≠ close

/-- After blanks a comma follows, and then another item. -/
def Separates (close : UInt8) (text following : Bytes) : Prop :=
  ∃ after, skipBlanks text = ','.toUInt8 :: after ∧ Starts close after following

/-- Items one after another up to the closing bracket, from the first byte of an item on.
Each item is taken in its own way, given those before it. -/
inductive ItemsFrom (close : UInt8) (takes : List α → Bytes → α → Bytes → Prop) :
    List α → Bytes → List α → Bytes → Prop where
  | last {before text item middle rest} (taken : takes before text item middle)
      (closes : Closes close middle rest) : ItemsFrom close takes before text [item] rest
  | another {before text item middle following items rest}
      (taken : takes before text item middle) (separates : Separates close middle following)
      (others : ItemsFrom close takes (before ++ [item]) following items rest) :
      ItemsFrom close takes before text (item :: items) rest

/-- Any number of items up to the closing bracket. -/
def Items (close : UInt8) (takes : List α → Bytes → α → Bytes → Prop) (text : Bytes)
    (items : List α) (rest : Bytes) : Prop :=
  Closes close text rest ∧ items = [] ∨
    ∃ start, Starts close text start ∧ ItemsFrom close takes [] start items rest

section Sequences

variable {text rest : Bytes}

/-- Another item follows a comma exactly where one starts. -/
theorem afterComma_eq_ok_iff {close : UInt8} {following : Bytes} :
    @afterComma Mismatch close text = .ok following ↔ Starts close text following := by
  unfold afterComma Starts
  split
  · next shape =>
      simp only [shape, reduceCtorEq, false_iff, not_and, not_exists]
      rintro rfl head after ⟨⟩
  · next head after shape =>
      split
      · next isClose =>
          simp only [shape, isClose, reduceCtorEq, false_iff, not_and, not_exists]
          rintro rfl other after ⟨⟩ differs
          exact differs rfl
      · next other =>
          simp only [shape, Except.ok.injEq]
          exact ⟨fun same => ⟨same, head, after, same.symm, other⟩, fun start => start.1⟩

/-- A sequence ends exactly at its closing bracket. -/
theorem continuation_eq_closed_iff {close : UInt8} {missing unseparated : Fault} :
    @continuation Mismatch close missing unseparated text = .ok (.closed rest) ↔
      Closes close text rest := by
  unfold continuation Closes
  split
  · next shape => simp [shape]
  · next head after shape =>
      split
      · next isClose => simp [shape, isClose]
      · next other =>
          split
          · cases @afterComma Mismatch close after <;>
              simp [shape, other, Except.map]
          · simp [shape, other]

/-- A sequence goes on exactly at a comma that another item follows. -/
theorem continuation_eq_another_iff {close : UInt8} {missing unseparated : Fault}
    {following : Bytes} (notComma : close ≠ ','.toUInt8) :
    @continuation Mismatch close missing unseparated text = .ok (.another following) ↔
      Separates close text following := by
  unfold continuation Separates
  split
  · next shape => simp [shape]
  · next head after shape =>
      split
      · next isClose => simp [shape, isClose, notComma]
      · next other =>
          split
          · next isComma =>
              simp only [shape, isComma, List.cons.injEq, true_and, exists_eq_left',
                ← @afterComma_eq_ok_iff Mismatch]
              cases @afterComma Mismatch close after <;> simp [Except.map]
          · next notComma => simp [shape, notComma]

theorem elementEnd_eq_closed_iff :
    @elementEnd Mismatch text = .ok (.closed rest) ↔ Closes ']'.toUInt8 text rest :=
  continuation_eq_closed_iff

theorem elementEnd_eq_another_iff {following : Bytes} :
    @elementEnd Mismatch text = .ok (.another following) ↔
      Separates ']'.toUInt8 text following :=
  continuation_eq_another_iff (by decide)

/-- A function reads items one after another, each given those before it, up to the closing
bracket. -/
def ReadsInTurn (close : UInt8) (missing unseparated : Fault) (item : List α → Reader Mismatch α)
    (sequence : List α → Bytes → Outcome Mismatch (List α)) : Prop :=
  ∀ before text, sequence before text =
    match (item before).run text with
    | .error failure => .error failure
    | .ok (value, rest) =>
        match @continuation Mismatch close missing unseparated rest with
        | .error failure => .error failure
        | .ok (.closed after) => .ok (before ++ [value], after)
        | .ok (.another following) => sequence (before ++ [value]) following

/-- Elements are read one after another. -/
theorem readsInTurn_elementsFrom (element : Reader Mismatch α) :
    ReadsInTurn ']'.toUInt8 .endInList .expectedElementEnd (fun _ => element)
      fun before text =>
        (elementsFrom element text).map fun read => (before ++ read.1, read.2) := by
  intro before text
  dsimp only
  rcases read : element.run text with failure | ⟨value, rest⟩
  · rw [elementsFrom.eq_def]
    grind [Except.map]
  · rcases separated : @elementEnd Mismatch rest with failure | after | following
    all_goals
      rw [elementsFrom.eq_def]
      grind [Except.map, elementEnd]

/-- Members are read one after another. -/
theorem readsInTurn_membersFrom {κ : Type} (key : Reader Mismatch κ)
    (member : List α → κ → Reader Mismatch α) :
    ReadsInTurn '\x7d'.toUInt8 .endInObject .expectedMemberEnd
      (fun before => key.andThen (member before)) (membersFrom key member) := by
  intro before text
  dsimp only
  rcases read : (key.andThen (member before)).run text with failure | ⟨value, rest⟩
  · rw [membersFrom.eq_def]
    grind
  · rcases separated : @memberEnd Mismatch rest with failure | after | following
    all_goals
      rw [membersFrom.eq_def]
      grind [memberEnd]

/-- What is read one after another are items. -/
theorem ReadsInTurn.eq_ok_iff {close : UInt8} {missing unseparated : Fault}
    {item : List α → Reader Mismatch α} {sequence : List α → Bytes → Outcome Mismatch (List α)}
    (inTurn : ReadsInTurn close missing unseparated item sequence)
    (notComma : close ≠ ','.toUInt8) {before values : List α} :
    sequence before text = .ok (values, rest) ↔
      ∃ items, values = before ++ items ∧
        ItemsFrom close (fun before => (item before).Takes) before text items rest := by
  constructor
  · intro outcome
    -- Each item leaves less text, so the induction is on the length of the text.
    induction size : text.length using Nat.strongRecOn generalizing before text with
    | ind size inductionHypothesis =>
        subst size
        rw [inTurn] at outcome
        split at outcome
        · cases outcome
        · next value middle read =>
            split at outcome
            · cases outcome
            · next after closed =>
                cases outcome
                exact ⟨[value], rfl, .last read (continuation_eq_closed_iff.mp closed)⟩
            · next following separated =>
                have shorter : following.length < text.length :=
                  Nat.lt_trans (length_lt_of_another separated) ((item before).shrinks read)
                obtain ⟨items, rfl, others⟩ := inductionHypothesis _ shorter outcome rfl
                exact ⟨value :: items, by simp,
                  .another read ((continuation_eq_another_iff notComma).mp separated) others⟩
  · rintro ⟨items, rfl, taken⟩
    induction taken with
    | last taken closes =>
        have closed :=
          (@continuation_eq_closed_iff Mismatch _ _ close missing unseparated).mpr closes
        unfold Reader.Takes at taken
        rw [inTurn, taken]
        simp only [closed]
    | another taken separates others inductionHypothesis =>
        have separated := (@continuation_eq_another_iff Mismatch _ close missing unseparated _
          notComma).mpr separates
        unfold Reader.Takes at taken
        rw [inTurn, taken]
        simp only [separated, inductionHypothesis, List.append_assoc, List.singleton_append]

/-- The elements of a list are taken one after another. -/
theorem elementsFrom_eq_ok_iff {element : Reader Mismatch α} {before values : List α} :
    elementsFrom element text = .ok (values, rest) ↔
      ItemsFrom ']'.toUInt8 (fun _ => element.Takes) before text values rest := by
  have all := @ReadsInTurn.eq_ok_iff _ _ text rest _ _ _ _ _ (readsInTurn_elementsFrom element)
    (by decide) before (before ++ values)
  simp only [List.append_cancel_left_eq, exists_eq_left'] at all
  rw [← all]
  rcases elementsFrom element text with failure | ⟨found, after⟩ <;> simp [Except.map]

/-- The members of an object are taken one after another, each given those before it. -/
theorem membersFrom_eq_ok_iff {κ : Type} {key : Reader Mismatch κ}
    {member : List α → κ → Reader Mismatch α} {before values : List α} :
    membersFrom key member before text = .ok (values, rest) ↔
      ∃ items, values = before ++ items ∧
        ItemsFrom '\x7d'.toUInt8 (fun before => (key.andThen (member before)).Takes)
          before text items rest :=
  (readsInTurn_membersFrom key member).eq_ok_iff (by decide)

/-- What a reader of a sequence does at its beginning: close it, or read the first item. -/
theorem openSequence_eq_ok_iff {close : UInt8} {missing : Failure Mismatch}
    {items : Bytes → Outcome Mismatch (List α)} {values : List α} :
    (match skipBlanks text with
      | [] => Except.error missing
      | head :: after => if head = close then .ok ([], after) else items (head :: after)) =
        .ok (values, rest) ↔
      Closes close text rest ∧ values = [] ∨
        ∃ start, Starts close text start ∧ items start = .ok (values, rest) := by
  unfold Closes Starts
  rcases skipBlanks text with _ | ⟨head, after⟩
  · simp
  · by_cases isClose : head = close
    · subst isClose
      simp only [if_true, Except.ok.injEq, Prod.mk.injEq]
      constructor
      · rintro ⟨rfl, rfl⟩
        exact .inl ⟨rfl, rfl⟩
      · rintro (⟨same, rfl⟩ | ⟨start, ⟨rfl, first, others, same, differs⟩, -⟩)
        · cases same
          exact ⟨rfl, rfl⟩
        · cases same
          exact absurd rfl differs
    · simp [isClose, and_assoc]

/-- The elements of a list. -/
theorem takes_elements {element : Reader Mismatch α} {values : List α} :
    (elements element).Takes text values rest ↔
      Items ']'.toUInt8 (fun _ => element.Takes) text values rest := by
  unfold Items
  simp only [← elementsFrom_eq_ok_iff]
  exact openSequence_eq_ok_iff

/-- The members of an object. -/
theorem takes_members {κ : Type} {key : Reader Mismatch κ}
    {member : List α → κ → Reader Mismatch α} {values : List α} :
    (members key member).Takes text values rest ↔
      Items '\x7d'.toUInt8 (fun before => (key.andThen (member before)).Takes)
        text values rest := by
  have all {start : Bytes} : membersFrom key member [] start = .ok (values, rest) ↔
      ItemsFrom '\x7d'.toUInt8 (fun before => (key.andThen (member before)).Takes)
        [] start values rest := by
    simp [membersFrom_eq_ok_iff]
  unfold Items
  simp only [← all]
  exact openSequence_eq_ok_iff

/-- A list in which every place is taken ends at its closing bracket. -/
theorem takes_fullListEnd {values : List α} :
    (fullListEnd : Reader Mismatch (List α)).Takes text values rest ↔
      Closes ']'.toUInt8 text rest ∧ values = [] := by
  unfold Reader.Takes fullListEnd Closes
  dsimp only
  split
  · next shape => simp [shape]
  · next head after shape =>
      split
      · next isClose => simp [shape, isClose, eq_comm, and_comm]
      · next other =>
          split
          · split <;> simp [shape, other]
          · simp [shape, other]

/-- How the elements of a list with places are taken: each by the reader of its place. -/
def SlotTakes (readers : List (Reader Mismatch α)) (before : List α) (text : Bytes) (value : α)
    (rest : Bytes) : Prop :=
  ∃ reader, readers[before.length]? = some reader ∧ reader.Takes text value rest

theorem getElem?_of_drop {places others : List β} {first : β} {before : List α}
    (left : places.drop before.length = first :: others) :
    places[before.length]? = some first := by
  rw [← Nat.add_zero before.length, ← List.getElem?_drop, left]
  rfl

theorem drop_of_drop {places others : List β} {first : β} {before : List α}
    (left : places.drop before.length = first :: others) (item : α) :
    places.drop (before ++ [item]).length = others := by
  rw [List.length_append, List.length_singleton, ← List.drop_drop, left]
  rfl

/-- No element is taken where all places are taken. -/
theorem not_itemsFrom_of_full {close : UInt8} {readers : List (Reader Mismatch α)}
    {before values : List α} (full : readers.drop before.length = []) :
    ¬ItemsFrom close (SlotTakes readers) before text values rest := by
  have outside : readers[before.length]? = none :=
    List.getElem?_eq_none (List.drop_eq_nil_iff.mp full)
  intro items
  cases items with
  | last taken _ =>
      obtain ⟨reader, place, -⟩ := taken
      cases outside.symm.trans place
  | another taken _ _ =>
      obtain ⟨reader, place, -⟩ := taken
      cases outside.symm.trans place

/-- After the element of a place the list ends, or the element of the next place follows. -/
theorem takes_slotsFrom_cons {others : List (Reader Mismatch α)}
    {first second : Reader Mismatch α} {values : List α} :
    (slotsFrom first (second :: others)).Takes text values rest ↔
      ∃ value middle, first.Takes text value middle ∧
        (Closes ']'.toUInt8 middle rest ∧ values = [value] ∨
          ∃ following later, Separates ']'.toUInt8 middle following ∧
            (slotsFrom second others).Takes following later rest ∧ values = value :: later) := by
  rw [slotsFrom, takes_andThen]
  simp only [Reader.Takes, ← @elementEnd_eq_closed_iff Mismatch,
    ← @elementEnd_eq_another_iff Mismatch]
  refine exists_congr fun value => exists_congr fun middle => and_congr_right fun taken => ?_
  split
  · next failed => simp [failed]
  · next after closed => simp [closed, eq_comm, and_comm]
  · next following separated =>
      cases outcome : (slotsFrom second others).run following with
      | error failure => simp [separated, outcome]
      | ok read =>
          obtain ⟨later, after⟩ := read
          simp [separated, outcome, and_assoc, eq_comm, and_comm]

/-- From some place on, the elements are taken by the readers from that place on. -/
theorem takes_slotsFrom {readers others : List (Reader Mismatch α)} {first : Reader Mismatch α}
    {before values : List α} (places : readers.drop before.length = first :: others) :
    (slotsFrom first others).Takes text values rest ↔
      ItemsFrom ']'.toUInt8 (SlotTakes readers) before text values rest := by
  induction others generalizing first before text values with
  | nil =>
      have here := getElem?_of_drop places
      simp only [slotsFrom, takes_andThen, takes_map, takes_fullListEnd]
      constructor
      · rintro ⟨value, middle, taken, none, ⟨closes, rfl⟩, rfl⟩
        exact .last ⟨first, here, taken⟩ closes
      · intro items
        cases items with
        | last taken closes =>
            obtain ⟨reader, place, taken⟩ := taken
            cases here.symm.trans place
            exact ⟨_, _, taken, [], ⟨closes, rfl⟩, rfl⟩
        | another _ _ others =>
            exact absurd others (not_itemsFrom_of_full (drop_of_drop places _))
  | cons second others inductionHypothesis =>
      have here := getElem?_of_drop places
      rw [takes_slotsFrom_cons]
      constructor
      · rintro ⟨value, middle, taken, ⟨closes, rfl⟩ | ⟨following, values, separates, more, rfl⟩⟩
        · exact .last ⟨first, here, taken⟩ closes
        · exact .another ⟨first, here, taken⟩ separates
            ((inductionHypothesis (drop_of_drop places value)).mp more)
      · intro items
        cases items with
        | last taken closes =>
            obtain ⟨reader, place, taken⟩ := taken
            cases here.symm.trans place
            exact ⟨_, _, taken, .inl ⟨closes, rfl⟩⟩
        | another taken separates more =>
            obtain ⟨reader, place, taken⟩ := taken
            cases here.symm.trans place
            exact ⟨_, _, taken, .inr ⟨_, _, separates,
              (inductionHypothesis (drop_of_drop places _)).mpr more, rfl⟩⟩

/-- The elements of a list with places. -/
theorem takes_slots {first : Reader Mismatch α} {others : List (Reader Mismatch α)}
    {values : List α} :
    (slots first others).Takes text values rest ↔
      Items ']'.toUInt8 (SlotTakes (first :: others)) text values rest := by
  have all {start : Bytes} : (slotsFrom first others).run start = .ok (values, rest) ↔
      ItemsFrom ']'.toUInt8 (SlotTakes (first :: others)) [] start values rest :=
    takes_slotsFrom rfl
  unfold Items
  simp only [← all]
  exact openSequence_eq_ok_iff

end Sequences

end BooleanQuery.Json
