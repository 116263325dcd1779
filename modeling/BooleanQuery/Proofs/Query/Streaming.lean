import BooleanQuery.Proofs.Json.Relabel
import BooleanQuery.Proofs.Sequencing
import BooleanQuery.Query.OfText
import BooleanQuery.Query.OfValue

/-!
# Decoding while reading

A query is decoded from a text while the text is read, without a value in between. This
module shows that the value in between makes no difference: a reader of queries takes a
query off a text exactly when the reader of values takes a value that decodes to it, and
leaves the same rest. Both open the same brackets, so the limit on nesting is the same one.

The value is the one that is written, with the members of its objects in the order of the
text and repeated keys kept; decoding it refuses repeated keys as reading does.
-/

namespace BooleanQuery

open Text (Bytes)
open Json (Reader Failure Scalar Value skipBlanks bracketed refuse tooDeep elements slots members
  colon greatestNesting Items ItemsFrom takes_map takes_refine takes_andThen takes_colon
  takes_bracketed takes_elements takes_members takes_slots takes_delay not_takes_refuse
  takes_scalar_congr takes_key_congr document_eq_ok_iff getElem?_of_drop drop_of_drop)

variable {α β γ ε : Type}

/-- The meanings of items one after another, where that of an item may depend on those
before it. -/
def inTurn (meaning : List α → β → Except ε α) (before : List α) : List β → Except ε (List α)
  | [] => .ok []
  | read :: others => do
      let item ← meaning before read
      let items ← inTurn meaning (before ++ [item]) others
      .ok (item :: items)

/-- An item has its meaning, and then the others have theirs. -/
theorem inTurn_cons_eq_ok_iff {meaning : List α → β → Except ε α} {before items : List α}
    {read : β} {others : List β} :
    inTurn meaning before (read :: others) = .ok items ↔
      ∃ item later, meaning before read = .ok item ∧
        inTurn meaning (before ++ [item]) others = .ok later ∧ items = item :: later := by
  simp only [inTurn, bind_eq_ok_iff, Except.ok.injEq, @eq_comm _ items]
  exact exists_congr fun item => exists_and_left.symm

/-- Items are taken exactly where a source takes items with these meanings. -/
theorem itemsFrom_iff_inTurn {close : UInt8} {takes : List α → Bytes → α → Bytes → Prop}
    {source : Bytes → β → Bytes → Prop} {meaning : List α → β → Except ε α}
    (each : ∀ before text item rest, takes before text item rest ↔
      ∃ read, source text read rest ∧ meaning before read = .ok item)
    {before items : List α} {earlier : List β} {text rest : Bytes} :
    ItemsFrom close takes before text items rest ↔
      ∃ reads, ItemsFrom close (fun _ => source) earlier text reads rest ∧
        inTurn meaning before reads = .ok items := by
  constructor
  · intro taken
    induction taken generalizing earlier with
    | last taken closes =>
        obtain ⟨read, taken, means⟩ := (each _ _ _ _).mp taken
        exact ⟨[read], .last taken closes, inTurn_cons_eq_ok_iff.mpr ⟨_, [], means, rfl, rfl⟩⟩
    | another taken separates others inductionHypothesis =>
        obtain ⟨read, taken, means⟩ := (each _ _ _ _).mp taken
        obtain ⟨reads, others, later⟩ := @inductionHypothesis (earlier ++ [read])
        exact ⟨read :: reads, .another taken separates others,
          inTurn_cons_eq_ok_iff.mpr ⟨_, _, means, later, rfl⟩⟩
  · rintro ⟨reads, taken, means⟩
    induction taken generalizing before items with
    | last taken closes =>
        obtain ⟨item, later, here, nothing, rfl⟩ := inTurn_cons_eq_ok_iff.mp means
        cases nothing
        exact .last ((each _ _ _ _).mpr ⟨_, taken, here⟩) closes
    | another taken separates others inductionHypothesis =>
        obtain ⟨item, later, here, more, rfl⟩ := inTurn_cons_eq_ok_iff.mp means
        exact .another ((each _ _ _ _).mpr ⟨_, taken, here⟩) separates
          (inductionHypothesis more)

/-- The same for any number of items. -/
theorem items_iff_inTurn {close : UInt8} {takes : List α → Bytes → α → Bytes → Prop}
    {source : Bytes → β → Bytes → Prop} {meaning : List α → β → Except ε α}
    (each : ∀ before text item rest, takes before text item rest ↔
      ∃ read, source text read rest ∧ meaning before read = .ok item)
    {items : List α} {text rest : Bytes} :
    Items close takes text items rest ↔
      ∃ reads, Items close (fun _ => source) text reads rest ∧
        inTurn meaning [] reads = .ok items := by
  simp only [Items, @itemsFrom_iff_inTurn _ _ _ _ _ _ _ each _ _ []]
  constructor
  · rintro (⟨closes, rfl⟩ | ⟨start, starts, reads, taken, means⟩)
    · exact ⟨[], .inl ⟨closes, rfl⟩, rfl⟩
    · exact ⟨reads, .inr ⟨start, starts, taken⟩, means⟩
  · rintro ⟨reads, ⟨closes, rfl⟩ | ⟨start, starts, taken⟩, means⟩
    · cases means
      exact .inl ⟨closes, rfl⟩
    · exact .inr ⟨start, starts, reads, taken, means⟩

/-- A reader takes off every text what a source takes, if that has a meaning, as this
meaning. -/
def ReadsAs (reader : Reader Mismatch α) (source : Reader Empty β)
    (meaning : β → Except Mismatch α) : Prop :=
  ∀ text result rest, reader.Takes text result rest ↔
    ∃ read, source.Takes text read rest ∧ meaning read = .ok result

namespace ReadsAs

variable {reader : Reader Mismatch α} {source : Reader Empty β} {meaning : β → Except Mismatch α}

/-- Converting what is read converts its meaning. -/
theorem map (reads : ReadsAs reader source meaning) (convert : α → γ) :
    ReadsAs (reader.map convert) source fun read => (meaning read).map convert := by
  intro text result rest
  simp only [takes_map, reads text _ rest, map_eq_ok_iff]
  constructor
  · rintro ⟨value, ⟨read, taken, means⟩, converted⟩
    exact ⟨read, taken, value, means, converted⟩
  · rintro ⟨read, taken, value, means, converted⟩
    exact ⟨value, ⟨read, taken, means⟩, converted⟩

/-- The meaning of what is converted is that of the conversion. -/
theorem source_map {convert : γ → β} {origin : Reader Empty γ}
    (reads : ReadsAs reader origin fun read => meaning (convert read)) :
    ReadsAs reader (origin.map convert) meaning := by
  intro text result rest
  rw [reads]
  constructor
  · rintro ⟨read, taken, means⟩
    exact ⟨convert read, takes_map.mpr ⟨read, taken, rfl⟩, means⟩
  · rintro ⟨value, converted, means⟩
    obtain ⟨read, taken, rfl⟩ := takes_map.mp converted
    exact ⟨read, taken, means⟩

/-- What is refused has no meaning. -/
theorem refused {failure : Bytes → Failure Mismatch}
    (meaningless : ∀ read result, meaning read ≠ .ok result) :
    ReadsAs (refuse failure) source meaning := by
  intro text result rest
  constructor
  · intro taken
    exact absurd taken not_takes_refuse
  · rintro ⟨read, -, means⟩
    exact absurd means (meaningless read result)

/-- Where nothing may be opened, nothing is read. -/
theorem tooDeep : ReadsAs Json.tooDeep (Json.tooDeep : Reader Empty β) meaning := by
  intro text result rest
  constructor
  · intro taken
    exact absurd taken not_takes_refuse
  · rintro ⟨read, taken, -⟩
    exact absurd taken not_takes_refuse

theorem scalar (check : Scalar → Except Mismatch α) :
    ReadsAs (Json.scalar.refine check) Json.scalar check := by
  intro text result rest
  simp [takes_scalar_congr]

/-- Meanings that are the same where there are any may be exchanged. -/
theorem congr {other : β → Except Mismatch α} (reads : ReadsAs reader source meaning)
    (same : ∀ read result, meaning read = .ok result ↔ other read = .ok result) :
    ReadsAs reader source other := by
  intro text result rest
  simp only [reads text result rest, same]

/-- Both open the same brackets. -/
theorem bracketed {list object other : Reader Mismatch α} {lists objects others : Reader Empty β}
    (ofLists : ReadsAs list lists meaning) (ofObjects : ReadsAs object objects meaning)
    (ofOthers : ReadsAs other others meaning) :
    ReadsAs (Json.bracketed list object other) (Json.bracketed lists objects others) meaning := by
  intro text result rest
  simp only [takes_bracketed, ofLists _ _ _, ofObjects _ _ _, ofOthers _ _ _]
  constructor
  · rintro (⟨after, opens, read, taken, means⟩ | ⟨after, opens, read, taken, means⟩ |
      ⟨head, after, shape, notList, notObject, read, taken, means⟩)
    · exact ⟨read, .inl ⟨after, opens, taken⟩, means⟩
    · exact ⟨read, .inr (.inl ⟨after, opens, taken⟩), means⟩
    · exact ⟨read, .inr (.inr ⟨head, after, shape, notList, notObject, taken⟩), means⟩
  · rintro ⟨read, ⟨after, opens, taken⟩ | ⟨after, opens, taken⟩ |
      ⟨head, after, shape, notList, notObject, taken⟩, means⟩
    · exact .inl ⟨after, opens, read, taken, means⟩
    · exact .inr (.inl ⟨after, opens, read, taken, means⟩)
    · exact .inr (.inr ⟨head, after, shape, notList, notObject, read, taken, means⟩)

end ReadsAs

namespace Json.Value

/-- Read the elements of a list of which the bracket is one of so many that may be opened. -/
def listReader : Nat → Reader Empty (List Value)
  | 0 => tooDeep
  | nesting + 1 => elements (.delay fun _ => reader nesting)

/-- Read the members of an object of which the brace is one of so many that may be opened. -/
def objectReader : Nat → Reader Empty (List (String × Value))
  | 0 => tooDeep
  | nesting + 1 =>
      members key fun _ name =>
        colon.andThen fun _ => (reader nesting).map fun value => (name, value)

theorem reader_eq (nesting : Nat) :
    (reader nesting : Reader Empty Value) =
      bracketed ((listReader nesting).map .array) ((objectReader nesting).map .object)
        (Json.scalar.map .scalar) := by
  cases nesting <;> rfl

end Json.Value

/-- The assignment of a value to a member. -/
def Assignment.ofMember (member : Member) (value : Value) : Except Mismatch Assignment :=
  Assignment.ofValue member value (fun _ => Query.ofQueryValue value)
    (fun _ => Query.ofArrayValue value)

/-- The assignment of a value to the member of its place, given those before it. -/
def Assignment.ofPlace (places : List Member) (before : List Assignment) (value : Value) :
    Except Mismatch Assignment :=
  match places[before.length]? with
  | none => .error (.surplusElements (before.length + 1))
  | some member => Assignment.ofMember member value

/-- The assignment of a value to the member of its name, given those before it. -/
def Assignment.ofNamed (before : List Assignment) (named : String × Value) :
    Except Mismatch Assignment :=
  match Member.ofName? named.1 with
  | none => .error (.unknownMember named.1)
  | some member =>
      if before.any (·.member = member) then .error (.repeatedMember member)
      else Assignment.ofMember member named.2

namespace Query

/-- Queries are decoded from values one after another. -/
theorem inTurn_ofQueryValue {before : List Query} {values : List Value} {queries : List Query} :
    inTurn (fun _ => ofQueryValue) before values = .ok queries ↔
      ofQueryValues values = .ok queries := by
  induction values generalizing before queries with
  | nil => simp [inTurn, ofQueryValues]
  | cons value values inductionHypothesis =>
      simp [inTurn, ofQueryValues, inductionHypothesis]

/-- Values in places are the assignments in order, if there are not more of them. -/
theorem inTurn_ofPlace {places remaining : List Member} {before items : List Assignment}
    {values : List Value} (left : places.drop before.length = remaining) :
    inTurn (Assignment.ofPlace places) before values = .ok items ↔
      assignmentsInOrder remaining values = .ok items ∧ values.length ≤ remaining.length := by
  induction values generalizing before remaining items with
  | nil => simp [inTurn, assignmentsInOrder]
  | cons value values inductionHypothesis =>
      rw [inTurn_cons_eq_ok_iff]
      cases remaining with
      | nil =>
          have outside : places[before.length]? = none :=
            List.getElem?_eq_none (List.drop_eq_nil_iff.mp left)
          simp [Assignment.ofPlace, outside]
      | cons member remaining =>
          simp only [assignmentsInOrder, bind_eq_ok_iff, Assignment.ofPlace,
            getElem?_of_drop left, Assignment.ofMember, List.length_cons,
            Nat.add_le_add_iff_right, inductionHypothesis (drop_of_drop left _),
            Except.ok.injEq]
          constructor
          · rintro ⟨item, later, means, ⟨more, bound⟩, rfl⟩
            exact ⟨⟨item, means, later, more, rfl⟩, bound⟩
          · rintro ⟨⟨item, means, later, more, rfl⟩, bound⟩
            exact ⟨item, later, means, ⟨more, bound⟩, rfl⟩

/-- Members of objects are the assignments by name, after those before them. -/
theorem assignmentsByName_eq_ok_iff {before made : List Assignment}
    {members : List (String × Value)} :
    assignmentsByName before members = .ok made ↔
      ∃ items, made = before ++ items ∧ inTurn Assignment.ofNamed before members = .ok items := by
  induction members generalizing before made with
  | nil => simp [assignmentsByName, inTurn, eq_comm]
  | cons named members inductionHypothesis =>
      obtain ⟨name, value⟩ := named
      simp only [inTurn_cons_eq_ok_iff]
      rw [assignmentsByName, Assignment.ofNamed]
      cases found : Member.ofName? name with
      | none => simp
      | some member =>
          by_cases repeated : before.any (·.member = member) = true
          · simp [repeated]
          · simp only [repeated, Bool.false_eq_true, if_false, bind_eq_ok_iff,
              inductionHypothesis, Assignment.ofMember]
            constructor
            · rintro ⟨item, means, items, rfl, more⟩
              exact ⟨item :: items, by simp, item, items, means, more, rfl⟩
            · rintro ⟨_, rfl, item, items, means, more, rfl⟩
              exact ⟨item, means, items, by simp, more⟩

/-- A query is kept if its array has no more elements than there are members. -/
theorem withinMembers_eq_ok_iff {elements : List Value} {query kept : Query} :
    withinMembers elements query = .ok kept ↔
      elements.length ≤ Member.all.length ∧ query = kept := by
  unfold withinMembers
  split
  · next within => simp [within]
  · next beyond => simp [beyond]

/-- An array is a query if its elements can be assigned to the members of their places. -/
theorem ofQueryValue_array_eq_ok_iff {elements : List Value} {query : Query} :
    ofQueryValue (.array elements) = .ok query ↔
      ∃ items, inTurn (Assignment.ofPlace Member.all) [] elements = .ok items ∧
        ofAssignments items = query := by
  rw [ofQueryValue, bind_eq_ok_iff]
  refine exists_congr fun assignments => ?_
  rw [inTurn_ofPlace rfl, and_assoc]
  exact and_congr_right fun _ => withinMembers_eq_ok_iff

theorem ofQueryValue_object_eq_ok_iff {members : List (String × Value)} {query : Query} :
    ofQueryValue (.object members) = .ok query ↔
      ∃ items, inTurn Assignment.ofNamed [] members = .ok items ∧ ofAssignments items = query := by
  rw [ofQueryValue, bind_eq_ok_iff]
  simp [assignmentsByName_eq_ok_iff]

theorem scalarMember_reads (member : Member) :
    ReadsAs (scalarMember member) (Json.scalar.map .scalar) (Assignment.ofMember member) :=
  .source_map (.scalar _)

/-- No scalar means a query that has to be there. -/
theorem scalarQuery_reads : ReadsAs scalarQuery (Json.scalar.map .scalar) ofQueryValue :=
  .source_map (.scalar _)

/-- The readers after an opening bracket take what values mean. -/
structure FormsRead (nesting : Nat) : Prop where
  array : ReadsAs (forms nesting).array (Value.listReader nesting)
    fun elements => ofQueryValue (.array elements)
  object : ReadsAs (forms nesting).object (Value.objectReader nesting)
    fun members => ofQueryValue (.object members)
  children : ReadsAs (forms nesting).children (Value.listReader nesting) ofQueryValues

/-- The value of a member is taken as what it means for the member. -/
theorem memberValue_reads {nesting : Nat} (inner : FormsRead nesting) (member : Member) :
    ReadsAs (memberValue nesting (fun _ => forms nesting) member) (Value.reader nesting)
      (Assignment.ofMember member) := by
  have refuses {β : Type} {source : Reader Empty β} {failure : Bytes → Failure Mismatch}
      {meaning : β → Except Mismatch Assignment}
      (meaningless : ∀ read, ∃ reason, meaning read = .error reason) :
      ReadsAs (refuse failure) source meaning := by
    refine .refused fun read result => ?_
    obtain ⟨reason, fails⟩ := meaningless read
    simp [fails]
  rw [Value.reader_eq]
  cases member with
  | exclusion =>
      exact .bracketed (.source_map (inner.array.map _)) (.source_map (inner.object.map _))
        (scalarMember_reads _)
  | children =>
      exact .bracketed (.source_map (inner.children.map _))
        (.source_map (refuses fun _ => ⟨_, rfl⟩)) (scalarMember_reads _)
  | kind =>
      cases nesting <;>
        exact .bracketed (.source_map (refuses fun _ => ⟨_, rfl⟩))
          (.source_map (refuses fun _ => ⟨_, rfl⟩)) (scalarMember_reads _)
  | field | value | boost | tiebreaker =>
      exact .bracketed (.source_map (refuses fun _ => ⟨_, rfl⟩))
        (.source_map (refuses fun _ => ⟨_, rfl⟩)) (scalarMember_reads _)

/-- A member is taken after its key as what it means after those before it. -/
theorem namedMember_reads {nesting : Nat} (inner : FormsRead nesting)
    (before : List Assignment) (text : Bytes) (item : Assignment) (rest : Bytes) :
    (Json.key.andThen
        (namedMember (memberValue nesting fun _ => forms nesting) before)).Takes text item rest ↔
      ∃ named, (Json.key.andThen fun name => colon.andThen fun _ =>
          (Value.reader nesting).map fun value => (name, value) : Reader Empty _).Takes
            text named rest ∧
        Assignment.ofNamed before named = .ok item := by
  have given (name : String) (middle : Bytes) :
      (namedMember (memberValue nesting fun _ => forms nesting) before name).Takes
          middle item rest ↔
        ∃ after value, skipBlanks middle = ':'.toUInt8 :: after ∧
          (Value.reader nesting : Reader Empty _).Takes after value rest ∧
          Assignment.ofNamed before (name, value) = .ok item := by
    unfold namedMember Assignment.ofNamed
    dsimp only
    cases Member.ofName? name with
    | none => simp
    | some member =>
        by_cases repeated : before.any (·.member = member) = true
        · simp [repeated]
        · simp only [repeated, Bool.false_eq_true, if_false, takes_andThen, takes_colon,
            memberValue_reads inner member _ _ _]
          constructor
          · rintro ⟨-, after, follows, value, taken, means⟩
            exact ⟨after, value, follows, taken, means⟩
          · rintro ⟨after, value, follows, taken, means⟩
            exact ⟨(), after, follows, value, taken, means⟩
  simp only [takes_andThen, takes_map, takes_colon, given, takes_key_congr]
  constructor
  · rintro ⟨name, middle, ofKey, after, value, follows, taken, means⟩
    exact ⟨(name, value), ⟨name, middle, ofKey, (), after, follows, value, taken, rfl⟩, means⟩
  · rintro ⟨named, ⟨name, middle, ofKey, -, after, follows, value, taken, rfl⟩, means⟩
    exact ⟨name, middle, ofKey, after, value, follows, taken, means⟩

/-- With one more bracket to open, the readers after it take what values mean. -/
theorem formsRead_succ {nesting : Nat} (inner : FormsRead nesting) : FormsRead (nesting + 1) where
  array := by
    have slotsRead : ReadsAs
        (slots (memberValue nesting (fun _ => forms nesting) .kind)
          (([.field, .value, .boost, .exclusion, .children, .tiebreaker] : List Member).map
            (memberValue nesting fun _ => forms nesting)))
        (Value.listReader (nesting + 1)) (inTurn (Assignment.ofPlace Member.all) []) := by
      intro text items rest
      simp only [takes_slots, Value.listReader, takes_elements]
      refine items_iff_inTurn fun before text item rest => ?_
      change (∃ reader, (Member.all.map (memberValue nesting fun _ => forms nesting))[
        before.length]? = some reader ∧ _) ↔ _
      unfold Assignment.ofPlace
      rw [List.getElem?_map]
      cases Member.all[before.length]? with
      | none => simp
      | some member => simpa using memberValue_reads inner member text item rest
    refine (slotsRead.map ofAssignments).congr fun elements query => ?_
    rw [map_eq_ok_iff, ofQueryValue_array_eq_ok_iff]
  object := by
    have membersRead : ReadsAs
        (members Json.key (namedMember (memberValue nesting fun _ => forms nesting)))
        (Value.objectReader (nesting + 1)) (inTurn Assignment.ofNamed []) := by
      intro text items rest
      simp only [takes_members, Value.objectReader]
      exact items_iff_inTurn (namedMember_reads inner)
    refine (membersRead.map ofAssignments).congr fun members query => ?_
    rw [map_eq_ok_iff, ofQueryValue_object_eq_ok_iff]
  children := by
    intro text queries rest
    simp only [forms, Value.listReader, takes_elements, ← @inTurn_ofQueryValue []]
    refine items_iff_inTurn fun before text item rest => ?_
    simp only [takes_delay, Value.reader_eq]
    exact ReadsAs.bracketed (.source_map inner.array) (.source_map inner.object)
      scalarQuery_reads text item rest

/-- The readers after an opening bracket take what values mean. -/
theorem formsRead (nesting : Nat) : FormsRead nesting := by
  induction nesting with
  | zero => exact ⟨.tooDeep, .tooDeep, .tooDeep⟩
  | succ nesting inductionHypothesis => exact formsRead_succ inductionHypothesis

/-- The reader of queries takes values that hold queries or null. -/
theorem reader_reads : ReadsAs reader (Value.reader greatestNesting) ofValue := by
  have inner := formsRead greatestNesting
  rw [Value.reader_eq]
  refine .bracketed (.source_map (inner.array.map some)) (.source_map (inner.object.map some))
    (.source_map ((ReadsAs.scalar _).congr fun scalar result => ?_))
  cases scalar <;> rfl

/-- A text holds a query exactly when it holds a value that does, as it is written. -/
theorem ofText_eq_ok_iff_ofValue_written {text : Bytes} {result : Option Query} :
    ofText text = .ok result ↔
      ∃ written, Value.written text = .ok written ∧ ofValue written = .ok result := by
  simp only [ofText, mapError_eq_ok_iff, Value.written, document_eq_ok_iff,
    reader_reads _ _ _]
  constructor
  · rintro ⟨rest, ⟨written, taken, means⟩, blank⟩
    exact ⟨written, ⟨rest, taken, blank⟩, means⟩
  · rintro ⟨written, ⟨rest, taken, blank⟩, means⟩
    exact ⟨rest, ⟨written, taken, means⟩, blank⟩

end Query

end BooleanQuery
