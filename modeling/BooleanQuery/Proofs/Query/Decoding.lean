import Mathlib.Data.List.Nodup
import BooleanQuery.Proofs.Json.Canonical
import BooleanQuery.Proofs.Query.Streaming

/-!
# Decoding texts and values

A query decoded from a text is the query decoded from the value of the text, unless some
object repeats a key: then the text is refused, while its value has lost the repetition.

Members of an object are told apart by their keys, so a query does not depend on their
order, and neither does it matter that the value of a text has them sorted.
-/

namespace BooleanQuery

open Json (Value)
open Json.Value (settle_perm canonicalElements_eq_map canonicalMembers_eq_map
  distinctKeys_array_iff distinctKeys_object_iff)

/-- If items mean the same after a conversion, as far as they have some property, so do
items one after another. -/
theorem inTurn_map_eq_ok_iff {α β ε : Type} {meaning : List α → β → Except ε α}
    {convert : β → β} {holds : β → Prop} {reads : List β}
    (each : ∀ read ∈ reads, ∀ before item, meaning before read = .ok item ↔
      holds read ∧ meaning before (convert read) = .ok item)
    {before items : List α} :
    inTurn meaning before reads = .ok items ↔
      (∀ read ∈ reads, holds read) ∧ inTurn meaning before (reads.map convert) = .ok items := by
  induction reads generalizing before items with
  | nil => simp
  | cons read others inductionHypothesis =>
      have later := fun {before items} =>
        @inductionHypothesis (fun other present => each other (.tail _ present)) before items
      simp only [List.map_cons, inTurn_cons_eq_ok_iff, List.forall_mem_cons, later,
        each read (.head _)]
      constructor
      · rintro ⟨item, items, ⟨first, means⟩, ⟨onOthers, more⟩, rfl⟩
        exact ⟨⟨first, onOthers⟩, item, items, means, more, rfl⟩
      · rintro ⟨⟨first, onOthers⟩, item, items, means, more, rfl⟩
        exact ⟨item, items, ⟨first, means⟩, ⟨onOthers, more⟩, rfl⟩

/-- A member is found exactly under its name. -/
theorem Member.ofName?_eq_some_iff {name : String} {member : Member} :
    Member.ofName? name = some member ↔ name = member.name := by
  constructor
  · intro found
    have named := List.find?_some found
    exact (of_decide_eq_true named).symm
  · rintro rfl
    cases member <;> decide

namespace Assignment

/-- A scalar in the place of a member is assigned to this member. -/
theorem member_of_ofScalar {member : Member} {scalar : Json.Scalar} {item : Assignment}
    (assigned : ofScalar member scalar = .ok item) : item.member = member := by
  unfold ofScalar at assigned
  split at assigned
  · cases assigned
    cases member <;> rfl
  · cases member with
    | exclusion => cases assigned
    | children => cases assigned
    | _ =>
        obtain ⟨found, -, rfl⟩ := map_eq_ok_iff.mp assigned
        rfl

/-- A value in the place of a member is assigned to this member. -/
theorem member_of_ofMember {member : Member} {value : Value} {item : Assignment}
    (assigned : ofMember member value = .ok item) : item.member = member := by
  cases value with
  | scalar scalar => exact member_of_ofScalar assigned
  | array elements =>
      cases member with
      | exclusion =>
          obtain ⟨found, -, rfl⟩ := map_eq_ok_iff.mp assigned
          rfl
      | children =>
          obtain ⟨found, -, rfl⟩ := map_eq_ok_iff.mp assigned
          rfl
      | _ => cases assigned
  | object members =>
      cases member with
      | exclusion =>
          obtain ⟨found, -, rfl⟩ := map_eq_ok_iff.mp assigned
          rfl
      | _ => cases assigned

/-- A member of an object is read as an assignment. -/
def IsNamed (named : String × Value) (item : Assignment) : Prop :=
  named.1 = item.member.name ∧ ofMember item.member named.2 = .ok item

/-- A member is accepted unless it has been given before. -/
theorem ofNamed_eq_ok_iff {before : List Assignment} {named : String × Value}
    {item : Assignment} :
    ofNamed before named = .ok item ↔
      IsNamed named item ∧ ∀ earlier ∈ before, earlier.member ≠ item.member := by
  unfold ofNamed IsNamed
  cases found : Member.ofName? named.1 with
  | none =>
      simp only [reduceCtorEq, false_iff, not_and]
      rintro ⟨isName, -⟩
      cases found.symm.trans (Member.ofName?_eq_some_iff.mpr isName)
  | some member =>
      have isName := Member.ofName?_eq_some_iff.mp found
      dsimp only
      split
      · next repeated =>
          simp only [reduceCtorEq, false_iff]
          rintro ⟨⟨sameName, -⟩, fresh⟩
          have same : member = item.member :=
            Option.some.inj (found.symm.trans (Member.ofName?_eq_some_iff.mpr sameName))
          obtain ⟨earlier, present, equal⟩ := List.any_eq_true.mp repeated
          exact fresh earlier present ((of_decide_eq_true equal).trans same)
      · next fresh =>
          constructor
          · intro assigned
            have same := member_of_ofMember assigned
            subst same
            refine ⟨⟨isName, assigned⟩, fun earlier present equal => fresh ?_⟩
            exact List.any_eq_true.mpr ⟨earlier, present, decide_eq_true equal⟩
          · rintro ⟨⟨sameName, assigned⟩, -⟩
            have same : member = item.member :=
              Option.some.inj (found.symm.trans (Member.ofName?_eq_some_iff.mpr sameName))
            exact same ▸ assigned

/-- Members of an object are accepted if each is read and no two are the same. -/
theorem inTurn_ofNamed_eq_ok_iff {before items : List Assignment}
    {members : List (String × Value)} :
    inTurn ofNamed before members = .ok items ↔
      List.Forall₂ IsNamed members items ∧
        (∀ item ∈ items, ∀ earlier ∈ before, earlier.member ≠ item.member) ∧
        (items.map member).Nodup := by
  induction members generalizing before items with
  | nil => cases items <;> simp [inTurn]
  | cons named members inductionHypothesis =>
      simp only [inTurn_cons_eq_ok_iff, ofNamed_eq_ok_iff, inductionHypothesis,
        List.forall₂_cons_left_iff]
      constructor
      · rintro ⟨item, items, ⟨isNamed, fresh⟩, ⟨others, freshOthers, distinct⟩, rfl⟩
        refine ⟨⟨item, items, isNamed, others, rfl⟩, ?_, ?_⟩
        · rw [List.forall_mem_cons]
          exact ⟨fresh, fun other present earlier among =>
            freshOthers other present earlier (List.mem_append_left _ among)⟩
        · rw [List.map_cons, List.nodup_cons]
          refine ⟨?_, distinct⟩
          rintro repeated
          obtain ⟨other, present, same⟩ := List.mem_map.mp repeated
          exact freshOthers other present item (by simp) same.symm
      · rintro ⟨⟨item, items, isNamed, others, rfl⟩, fresh, distinct⟩
        rw [List.forall_mem_cons] at fresh
        rw [List.map_cons, List.nodup_cons] at distinct
        refine ⟨item, items, ⟨isNamed, fresh.1⟩, ⟨others, ?_, distinct.2⟩, rfl⟩
        intro other present earlier among
        rcases List.mem_append.mp among with old | new
        · exact fresh.2 other present earlier old
        · cases List.mem_singleton.mp new
          intro same
          exact distinct.1 (List.mem_map.mpr ⟨other, present, same.symm⟩)

/-- Accepted members have the names of their assignments as keys. -/
theorem keys_eq_of_isNamed {members : List (String × Value)} {items : List Assignment}
    (read : List.Forall₂ IsNamed members items) :
    members.map Prod.fst = (items.map member).map Member.name := by
  induction read with
  | nil => rfl
  | cons isNamed _ inductionHypothesis =>
      rw [List.map_cons, inductionHypothesis, isNamed.1, List.map_cons, List.map_cons]

end Assignment

theorem Member.name_injective : Function.Injective Member.name := by
  intro first second same
  have found := Member.ofName?_eq_some_iff.mpr same
  exact Option.some.inj ((Member.ofName?_eq_some_iff.mpr rfl).symm.trans found)

namespace Query

/-- The values of different members may be assigned in any order. -/
theorem assign_comm {first second : Assignment} (differ : first.member ≠ second.member)
    (query : Query) : (query.assign first).assign second = (query.assign second).assign first := by
  cases first <;> cases second <;> first | rfl | exact absurd rfl differ

/-- A query does not depend on the order of assignments to different members. -/
theorem ofAssignments_eq_of_perm {items others : List Assignment} (reordered : items.Perm others)
    (distinct : (items.map Assignment.member).Nodup) :
    ofAssignments items = ofAssignments others := by
  refine reordered.foldl_eq' (fun first atFirst second atSecond query => ?_) _
  by_cases same : first.member = second.member
  · rw [List.inj_on_of_nodup_map distinct atFirst atSecond same]
  · exact assign_comm same query

/-- An object is a query if its keys are distinct names of members and each value can be
assigned to its member. -/
theorem ofQueryValue_object_iff_distinct {members : List (String × Value)} {query : Query} :
    ofQueryValue (.object members) = .ok query ↔
      (members.map Prod.fst).Nodup ∧
        ∃ items, List.Forall₂ Assignment.IsNamed members items ∧ ofAssignments items = query := by
  simp only [ofQueryValue_object_eq_ok_iff, Assignment.inTurn_ofNamed_eq_ok_iff,
    List.not_mem_nil]
  constructor
  · rintro ⟨items, ⟨read, -, distinct⟩, made⟩
    rw [Assignment.keys_eq_of_isNamed read]
    exact ⟨distinct.map Member.name_injective, items, read, made⟩
  · rintro ⟨distinct, items, read, made⟩
    rw [Assignment.keys_eq_of_isNamed read] at distinct
    exact ⟨items, ⟨read, by simp, distinct.of_map _⟩, made⟩

/-- The members of an object may be listed in any order. -/
theorem ofQueryValue_object_of_perm {members others : List (String × Value)} {query : Query}
    (reordered : others.Perm members) (decoded : ofQueryValue (.object members) = .ok query) :
    ofQueryValue (.object others) = .ok query := by
  rw [ofQueryValue_object_iff_distinct] at decoded ⊢
  obtain ⟨distinct, items, read, made⟩ := decoded
  obtain ⟨reorderedItems, readOthers, sameItems⟩ := List.perm_comp_forall₂ reordered read
  have distinctItems : (reorderedItems.map Assignment.member).Nodup := by
    rw [Assignment.keys_eq_of_isNamed read] at distinct
    exact (sameItems.map _).nodup_iff.mpr (distinct.of_map _)
  exact ⟨(reordered.map _).nodup_iff.mpr distinct, reorderedItems, readOthers,
    (ofAssignments_eq_of_perm sameItems distinctItems).trans made⟩

/-- Queries are decoded alike from values and from their canonical forms, as far as these
repeat no key. -/
structure DecodesAlike (value : Value) : Prop where
  query : ∀ query, ofQueryValue value = .ok query ↔
    value.DistinctKeys ∧ ofQueryValue value.canonical = .ok query
  assignment : ∀ member item, Assignment.ofMember member value = .ok item ↔
    value.DistinctKeys ∧ Assignment.ofMember member value.canonical = .ok item

/-- A scalar is its own canonical form. -/
theorem decodesAlike_scalar (scalar : Json.Scalar) : DecodesAlike (.scalar scalar) where
  query _ := (and_iff_right (.scalar scalar)).symm
  assignment _ _ := (and_iff_right (.scalar scalar)).symm

/-- Lists of queries are decoded alike if their elements are. -/
theorem ofQueryValues_canonical {elements : List Value}
    (each : ∀ element ∈ elements, DecodesAlike element) {queries : List Query} :
    ofQueryValues elements = .ok queries ↔
      Value.DistinctKeys (.array elements) ∧
        ofQueryValues (elements.map Value.canonical) = .ok queries := by
  rw [distinctKeys_array_iff, ← @inTurn_ofQueryValue [], ← @inTurn_ofQueryValue []]
  exact inTurn_map_eq_ok_iff fun element present _ query => (each element present).query query

/-- Arrays are decoded alike if their elements are. -/
theorem decodesAlike_array {elements : List Value}
    (each : ∀ element ∈ elements, DecodesAlike element) : DecodesAlike (.array elements) := by
  have canonical : Value.canonical (.array elements) = .array (elements.map Value.canonical) := by
    rw [Value.canonical, canonicalElements_eq_map]
  have query (query : Query) : ofQueryValue (.array elements) = .ok query ↔
      Value.DistinctKeys (.array elements) ∧
        ofQueryValue (.array (elements.map Value.canonical)) = .ok query := by
    have places {items : List Assignment} :
        inTurn (Assignment.ofPlace Member.all) [] elements = .ok items ↔
          (∀ element ∈ elements, element.DistinctKeys) ∧
            inTurn (Assignment.ofPlace Member.all) [] (elements.map Value.canonical) =
              .ok items := by
      refine inTurn_map_eq_ok_iff fun element present before item => ?_
      unfold Assignment.ofPlace
      cases Member.all[before.length]? with
      | none => simp
      | some member => exact (each element present).assignment member item
    simp only [ofQueryValue_array_eq_ok_iff, distinctKeys_array_iff, places, and_assoc,
      exists_and_left]
  refine ⟨canonical ▸ query, fun member item => ?_⟩
  rw [canonical]
  cases member with
  | exclusion => exact map_eq_ok_congr query _ item
  | children => exact map_eq_ok_congr (fun _ => ofQueryValues_canonical each) _ item
  | _ =>
      change Except.error _ = _ ↔ _ ∧ Except.error _ = _
      simp

/-- Objects with canonical values are queries if the objects are, apart from repeated keys
inside the values. -/
theorem ofQueryValue_canonicalMembers {members : List (String × Value)}
    (each : ∀ named ∈ members, DecodesAlike named.2) {query : Query} :
    ofQueryValue (.object members) = .ok query ↔
      (∀ named ∈ members, named.2.DistinctKeys) ∧
        ofQueryValue (.object (Value.canonicalMembers members)) = .ok query := by
  have read {items : List Assignment} :
      inTurn Assignment.ofNamed [] members = .ok items ↔
        (∀ named ∈ members, named.2.DistinctKeys) ∧
          inTurn Assignment.ofNamed [] (members.map fun named => (named.1, named.2.canonical)) =
            .ok items := by
    refine inTurn_map_eq_ok_iff fun named present before item => ?_
    unfold Assignment.ofNamed
    dsimp only
    cases Member.ofName? named.1 with
    | none => simp
    | some member =>
        dsimp only
        split
        · simp
        · exact (each named present).assignment member item
  simp only [canonicalMembers_eq_map, ofQueryValue_object_eq_ok_iff, read, and_assoc,
    exists_and_left]

/-- Objects are decoded alike if their values are: sorting members is harmless, and no
member is dropped where the keys are distinct. -/
theorem decodesAlike_object {members : List (String × Value)}
    (each : ∀ named ∈ members, DecodesAlike named.2) : DecodesAlike (.object members) := by
  have sameKeys : (Value.canonicalMembers members).map Prod.fst = members.map Prod.fst := by
    rw [canonicalMembers_eq_map, List.map_map]
    rfl
  have query (query : Query) : ofQueryValue (.object members) = .ok query ↔
      Value.DistinctKeys (.object members) ∧
        ofQueryValue (Value.canonical (.object members)) = .ok query := by
    rw [distinctKeys_object_iff, Value.canonical]
    -- That the keys are distinct is a consequence of decoding in one direction, and in the
    -- other a hypothesis; in both it makes sorting a permutation.
    constructor
    · intro decoded
      have distinct := (ofQueryValue_object_iff_distinct.mp decoded).1
      have sorted := settle_perm (sameKeys ▸ distinct)
      obtain ⟨onValues, settled⟩ := (ofQueryValue_canonicalMembers each).mp decoded
      exact ⟨⟨distinct, onValues⟩, ofQueryValue_object_of_perm sorted settled⟩
    · rintro ⟨⟨distinct, onValues⟩, settled⟩
      have sorted := settle_perm (sameKeys ▸ distinct)
      exact (ofQueryValue_canonicalMembers each).mpr
        ⟨onValues, ofQueryValue_object_of_perm sorted.symm settled⟩
  refine ⟨query, fun member item => ?_⟩
  cases member with
  | exclusion => exact map_eq_ok_congr query _ item
  | _ =>
      change Except.error _ = _ ↔ _ ∧ Except.error _ = _
      simp

theorem decodesAlike (value : Value) : DecodesAlike value := by
  induction value with
  | scalar scalar => exact decodesAlike_scalar scalar
  | array elements onElements => exact decodesAlike_array onElements
  | object members onValues => exact decodesAlike_object onValues

/-- A value without repeated keys holds the query that its canonical form holds. -/
theorem ofValue_canonical {value : Value} {result : Option Query} :
    ofValue value = .ok result ↔
      value.DistinctKeys ∧ ofValue value.canonical = .ok result := by
  cases value with
  | scalar scalar => exact (and_iff_right (.scalar scalar)).symm
  | array elements => exact map_eq_ok_congr (decodesAlike (.array elements)).query some result
  | object members => exact map_eq_ok_congr (decodesAlike (.object members)).query some result

/-- A text decodes to a query, or to none, exactly when it holds a value in which no object
repeats a key, and this value, with its members sorted, decodes to the same. -/
theorem ofText_eq_ok_iff_ofValue_ofText (text : Text.Bytes) (result : Option Query) :
    ofText text = .ok result ↔
      ∃ written value, Value.written text = .ok written ∧ written.DistinctKeys ∧
        Value.ofText text = .ok value ∧ ofValue value = .ok result := by
  rw [ofText_eq_ok_iff_ofValue_written]
  constructor
  · rintro ⟨written, isWritten, means⟩
    obtain ⟨distinct, settled⟩ := ofValue_canonical.mp means
    refine ⟨written, written.canonical, isWritten, distinct, ?_, settled⟩
    rw [Value.ofText, isWritten]
  · rintro ⟨written, value, isWritten, distinct, isValue, settled⟩
    rw [Value.ofText, isWritten, Except.ok.injEq] at isValue
    exact ⟨written, isWritten, ofValue_canonical.mpr ⟨distinct, isValue ▸ settled⟩⟩

end Query

end BooleanQuery
