import Mathlib.Data.String.Basic
import Mathlib.Data.List.Perm.Basic
import BooleanQuery.Json.Value

/-!
# Canonical values

The canonical form of a value sorts the members of its objects and drops those whose keys
are repeated later. Where no key is repeated, nothing is dropped: the members are those
that are written, in another order. In the canonical form itself no key is repeated, so that
there is one value at most to be found under a key.
-/

namespace BooleanQuery

open Json (Value)

section Lookup

variable {members : List (String × Value)}

/-- A value is found under its key if the keys are distinct. -/
theorem lookup_of_mem (distinct : (members.map Prod.fst).Nodup) {key : String} {value : Value}
    (present : (key, value) ∈ members) : members.lookup key = some value := by
  obtain ⟨before, after, rfl⟩ := List.append_of_mem present
  rw [List.lookup_eq_some_iff]
  refine ⟨before, after, rfl, fun other earlier => ?_⟩
  rw [List.map_append, List.map_cons, List.nodup_append] at distinct
  have differ := distinct.2.2 other.1 (List.mem_map_of_mem earlier) key List.mem_cons_self
  exact bne_iff_ne.mpr differ.symm

theorem mem_of_lookup {key : String} {value : Value} (found : members.lookup key = some value) :
    (key, value) ∈ members := by
  obtain ⟨before, after, rfl, -⟩ := List.lookup_eq_some_iff.mp found
  exact List.mem_append_right before List.mem_cons_self

theorem lookup_eq_none_iff_not_mem {key : String} :
    members.lookup key = none ↔ key ∉ members.map Prod.fst := by
  simp only [List.lookup_eq_none_iff, bne_iff_ne, List.mem_map, not_exists, not_and]
  exact forall_congr' fun named => forall_congr' fun _ => ne_comm

theorem lookup_middle_of_ne {key other : String} (differ : key ≠ other) (value : Value)
    (before after : List (String × Value)) :
    (before ++ (other, value) :: after).lookup key = (before ++ after).lookup key := by
  have notHere : (key == other) = false := beq_false_of_ne differ
  rw [List.lookup_append, List.lookup_append, List.lookup_cons, notHere]

theorem lookup_middle_self {key : String} {value : Value} {before : List (String × Value)}
    (missing : key ∉ before.map Prod.fst) (after : List (String × Value)) :
    (before ++ (key, value) :: after).lookup key = some value := by
  rw [List.lookup_append, lookup_eq_none_iff_not_mem.mpr missing, Option.none_or,
    List.lookup_cons_self]

end Lookup

end BooleanQuery

namespace BooleanQuery.Json.Value

/-- Values are built from scalars, from values that have been built, and from members with
such values. -/
@[elab_as_elim, induction_eliminator]
theorem treeInduction {motive : Value → Prop} (scalar : ∀ value, motive (.scalar value))
    (array : ∀ elements, (∀ element ∈ elements, motive element) → motive (.array elements))
    (object : ∀ members, (∀ named ∈ members, motive named.2) → motive (.object members))
    (value : Value) : motive value :=
  Value.rec (motive_1 := motive)
    (motive_2 := fun elements => ∀ element ∈ elements, motive element)
    (motive_3 := fun members => ∀ named ∈ members, motive named.2)
    (motive_4 := fun named => motive named.2)
    scalar array object
    (fun _ absent => nomatch absent)
    (fun _ _ holds onOthers => List.forall_mem_cons.mpr ⟨holds, onOthers⟩)
    (fun _ absent => nomatch absent)
    (fun _ _ holds onOthers => List.forall_mem_cons.mpr ⟨holds, onOthers⟩)
    (fun _ _ holds => holds)
    value

/-- No object inside a value repeats a key. -/
inductive DistinctKeys : Value → Prop where
  | scalar (value) : DistinctKeys (.scalar value)
  | array {elements} (each : ∀ element ∈ elements, DistinctKeys element) :
      DistinctKeys (.array elements)
  | object {members} (distinct : (members.map Prod.fst).Nodup)
      (each : ∀ named ∈ members, DistinctKeys named.2) : DistinctKeys (.object members)

/-- A list repeats no key exactly when its elements do not. -/
theorem distinctKeys_array_iff {elements : List Value} :
    DistinctKeys (.array elements) ↔ ∀ element ∈ elements, DistinctKeys element := by
  constructor
  · rintro (_ | each)
    exact each
  · exact .array

/-- An object repeats no key exactly when its own keys are distinct and its values repeat
none. -/
theorem distinctKeys_object_iff {members : List (String × Value)} :
    DistinctKeys (.object members) ↔
      (members.map Prod.fst).Nodup ∧ ∀ named ∈ members, DistinctKeys named.2 := by
  constructor
  · rintro (_ | _ | ⟨distinct, each⟩)
    exact ⟨distinct, each⟩
  · rintro ⟨distinct, each⟩
    exact .object distinct each

/-- The canonical forms of elements are those of each. -/
theorem canonicalElements_eq_map (elements : List Value) :
    canonicalElements elements = elements.map canonical := by
  induction elements with
  | nil => rfl
  | cons element elements inductionHypothesis =>
      rw [canonicalElements, inductionHypothesis, List.map_cons]

/-- The canonical form of a member is that of its value. -/
theorem canonicalMembers_eq_map (members : List (String × Value)) :
    canonicalMembers members = members.map fun named => (named.1, named.2.canonical) := by
  induction members with
  | nil => rfl
  | cons named members inductionHypothesis =>
      rw [canonicalMembers, inductionHypothesis, List.map_cons]

/-- A member with a new key is put among the others. -/
theorem insertMember_perm {key : String} {value : Value} {members : List (String × Value)}
    (absent : key ∉ members.map Prod.fst) :
    (insertMember key value members).Perm ((key, value) :: members) := by
  induction members with
  | nil => exact .refl _
  | cons named members inductionHypothesis =>
      obtain ⟨other, present⟩ := named
      simp only [List.map_cons, List.mem_cons, not_or] at absent
      rw [insertMember]
      split
      · exact .refl _
      · next notBefore =>
          split
          · exact ((inductionHypothesis absent.2).cons _).trans (.swap _ _ _)
          · next notAfter =>
              exact absurd (le_antisymm (not_lt.mp notAfter) (not_lt.mp notBefore)) absent.1

/-- Members with keys of their own are only reordered. -/
theorem settle_perm {members : List (String × Value)} (distinct : (members.map Prod.fst).Nodup) :
    (settle members).Perm members := by
  have settledAfter (settled members : List (String × Value))
      (distinct : ((settled ++ members).map Prod.fst).Nodup) :
      (members.foldl (fun settled member => insertMember member.1 member.2 settled)
        settled).Perm (settled ++ members) := by
    induction members generalizing settled with
    | nil => simp
    | cons named members inductionHypothesis =>
        have moved : (settled ++ named :: members).Perm (named :: settled ++ members) :=
          List.perm_middle
        have nodup := (moved.map Prod.fst).nodup_iff.mp distinct
        have absent : named.1 ∉ settled.map Prod.fst := by
          simp only [List.cons_append, List.map_cons, List.map_append, List.nodup_cons,
            List.mem_append, not_or] at nodup
          exact nodup.1.1
        have inserted := (@insertMember_perm _ named.2 _ absent).append_right members
        exact (inductionHypothesis _ ((inserted.map Prod.fst).nodup_iff.mpr nodup)).trans
          (inserted.trans moved.symm)
  exact settledAfter [] members distinct

/-- Putting a member into its place adds no other member. -/
theorem mem_insertMember {key : String} {value : Value} {members : List (String × Value)}
    {named : String × Value} (among : named ∈ insertMember key value members) :
    named = (key, value) ∨ named ∈ members := by
  induction members with
  | nil => exact .inl (List.mem_singleton.mp among)
  | cons first members inductionHypothesis =>
      obtain ⟨other, present⟩ := first
      rw [insertMember] at among
      split at among
      · exact List.mem_cons.mp among
      · split at among
        · rcases List.mem_cons.mp among with rfl | later
          · exact .inr List.mem_cons_self
          · exact (inductionHypothesis later).imp_right (List.mem_cons_of_mem _)
        · exact (List.mem_cons.mp among).imp_right (List.mem_cons_of_mem _)

/-- Sorting members adds none. -/
theorem mem_of_mem_settle {members : List (String × Value)} {named : String × Value}
    (among : named ∈ settle members) : named ∈ members := by
  have settledAfter (settled members : List (String × Value))
      (among : named ∈ members.foldl
        (fun settled member => insertMember member.1 member.2 settled) settled) :
      named ∈ settled ∨ named ∈ members := by
    induction members generalizing settled with
    | nil => exact .inl among
    | cons first members inductionHypothesis =>
        rcases inductionHypothesis _ among with inserted | later
        · rcases mem_insertMember inserted with rfl | present
          · exact .inr List.mem_cons_self
          · exact .inl present
        · exact .inr (List.mem_cons_of_mem _ later)
  exact (settledAfter [] members among).resolve_left List.not_mem_nil

/-- Members whose keys increase still do so if a member is put into its place. -/
theorem insertMember_increasing {key : String} {value : Value} {members : List (String × Value)}
    (increasing : (members.map Prod.fst).Pairwise (· < ·)) :
    ((insertMember key value members).map Prod.fst).Pairwise (· < ·) := by
  induction members with
  | nil => exact List.pairwise_singleton _ key
  | cons first members inductionHypothesis =>
      obtain ⟨other, present⟩ := first
      obtain ⟨before, others⟩ := List.pairwise_cons.mp increasing
      rw [insertMember]
      split
      · next isBefore =>
          refine List.pairwise_cons.mpr ⟨fun later among => ?_, increasing⟩
          rcases List.mem_cons.mp among with rfl | among
          · exact isBefore
          · exact isBefore.trans (before later among)
      · next notBefore =>
          split
          · next isAfter =>
              refine List.pairwise_cons.mpr ⟨fun later among => ?_, inductionHypothesis others⟩
              obtain ⟨named, inserted, rfl⟩ := List.mem_map.mp among
              rcases mem_insertMember inserted with rfl | kept
              · exact isAfter
              · exact before _ (List.mem_map_of_mem kept)
          · next notAfter =>
              obtain rfl : key = other := le_antisymm (not_lt.mp notAfter) (not_lt.mp notBefore)
              exact increasing

/-- The keys of sorted members increase. -/
theorem settle_increasing (members : List (String × Value)) :
    ((settle members).map Prod.fst).Pairwise (· < ·) := by
  have settledAfter (settled members : List (String × Value))
      (increasing : (settled.map Prod.fst).Pairwise (· < ·)) :
      ((members.foldl (fun settled member => insertMember member.1 member.2 settled)
        settled).map Prod.fst).Pairwise (· < ·) := by
    induction members generalizing settled with
    | nil => exact increasing
    | cons named members inductionHypothesis =>
        exact inductionHypothesis _ (insertMember_increasing increasing)
  exact settledAfter [] members .nil

/-- No object inside a canonical value repeats a key. -/
theorem distinctKeys_canonical (value : Value) : DistinctKeys value.canonical := by
  induction value with
  | scalar value => exact .scalar value
  | array elements each =>
      rw [canonical, canonicalElements_eq_map]
      refine .array fun element among => ?_
      obtain ⟨written, present, rfl⟩ := List.mem_map.mp among
      exact each written present
  | object members each =>
      rw [canonical, canonicalMembers_eq_map]
      refine .object ((settle_increasing _).imp ne_of_lt) fun named among => ?_
      obtain ⟨written, present, rfl⟩ := List.mem_map.mp (mem_of_mem_settle among)
      exact each written present

/-- No object inside the value of a text repeats a key. -/
theorem distinctKeys_of_ofText {text : Text.Bytes} {value : Value}
    (isValue : ofText text = .ok value) : DistinctKeys value := by
  unfold ofText at isValue
  split at isValue
  · next written isWritten =>
      obtain rfl := Except.ok.inj isValue
      exact distinctKeys_canonical written
  · cases isValue

end BooleanQuery.Json.Value
