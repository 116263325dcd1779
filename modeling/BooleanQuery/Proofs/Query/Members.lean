import BooleanQuery.Proofs.Query.Decoding

/-!
# Queries by their members

A query is known by what it holds in each member, and what it holds there depends on one value
only: the one that is given for the member. So an object is decoded member by member, whatever
the order of its keys. An array is the object that gives the names of the members to its
elements in order.
-/

namespace BooleanQuery

open Json (Value)

/-- What a query holds in a member. -/
def Query.assignment (query : Query) : Member → Assignment
  | .kind => .kind query.kind
  | .field => .field query.field
  | .value => .value query.value
  | .boost => .boost query.boost
  | .exclusion => .exclusion query.exclusion
  | .children => .children query.children
  | .tiebreaker => .tiebreaker query.tiebreaker

/-- The elements of an array under the names of the members, in order. -/
def inOrder (elements : List Value) : List (String × Value) :=
  (Member.all.map Member.name).zip elements

/-- The assignment of what is or is not given for a member. -/
def Assignment.ofGiven (member : Member) : Option Value → Except Mismatch Assignment
  | none => .ok (.default member)
  | some given => Assignment.ofMember member given

/-- A value under the name of a member is read as its assignment to this member. -/
theorem Assignment.isNamed_iff {member : Member} {value : Value} {item : Assignment} :
    Assignment.IsNamed (member.name, value) item ↔ Assignment.ofMember member value = .ok item := by
  constructor
  · rintro ⟨sameName, means⟩
    obtain rfl : member = item.member := Member.name_injective sameName
    exact means
  · intro means
    have assigned := member_of_ofMember means
    refine ⟨congrArg Member.name assigned.symm, ?_⟩
    rw [assigned]
    exact means

namespace Query

/-- A query is known by what it holds in its members. -/
@[ext] theorem assignment_ext {query other : Query}
    (same : ∀ member, query.assignment member = other.assignment member) : query = other := by
  obtain ⟨kind, field, value, boost, exclusion, children, tiebreaker⟩ := query
  cases other
  obtain rfl : kind = _ := Assignment.kind.inj (same .kind)
  obtain rfl : field = _ := Assignment.field.inj (same .field)
  obtain rfl : value = _ := Assignment.value.inj (same .value)
  obtain rfl : boost = _ := Assignment.boost.inj (same .boost)
  obtain rfl : exclusion = _ := Assignment.exclusion.inj (same .exclusion)
  obtain rfl : children = _ := Assignment.children.inj (same .children)
  obtain rfl : tiebreaker = _ := Assignment.tiebreaker.inj (same .tiebreaker)
  rfl

@[simp] theorem assignment_empty (member : Member) :
    assignment {} member = .default member := by
  cases member <;> rfl

@[simp] theorem assignment_assign_self (query : Query) (item : Assignment) :
    (query.assign item).assignment item.member = item := by
  cases item <;> rfl

theorem assignment_assign_of_ne {item : Assignment} {member : Member}
    (differ : item.member ≠ member) (query : Query) :
    (query.assign item).assignment member = query.assignment member := by
  cases item <;> cases member <;> first | rfl | exact absurd rfl differ

/-- A member that is not assigned to stays as it is. -/
theorem assignment_foldl_of_not_mem {items : List Assignment} {member : Member}
    (absent : member ∉ items.map Assignment.member) (query : Query) :
    (items.foldl assign query).assignment member = query.assignment member := by
  induction items generalizing query with
  | nil => rfl
  | cons item items inductionHypothesis =>
      rw [List.map_cons, List.mem_cons, not_or] at absent
      rw [List.foldl_cons, inductionHypothesis absent.2,
        assignment_assign_of_ne (Ne.symm absent.1)]

/-- A member that is assigned to once holds what it is assigned. -/
theorem assignment_foldl_of_mem {items : List Assignment}
    (distinct : (items.map Assignment.member).Nodup) {item : Assignment} (present : item ∈ items)
    (query : Query) : (items.foldl assign query).assignment item.member = item := by
  induction items generalizing query with
  | nil => nomatch present
  | cons first items inductionHypothesis =>
      rw [List.map_cons, List.nodup_cons] at distinct
      rw [List.foldl_cons]
      rcases List.mem_cons.mp present with rfl | later
      · rw [assignment_foldl_of_not_mem distinct.1, assignment_assign_self]
      · exact inductionHypothesis distinct.2 later _

/-- The assignments that the members of an object are read as make a query that holds in every
member what is given for it. -/
theorem given_of_isNamed {members : List (String × Value)} {items : List Assignment}
    (distinct : (members.map Prod.fst).Nodup)
    (read : List.Forall₂ Assignment.IsNamed members items) (member : Member) :
    Assignment.ofGiven member (members.lookup member.name) =
      .ok ((ofAssignments items).assignment member) := by
  have names := Assignment.keys_eq_of_isNamed read
  cases found : members.lookup member.name with
  | none =>
      have missing := lookup_eq_none_iff_not_mem.mp found
      rw [names] at missing
      have absent : member ∉ items.map Assignment.member := fun present =>
        missing (List.mem_map_of_mem present)
      rw [ofAssignments, assignment_foldl_of_not_mem absent, assignment_empty]
      rfl
  | some value =>
      obtain ⟨item, present, isNamed⟩ := exists_mem_of_forall₂ read.flip (mem_of_lookup found)
      obtain rfl : member = item.member := Member.name_injective isNamed.1
      rw [names] at distinct
      rw [ofAssignments, assignment_foldl_of_mem (distinct.of_map _) present]
      exact isNamed.2

/-- An object is a query if its keys are names of members, each given once, and the query holds
in every member what is given for it. -/
theorem ofQueryValue_object_iff_given {members : List (String × Value)} {query : Query} :
    ofQueryValue (.object members) = .ok query ↔
      (members.map Prod.fst).Nodup ∧
        (∀ key ∈ members.map Prod.fst, ∃ member : Member, member.name = key) ∧
        ∀ member, Assignment.ofGiven member (members.lookup member.name) =
          .ok (query.assignment member) := by
  rw [ofQueryValue_object_iff_distinct]
  refine and_congr_right fun distinct => ?_
  constructor
  · rintro ⟨items, read, rfl⟩
    refine ⟨fun key present => ?_, given_of_isNamed distinct read⟩
    rw [Assignment.keys_eq_of_isNamed read] at present
    obtain ⟨member, -, named⟩ := List.mem_map.mp present
    exact ⟨member, named⟩
  · rintro ⟨known, given⟩
    have readable : ∀ named ∈ members, ∃ item, Assignment.IsNamed named item := by
      rintro ⟨key, value⟩ present
      obtain ⟨member, rfl⟩ := known key (List.mem_map_of_mem present)
      have means := given member
      rw [lookup_of_mem distinct present] at means
      exact ⟨_, Assignment.isNamed_iff.mpr means⟩
    obtain ⟨items, read⟩ := exists_forall₂ readable
    refine ⟨items, read, ?_⟩
    ext member : 1
    exact Except.ok.inj ((given_of_isNamed distinct read member).symm.trans (given member))

/-- Values in order are assigned as under the names of the members. -/
theorem assignmentsInOrder_eq_ok_iff {places : List Member} {elements : List Value}
    {items : List Assignment} :
    assignmentsInOrder places elements = .ok items ↔
      List.Forall₂ Assignment.IsNamed ((places.map Member.name).zip elements) items := by
  induction places generalizing elements items with
  | nil => simp [assignmentsInOrder, eq_comm]
  | cons member places inductionHypothesis =>
      cases elements with
      | nil => simp [assignmentsInOrder, eq_comm]
      | cons element elements =>
          simp only [assignmentsInOrder, bind_eq_ok_iff, Except.ok.injEq, inductionHypothesis,
            List.map_cons, List.zip_cons_cons, List.forall₂_cons_left_iff, Assignment.isNamed_iff]
          constructor
          · rintro ⟨item, means, later, others, rfl⟩
            exact ⟨item, later, means, others, rfl⟩
          · rintro ⟨item, later, means, others, rfl⟩
            exact ⟨item, means, later, others, rfl⟩

/-- The names of the members in order are distinct, however many of them are given. -/
theorem nodup_inOrder (elements : List Value) : ((inOrder elements).map Prod.fst).Nodup := by
  have firstNames : ((inOrder elements).map Prod.fst).Sublist (Member.all.map Member.name) := by
    rw [inOrder, List.zip_eq_zip_take_min, List.map_fst_zip (by simp)]
    exact List.take_sublist _ _
  have distinct : (Member.all.map Member.name).Nodup := by decide
  exact distinct.sublist firstNames

/-- An array is the object that gives the names of the members to its elements in order. -/
theorem ofQueryValue_array_iff_object {elements : List Value} {query : Query} :
    ofQueryValue (.array elements) = .ok query ↔
      elements.length ≤ Member.all.length ∧
        ofQueryValue (.object (inOrder elements)) = .ok query := by
  rw [ofQueryValue, bind_eq_ok_iff, ofQueryValue_object_iff_distinct,
    and_iff_right (nodup_inOrder elements)]
  simp only [withinMembers_eq_ok_iff, assignmentsInOrder_eq_ok_iff]
  constructor
  · rintro ⟨items, read, within, made⟩
    exact ⟨within, items, read, made⟩
  · rintro ⟨within, items, read, made⟩
    exact ⟨items, read, within, made⟩

end Query

end BooleanQuery
