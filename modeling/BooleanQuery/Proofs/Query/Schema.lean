import BooleanQuery.Proofs.Binary.Rounding
import BooleanQuery.Proofs.Query.Members

/-!
# The schema of queries

Which values are queries, and what each member of them means, is said here without the
decoder: `Holds` is the grammar of query values, in both of their spellings, and `Fits` that of
what may stand in the place of a member. Decoding succeeds exactly for the values of the
grammar, and yields the one query that the grammar gives them.

Both directions follow from what is known of each member: the value that is given for it is
decoded as an assignment exactly if it fits with this assignment.
-/

namespace BooleanQuery

open Json (Value Scalar Number)
open Binary (Format)

/-- A weight is what a number of a document is rounded to. -/
def Weight.IsNearest (number : Number) (weight : Weight) : Prop :=
  match number with
  | .integer value =>
      weight.negative = decide (value < 0) ∧ Format.single.IsNearest |(value : ℚ)| weight.magnitude
  | .float value =>
      weight.negative = value.negative ∧
        Format.single.IsNearest (Format.double.value value.magnitude) weight.magnitude

/-- A number is rounded to the nearest weight. -/
theorem Weight.isNearest_ofNumber (number : Number) :
    (Weight.ofNumber number).IsNearest number := by
  have even : Even Format.single.unit := by decide
  cases number with
  | integer value => exact ⟨rfl, Binary.Word.isNearest_ofInt even value⟩
  | float value =>
      refine ⟨value.negative_convert, ?_⟩
      exact value.isNearest_convert even Binary.value_infinity_single_le_double

/-- A number is rounded to one weight only. -/
theorem Weight.isNearest_iff {number : Number} {weight : Weight} :
    weight.IsNearest number ↔ Weight.ofNumber number = weight := by
  constructor
  · intro nearest
    have made := Weight.isNearest_ofNumber number
    cases number with
    | integer value =>
        exact Binary.Word.eq_of_isNearest (made.1.trans nearest.1.symm) made.2 nearest.2
    | float value =>
        exact Binary.Word.eq_of_isNearest (made.1.trans nearest.1.symm) made.2 nearest.2
  · rintro rfl
    exact Weight.isNearest_ofNumber number

/-- What a scalar says in the place of a kind: the name of one of the four kinds, or an integer
of 32 bits, which may also number no kind. -/
inductive Kind.IsMeant : Scalar → Kind → Prop where
  | named {kind : Kind} (known : ∀ number, kind ≠ .unknown number) :
      Kind.IsMeant (.text kind.name) kind
  | numbered {value : Int} (low : -2147483648 ≤ value) (high : value ≤ 2147483647) :
      Kind.IsMeant (.number (.integer value)) (.ofNumber (Int32.ofInt value))

/-- A kind is found exactly under its name, if it has one of its own. -/
theorem Kind.ofName?_eq_some_iff {name : String} {kind : Kind} :
    Kind.ofName? name = some kind ↔ name = kind.name ∧ ∀ number, kind ≠ .unknown number := by
  constructor
  · intro found
    unfold Kind.ofName? at found
    split_ifs at found with isTerm isAnd isOr isDisMax
    · cases found
      exact ⟨isTerm, nofun⟩
    · cases found
      exact ⟨isAnd, nofun⟩
    · cases found
      exact ⟨isOr, nofun⟩
    · cases found
      exact ⟨isDisMax, nofun⟩
  · rintro ⟨rfl, known⟩
    cases kind with
    | unknown number => exact absurd rfl (known number)
    | _ => decide

/-- A scalar is read as the kind that it says. -/
theorem Kind.ofScalar_eq_ok_iff {scalar : Scalar} {kind : Kind} :
    Kind.ofScalar scalar = .ok kind ↔ kind.IsMeant scalar := by
  constructor
  · intro read
    unfold Kind.ofScalar at read
    split at read
    · next name =>
        split at read
        · next found =>
            cases read
            obtain ⟨rfl, known⟩ := Kind.ofName?_eq_some_iff.mp found
            exact .named known
        · cases read
    · next value =>
        split at read
        · next within =>
            cases read
            exact .numbered within.1 within.2
        · cases read
    · cases read
  · rintro (known | ⟨low, high⟩)
    · have found := Kind.ofName?_eq_some_iff.mpr ⟨rfl, known⟩
      simp only [Kind.ofScalar, found]
    · exact if_pos ⟨low, high⟩

namespace Schema

mutual

/-- A value holds a query. -/
inductive Holds : Value → Query → Prop where
  | object {members : List (String × Value)} {query : Query}
      (distinct : (members.map Prod.fst).Nodup)
      (known : ∀ key ∈ members.map Prod.fst, ∃ member : Member, member.name = key)
      (fits : ∀ member : Member,
        Fits member (members.lookup member.name) (query.assignment member)) :
      Holds (.object members) query
  | array {elements : List Value} {query : Query}
      (within : elements.length ≤ Member.all.length)
      (fits : ∀ member : Member,
        Fits member ((inOrder elements).lookup member.name) (query.assignment member)) :
      Holds (.array elements) query

/-- What is or is not given for a member means an assignment. -/
inductive Fits : Member → Option Value → Assignment → Prop where
  | absent (member : Member) : Fits member none (.default member)
  | null (member : Member) : Fits member (some (.scalar .null)) (.default member)
  | kind {scalar : Scalar} {kind : Kind} (meant : kind.IsMeant scalar) :
      Fits .kind (some (.scalar scalar)) (.kind kind)
  | field (text : String) : Fits .field (some (.scalar (.text text))) (.field text)
  | value (text : String) : Fits .value (some (.scalar (.text text))) (.value text)
  | boost {number : Number} {weight : Weight} (nearest : weight.IsNearest number) :
      Fits .boost (some (.scalar (.number number))) (.boost weight)
  | tiebreaker {number : Number} {weight : Weight} (nearest : weight.IsNearest number) :
      Fits .tiebreaker (some (.scalar (.number number))) (.tiebreaker weight)
  | exclusion {value : Value} {query : Query} (holds : Holds value query) :
      Fits .exclusion (some value) (.exclusion (some query))
  | children {elements : List Value} {queries : List Query}
      (each : List.Forall₂ Holds elements queries) :
      Fits .children (some (.array elements)) (.children queries)

end

theorem stringOfScalar_eq_ok_iff {scalar : Scalar} {text : String} :
    stringOfScalar scalar = .ok text ↔ scalar = .text text := by
  cases scalar <;> simp [stringOfScalar]

theorem weightOfScalar_eq_ok_iff {scalar : Scalar} {weight : Weight} :
    Weight.ofScalar scalar = .ok weight ↔
      ∃ number, scalar = .number number ∧ weight.IsNearest number := by
  simp only [Weight.isNearest_iff]
  cases scalar <;> simp [Weight.ofScalar]

/-- A scalar other than null is decoded in the place of a member as the grammar says. -/
theorem ofScalar_iff_fits_of_ne_null {member : Member} {scalar : Scalar} (present : scalar ≠ .null)
    {item : Assignment} :
    Assignment.ofScalar member scalar = .ok item ↔ Fits member (some (.scalar scalar)) item := by
  unfold Assignment.ofScalar
  rw [if_neg present]
  cases member with
  | kind =>
      rw [map_eq_ok_iff]
      simp only [Kind.ofScalar_eq_ok_iff]
      constructor
      · rintro ⟨kind, meant, rfl⟩
        exact .kind meant
      · rintro (_ | _ | meant)
        · exact absurd rfl present
        · exact ⟨_, meant, rfl⟩
  | field | value =>
      rw [map_eq_ok_iff]
      simp only [stringOfScalar_eq_ok_iff]
      constructor
      · rintro ⟨text, rfl, rfl⟩
        constructor
      · intro fits
        cases fits
        · exact absurd rfl present
        · exact ⟨_, rfl, rfl⟩
  | boost | tiebreaker =>
      rw [map_eq_ok_iff]
      simp only [weightOfScalar_eq_ok_iff]
      constructor
      · rintro ⟨weight, ⟨number, rfl, nearest⟩, rfl⟩
        constructor
        exact nearest
      · intro fits
        cases fits
        · exact absurd rfl present
        · next nearest => exact ⟨_, ⟨_, rfl, nearest⟩, rfl⟩
  | exclusion =>
      constructor
      · nofun
      · intro fits
        cases fits with
        | null => exact absurd rfl present
        | exclusion holds => nomatch holds
  | children =>
      constructor
      · nofun
      · intro fits
        cases fits with
        | null => exact absurd rfl present

/-- A scalar is decoded in the place of a member as the grammar says. -/
theorem ofScalar_iff_fits {member : Member} {scalar : Scalar} {item : Assignment} :
    Assignment.ofScalar member scalar = .ok item ↔ Fits member (some (.scalar scalar)) item := by
  by_cases isNull : scalar = .null
  · subst isNull
    unfold Assignment.ofScalar
    rw [if_pos rfl]
    constructor
    · rintro ⟨⟩
      exact .null member
    · intro fits
      cases fits with
      | null => rfl
      | kind meant => nomatch meant
      | exclusion holds => nomatch holds
  · exact ofScalar_iff_fits_of_ne_null isNull

/-- Decoding a value agrees with the grammar. -/
structure Agrees (value : Value) : Prop where
  query : ∀ query, Query.ofQueryValue value = .ok query ↔ Holds value query
  assignment : ∀ member item, Assignment.ofMember member value = .ok item ↔
    Fits member (some value) item

theorem agrees_scalar (scalar : Scalar) : Agrees (.scalar scalar) where
  query _ := ⟨nofun, nofun⟩
  assignment _ _ := ofScalar_iff_fits

/-- What is or is not given for a member is decoded as the grammar says. -/
theorem ofGiven_iff_fits {members : List (String × Value)}
    (each : ∀ named ∈ members, Agrees named.2) {member : Member} {item : Assignment} :
    Assignment.ofGiven member (members.lookup member.name) = .ok item ↔
      Fits member (members.lookup member.name) item := by
  cases found : members.lookup member.name with
  | none =>
      constructor
      · rintro ⟨⟩
        exact .absent member
      · rintro ⟨⟩
        rfl
  | some value => exact (each _ (mem_of_lookup found)).assignment member item

/-- An exclusion other than null is decoded as the grammar says, if it is so as a query. -/
theorem ofExclusion_iff_fits {value : Value} (present : value ≠ .scalar .null)
    (agrees : ∀ query, Query.ofQueryValue value = .ok query ↔ Holds value query)
    {item : Assignment} :
    ((Query.ofQueryValue value).map fun query => Assignment.exclusion (some query)) = .ok item ↔
      Fits .exclusion (some value) item := by
  simp only [map_eq_ok_iff, agrees]
  constructor
  · rintro ⟨query, holds, rfl⟩
    exact .exclusion holds
  · intro fits
    cases fits with
    | null => exact absurd rfl present
    | exclusion holds => exact ⟨_, holds, rfl⟩

/-- An object is decoded as the grammar says, if the values of its members are. -/
theorem agrees_object {members : List (String × Value)}
    (each : ∀ named ∈ members, Agrees named.2) : Agrees (.object members) := by
  have query (query : Query) :
      Query.ofQueryValue (.object members) = .ok query ↔ Holds (.object members) query := by
    simp only [Query.ofQueryValue_object_iff_given, ofGiven_iff_fits each]
    constructor
    · rintro ⟨distinct, known, fits⟩
      exact .object distinct known fits
    · rintro (⟨distinct, known, fits⟩ | _)
      exact ⟨distinct, known, fits⟩
  have present : Value.object members ≠ .scalar .null := nofun
  refine ⟨query, fun member item => ?_⟩
  cases member with
  | exclusion => exact ofExclusion_iff_fits present query
  | _ => exact ⟨nofun, nofun⟩

/-- Queries one after another are decoded as the grammar says, if each of them is. -/
theorem ofQueryValues_iff_forall₂ {elements : List Value}
    (each : ∀ element ∈ elements, Agrees element) {queries : List Query} :
    Query.ofQueryValues elements = .ok queries ↔ List.Forall₂ Holds elements queries := by
  induction elements generalizing queries with
  | nil => simp [Query.ofQueryValues, eq_comm]
  | cons element elements inductionHypothesis =>
      have others := fun {queries} => @inductionHypothesis (fun other member =>
        each other (List.mem_cons_of_mem _ member)) queries
      simp only [Query.ofQueryValues, bind_eq_ok_iff, Except.ok.injEq, others,
        (each element List.mem_cons_self).query, List.forall₂_cons_left_iff]
      constructor
      · rintro ⟨query, holds, later, more, rfl⟩
        exact ⟨query, later, holds, more, rfl⟩
      · rintro ⟨query, later, holds, more, rfl⟩
        exact ⟨query, holds, later, more, rfl⟩

/-- An array is decoded as the grammar says, if its elements are: as a query, it is the object
that names them in order. -/
theorem agrees_array {elements : List Value} (each : ∀ element ∈ elements, Agrees element) :
    Agrees (.array elements) := by
  have eachNamed : ∀ named ∈ inOrder elements, Agrees named.2 := fun named present =>
    each named.2 (List.of_mem_zip present).2
  have known : ∀ key ∈ (inOrder elements).map Prod.fst, ∃ member : Member, member.name = key := by
    intro key present
    obtain ⟨named, among, rfl⟩ := List.mem_map.mp present
    obtain ⟨member, -, isName⟩ := List.mem_map.mp (List.of_mem_zip among).1
    exact ⟨member, isName⟩
  have query (query : Query) :
      Query.ofQueryValue (.array elements) = .ok query ↔ Holds (.array elements) query := by
    rw [Query.ofQueryValue_array_iff_object, Query.ofQueryValue_object_iff_given,
      and_iff_right (Query.nodup_inOrder elements), and_iff_right known]
    simp only [ofGiven_iff_fits eachNamed]
    constructor
    · rintro ⟨within, fits⟩
      exact .array within fits
    · rintro (_ | ⟨within, fits⟩)
      exact ⟨within, fits⟩
  have present : Value.array elements ≠ .scalar .null := nofun
  refine ⟨query, fun member item => ?_⟩
  cases member with
  | exclusion => exact ofExclusion_iff_fits present query
  | children =>
      change (Query.ofQueryValues elements).map _ = _ ↔ _
      rw [map_eq_ok_iff]
      simp only [ofQueryValues_iff_forall₂ each]
      constructor
      · rintro ⟨queries, holds, rfl⟩
        exact .children holds
      · intro fits
        cases fits with
        | children holds => exact ⟨_, holds, rfl⟩
  | _ => exact ⟨nofun, nofun⟩

theorem agrees (value : Value) : Agrees value := by
  induction value with
  | scalar scalar => exact agrees_scalar scalar
  | array elements onElements => exact agrees_array onElements
  | object members onValues => exact agrees_object onValues

/-- A value is decoded as the query that it holds by the grammar. -/
theorem ofValue_eq_ok_some_iff {value : Value} {query : Query} :
    Query.ofValue value = .ok (some query) ↔ Holds value query := by
  unfold Query.ofValue
  split
  · exact ⟨nofun, nofun⟩
  · rw [map_eq_ok_iff]
    simp only [Option.some.injEq, exists_eq_right, (agrees value).query]

/-- Only null is decoded as no query. -/
theorem ofValue_eq_ok_none_iff {value : Value} :
    Query.ofValue value = .ok none ↔ value = .scalar .null := by
  unfold Query.ofValue
  split
  · simp
  · next notNull =>
      simp only [map_eq_ok_iff, reduceCtorEq, and_false, exists_false, false_iff]
      exact notNull

theorem ofValue_eq_error_iff {value : Value} :
    (∃ mismatch, Query.ofValue value = .error mismatch) ↔
      value ≠ .scalar .null ∧ ∀ query, ¬ Holds value query := by
  simp only [← ofValue_eq_ok_some_iff, Ne, ← ofValue_eq_ok_none_iff]
  rcases Query.ofValue value with mismatch | (_ | query) <;> simp

section Nulls

/-- An object holds a query if its keys are names of members, each given once, and fit. -/
theorem holds_object_iff {members : List (String × Value)} {query : Query} :
    Holds (.object members) query ↔
      (members.map Prod.fst).Nodup ∧
        (∀ key ∈ members.map Prod.fst, ∃ member : Member, member.name = key) ∧
        ∀ member : Member, Fits member (members.lookup member.name) (query.assignment member) := by
  constructor
  · rintro (⟨distinct, known, fits⟩ | _)
    exact ⟨distinct, known, fits⟩
  · rintro ⟨distinct, known, fits⟩
    exact .object distinct known fits

theorem holds_array_iff_object {elements : List Value} {query : Query} :
    Holds (.array elements) query ↔
      elements.length ≤ Member.all.length ∧ Holds (.object (inOrder elements)) query := by
  rw [← (agrees _).query, ← (agrees _).query]
  exact Query.ofQueryValue_array_iff_object

/-- Null fits as an absent value does. -/
theorem fits_null_iff {member : Member} {item : Assignment} :
    Fits member (some (.scalar .null)) item ↔ Fits member none item := by
  constructor
  · intro fits
    cases fits with
    | null => exact .absent member
    | kind meant => nomatch meant
    | exclusion holds => nomatch holds
  · rintro ⟨⟩
    exact .null member

variable {member : Member} {before after : List (String × Value)} {query : Query}

/-- A member of an object may be left out instead of being null. -/
theorem holds_object_null_iff :
    Holds (.object (before ++ (member.name, .scalar .null) :: after)) query ↔
      member.name ∉ (before ++ after).map Prod.fst ∧ Holds (.object (before ++ after)) query := by
  rw [holds_object_iff, holds_object_iff]
  have keys : (before ++ (member.name, Value.scalar .null) :: after).map Prod.fst =
      before.map Prod.fst ++ member.name :: after.map Prod.fst := by
    rw [List.map_append, List.map_cons]
  rw [keys, List.nodup_middle, List.nodup_cons, ← List.map_append, and_assoc]
  refine and_congr_right fun missing => and_congr_right fun _ => and_congr ?_ ?_
  · simp only [List.map_append, List.mem_append, List.mem_cons, or_left_comm, forall_eq_or_imp,
      exists_apply_eq_apply, true_and]
  · refine forall_congr' fun other => ?_
    by_cases same : other = member
    · subst same
      have notBefore : other.name ∉ before.map Prod.fst := fun present =>
        missing (List.map_append ▸ List.mem_append_left _ present)
      rw [lookup_middle_self notBefore, lookup_eq_none_iff_not_mem.mpr missing, fits_null_iff]
    · rw [lookup_middle_of_ne (mt (@Member.name_injective _ _) same)]

/-- An element more in an array is given under the name of the next member. -/
theorem inOrder_concat {elements : List Value} (within : elements.length < Member.all.length)
    (value : Value) :
    ∃ member : Member,
      inOrder (elements ++ [value]) = inOrder elements ++ [(member.name, value)] := by
  have split (others : List Value) : inOrder (elements ++ others) =
      ((Member.all.take elements.length).map Member.name).zip elements ++
        ((Member.all.drop elements.length).map Member.name).zip others := by
    rw [← List.zip_append (by simp [within.le]), ← List.map_append, List.take_append_drop]
    rfl
  have whole := split []
  rw [List.append_nil, List.zip_nil_right, List.append_nil] at whole
  obtain ⟨member, later, next⟩ := List.exists_cons_of_length_pos
    (List.length_drop ▸ Nat.sub_pos_of_lt within : 0 < (Member.all.drop elements.length).length)
  refine ⟨member, ?_⟩
  rw [split, whole, next, List.map_cons, List.zip_cons_cons, List.zip_nil_right]

/-- The last element of an array may be left out instead of being null. -/
theorem holds_array_null_iff {elements : List Value} :
    Holds (.array (elements ++ [.scalar .null])) query ↔
      elements.length < Member.all.length ∧ Holds (.array elements) query := by
  rw [holds_array_iff_object, holds_array_iff_object, List.length_append, List.length_singleton,
    Nat.succ_le_iff]
  constructor
  · rintro ⟨within, holds⟩
    obtain ⟨member, named⟩ := inOrder_concat within (.scalar .null)
    rw [named, holds_object_null_iff, List.append_nil] at holds
    exact ⟨within, within.le, holds.2⟩
  · rintro ⟨within, -, holds⟩
    obtain ⟨member, named⟩ := inOrder_concat within (.scalar .null)
    have distinct := Query.nodup_inOrder (elements ++ [.scalar .null])
    rw [named, List.map_append, List.nodup_append] at distinct
    rw [named, holds_object_null_iff, List.append_nil]
    refine ⟨within, fun present => ?_, holds⟩
    exact distinct.2.2 _ present _ List.mem_cons_self rfl

end Nulls

/-- A value is decoded as no query if it is null, as the query that it holds by the grammar if
there is one, and refused otherwise. What is null may as well be absent: any member of an
object, and what stands last in an array. -/
theorem ofValue_iff_schema :
    (∀ value, Query.ofValue value = .ok none ↔ value = .scalar .null) ∧
    (∀ value query, Query.ofValue value = .ok (some query) ↔ Holds value query) ∧
    (∀ value, (∃ mismatch, Query.ofValue value = .error mismatch) ↔
      value ≠ .scalar .null ∧ ∀ query, ¬ Holds value query) ∧
    (∀ (member : Member) before after query,
      Query.ofValue (.object (before ++ (member.name, .scalar .null) :: after)) = .ok (some query) ↔
        member.name ∉ (before ++ after).map Prod.fst ∧
          Query.ofValue (.object (before ++ after)) = .ok (some query)) ∧
    ∀ elements query, Query.ofValue (.array (elements ++ [.scalar .null])) = .ok (some query) ↔
      elements.length < Member.all.length ∧
        Query.ofValue (.array elements) = .ok (some query) := by
  refine ⟨fun _ => ofValue_eq_ok_none_iff, fun _ _ => ofValue_eq_ok_some_iff,
    fun _ => ofValue_eq_error_iff, fun member before after query => ?_, fun elements query => ?_⟩
  · rw [ofValue_eq_ok_some_iff, ofValue_eq_ok_some_iff]
    exact holds_object_null_iff
  · rw [ofValue_eq_ok_some_iff, ofValue_eq_ok_some_iff]
    exact holds_array_null_iff

end Schema

end BooleanQuery
