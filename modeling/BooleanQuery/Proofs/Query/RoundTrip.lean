import BooleanQuery.Proofs.Json.Restoring
import BooleanQuery.Proofs.Query.Decoding
import BooleanQuery.Proofs.Query.Weight
import BooleanQuery.Proofs.Query.Written

/-!
# Queries are read back from their texts

The text of a query decodes to the query, as long as the text opens no more brackets inside
each other than may be opened; a text with more of them is refused for this reason and no
other. The two cases are proved together, by induction on the tree: a subtree that does not
fit is reached after everything before it has been read.

Its kinds must be those of numbers, because a known kind is written by its name. That is all that
is needed for its text to be decoded, but to get the same query its weights must be finite: only
these are written as numbers, and the others as null, which is read as zero.
-/

namespace BooleanQuery

open Text (encode)
open Json (Reader Number Restores quoted commaSeparated bracketed greatestNesting restores_quoted
  restores_number restores_null startsScalar_quoted startsScalar_number startsScalar_null
  restores_elements restores_members restores_keyed startsItem_keyed startsItem_object
  takes_number_integerText)

/-- A weight is read back from its text. -/
structure Weight.Restorable (weight : Weight) : Prop where
  finite : weight.isFinite
  reads : weight.isZero = false → ∃ number : Number,
    (Json.number : Reader Mismatch Number).run (encode weight.json) = .ok (number, []) ∧
      Weight.ofNumber number = weight

/-- What a node must be like for its text to be read back. -/
structure Query.Restorable (node : Query) : Prop where
  kind : ∃ number, node.kind = Kind.ofNumber number
  boost : node.boost.Restorable
  tiebreaker : node.tiebreaker.Restorable

theorem Kind.eq_of_unknown_eq_ofNumber {number other : Int32}
    (shape : Kind.unknown number = Kind.ofNumber other) : number = other := by
  unfold Kind.ofNumber at shape
  grind

/-- Exactly the finite weights are read back. -/
theorem Weight.restorable_iff {weight : Weight} : weight.Restorable ↔ weight.isFinite = true :=
  ⟨Restorable.finite, fun finite => ⟨finite, Weight.reads_json finite⟩⟩

namespace Query

theorem restores_quotedMember {text : String} {member : Member} {made : Assignment}
    (assigned : Assignment.ofScalar member (.text text) = .ok made)
    (list object : Reader Mismatch Assignment) :
    Restores (bracketed list object (scalarMember member)) (quoted text) made True :=
  ((restores_quoted text).refine assigned).bracketed_other (startsScalar_quoted text) _ _

/-- A number is restored in the place of a member, if it stands for the assignment. -/
theorem restores_numberMember {written : List Char} {number : Number} {member : Member}
    {made : Assignment}
    (taken : (Json.number : Reader Mismatch Number).run (encode written) = .ok (number, []))
    (assigned : Assignment.ofScalar member (.number number) = .ok made)
    (list object : Reader Mismatch Assignment) :
    Restores (bracketed list object (scalarMember member)) written made True :=
  ((restores_number taken).refine assigned).bracketed_other (startsScalar_number taken) _ _

/-- A kind is restored from its name or its number. -/
theorem restores_kind {kind : Kind} (numbered : ∃ number, kind = Kind.ofNumber number)
    (list object : Reader Mismatch Assignment) :
    Restores (bracketed list object (scalarMember .kind)) kind.json (.kind kind) True := by
  cases kind with
  | unknown number =>
      have low := number.le_toInt
      have high := number.toInt_lt
      have same : Kind.ofNumber number = .unknown number := by
        obtain ⟨other, shape⟩ := numbered
        obtain rfl := Kind.eq_of_unknown_eq_ofNumber shape
        exact shape.symm
      have taken : (Json.number : Reader Mismatch Number).run
          (encode (Kind.json (.unknown number))) = .ok (.integer number.toInt, []) :=
        takes_number_integerText (by simp only [Json.greatestNegated]; omega)
          (by simp only [Json.greatestSignificand]; omega)
      refine restores_numberMember taken ?_ list object
      change (Kind.ofScalar (.number (.integer number.toInt))).map Assignment.kind = _
      rw [Kind.ofScalar, if_pos ⟨by omega, by omega⟩, Int32.ofInt_toInt, same]
      rfl
  | _ => exact restores_quotedMember rfl list object

/-- A weight that is not zero is restored from its text, and the default from that of a weight
that is not finite. -/
theorem restores_weight {weight : Weight} (nonzero : weight.isZero = false) {member : Member}
    {make : Weight → Assignment}
    (assigned : ∀ number, Assignment.ofScalar member (.number number) =
      .ok (make (Weight.ofNumber number)))
    (isDefault : Assignment.ofScalar member .null = .ok (make .zero))
    (list object : Reader Mismatch Assignment) :
    Restores (bracketed list object (scalarMember member)) weight.json (make weight.readBack)
      True := by
  cases finite : weight.isFinite with
  | true =>
      obtain ⟨number, taken, same⟩ := Weight.reads_json finite nonzero
      rw [Weight.readBack_of_finite finite nonzero]
      exact restores_numberMember taken (same ▸ assigned number) list object
  | false =>
      have written : weight.json = "null".toList := if_neg (by simp [finite])
      rw [written, Weight.readBack_of_not_finite finite]
      exact (restores_null.refine isDefault).bracketed_other startsScalar_null _ _

/-- The readers after an opening brace restore a query from its text. -/
def RestoresInside (query : Query) : Prop :=
  ∀ nesting, Restores (forms nesting).object query.bodyJson query.readBack
    (query.brackets ≤ nesting)

/-- Children are restored after the opening bracket of their list, which counts. -/
theorem restores_children {children : List Query} (present : children ≠ [])
    (each : ∀ child ∈ children, RestoresInside child) (nesting : Nat) :
    Restores (forms nesting).children (commaSeparated (children.map json) ++ [']'])
      (readBackAll children) (childrenBrackets children ≤ nesting) := by
  cases nesting with
  | zero =>
      refine .tooDeep ?_
      cases children with
      | nil => exact absurd rfl present
      | cons child children =>
          rw [childrenBrackets]
          omega
  | succ nesting =>
      rw [readBackAll_eq_map]
      refine (restores_elements fun earlier child later shape => ?_).congr
        childrenBrackets_le_succ_iff.symm
      have among : child ∈ children := by simp [shape]
      rw [json_eq]
      exact ⟨startsItem_object _, (each child among nesting).bracketed_object _ _⟩

/-- A member that is written is restored. -/
theorem restores_memberValue {query : Query}
    (numbered : ∃ number, query.kind = Kind.ofNumber number)
    (onChildren : ∀ child ∈ query.children, RestoresInside child)
    (onExclusion : ∀ excluded ∈ query.exclusion, RestoresInside excluded) (nesting : Nat)
    {member : Member} (written : query.holdsDefault member = false) :
    Restores (memberValue nesting (fun _ => forms nesting) member) (query.memberJson member)
      (query.memberReadBack member) (query.memberBrackets member ≤ nesting) := by
  have withoutBrackets : True ↔ 0 ≤ nesting := by simp
  cases member with
  | kind => exact (restores_kind numbered _ _).congr withoutBrackets
  | field => exact (restores_quotedMember rfl _ _).congr withoutBrackets
  | value => exact (restores_quotedMember rfl _ _).congr withoutBrackets
  | boost =>
      exact (restores_weight written (fun _ => rfl) rfl _ _).congr withoutBrackets
  | tiebreaker =>
      exact (restores_weight written (fun _ => rfl) rfl _ _).congr withoutBrackets
  | exclusion =>
      cases found : query.exclusion with
      | none => simp [holdsDefault, found] at written
      | some excluded =>
          simp only [memberJson, memberReadBack, memberBrackets, found, Option.elim_some, json_eq,
            readBackOption, exclusionBrackets]
          exact ((onExclusion excluded found nesting).map _).bracketed_object _ _
  | children =>
      have present : query.children ≠ [] := by
        intro empty
        simp [holdsDefault, empty] at written
      exact ((restores_children present onChildren nesting).map _).bracketed_list _ _

/-- A member that is not among those before it is read after a colon. -/
theorem namedMember_of_fresh {value : Member → Reader Mismatch Assignment}
    {before : List Assignment} {member : Member}
    (fresh : ∀ earlier ∈ before, earlier.member ≠ member) :
    namedMember value before member.name = Json.colon.andThen fun _ => value member := by
  have unrepeated : ¬before.any (·.member = member) = true := by
    rw [List.any_eq_true]
    rintro ⟨earlier, present, same⟩
    exact fresh earlier present (of_decide_eq_true same)
  simp only [namedMember, Member.ofName?_eq_some_iff.mpr rfl, if_neg unrepeated]

/-- The text of a query is restored inside its braces. -/
theorem restoresInside {query : Query}
    (numbered : ∀ node ∈ query.preorder, ∃ number, node.kind = Kind.ofNumber number) :
    RestoresInside query := by
  induction query with
  | node query onChildren onExclusion =>
      have children (child : Query) (present : child ∈ query.children) : RestoresInside child :=
        onChildren child present fun node within =>
          numbered node (mem_preorder_of_child present within)
      have exclusion (excluded : Query) (present : excluded ∈ query.exclusion) :
          RestoresInside excluded :=
        onExclusion excluded present fun node within =>
          numbered node (mem_preorder_of_exclusion present within)
      -- The nesting stays general up to here, because a subtree is met with a smaller one.
      intro nesting
      cases nesting with
      | zero =>
          refine .tooDeep ?_
          obtain ⟨kind, field, value, boost, exclusion, children, tiebreaker⟩ := query
          rw [brackets]
          omega
      | succ nesting =>
          rw [← ofAssignments_writtenMembers]
          refine ((restores_members fun earlier member later shape => ?_).map ofAssignments).congr
            brackets_le_succ_iff.symm
          have distinct : query.writtenMembers.Nodup :=
            List.Nodup.filter _ (by decide)
          have among : member ∈ query.writtenMembers := by simp [shape]
          have written : query.holdsDefault member = false := by
            simpa using (List.mem_filter.mp among).2
          refine ⟨startsItem_keyed _ _, restores_keyed (namedMember_of_fresh ?_)
            (restores_memberValue (numbered query (self_mem_preorder query)) children exclusion nesting
              written)⟩
          intro assignment before same
          obtain ⟨other, present, rfl⟩ := List.mem_map.mp before
          rw [member_memberReadBack] at same
          rw [shape, List.nodup_append] at distinct
          exact distinct.2.2 other present member (by simp) same

theorem restores_json_of_numbered {query : Query}
    (numbered : ∀ node ∈ query.preorder, ∃ number, node.kind = Kind.ofNumber number) :
    Restores reader query.json (some query.readBack) (query.brackets ≤ greatestNesting) := by
  rw [json_eq]
  exact ((restoresInside numbered greatestNesting).map some).bracketed_object _ _

/-- The text of a query restores it up to the sign of its zeros, if its brackets may be opened. -/
theorem restores_json {query : Query} (restorable : ∀ node ∈ query.preorder, node.Restorable) :
    Restores reader query.json (some query.readBack) (query.brackets ≤ greatestNesting) :=
  restores_json_of_numbered fun node within => (restorable node within).kind

theorem bytesOf_text (query : Query) : Text.bytesOf query.text = encode query.json := by
  rw [Text.bytesOf, text, String.toList_ofList]

/-- A text whose brackets may be opened is decoded as what is read back. -/
theorem ofText_of_numbered {query : Query}
    (numbered : ∀ node ∈ query.preorder, ∃ number, node.kind = Kind.ofNumber number)
    (fit : query.brackets ≤ greatestNesting) :
    ofText (Text.bytesOf query.text) = .ok (some query.readBack) := by
  rw [bytesOf_text, ofText, (restores_json_of_numbered numbered).document.1 fit]
  rfl

/-- A text of a query that can be restored is decoded if its brackets may be opened. -/
theorem ofText_of_fit {query : Query} (restorable : ∀ node ∈ query.preorder, node.Restorable)
    (fit : query.brackets ≤ greatestNesting) :
    ofText (Text.bytesOf query.text) = .ok (some query.readBack) :=
  ofText_of_numbered (fun node within => (restorable node within).kind) fit

/-- Decoding the text of a query gives a query that agrees with it if the text opens at most
as many brackets inside each other as may be opened, and else fails because it opens more. -/
theorem ofText_text (query : Query) (restorable : ∀ node ∈ query.preorder, node.Restorable) :
    (query.brackets ≤ greatestNesting →
      ∃ restored, ofText (Text.bytesOf query.text) = .ok (some restored) ∧
        restored.agrees query = true) ∧
    (greatestNesting < query.brackets →
      ∃ position, ofText (Text.bytesOf query.text) =
        .error ⟨.malformed .nestingTooDeep, some position⟩) := by
  constructor
  · intro fit
    refine ⟨query.readBack, ofText_of_fit restorable fit, agrees_readBack fun node within =>
      ⟨(restorable node within).boost.finite, (restorable node within).tiebreaker.finite⟩⟩
  · intro unfit
    obtain ⟨unread, refused⟩ := (restores_json restorable).document.2 (Nat.not_le_of_lt unfit)
    rw [bytesOf_text, ofText, refused]
    exact ⟨_, rfl⟩

section Boundary

/-- Two and a half. -/
def twoAndAHalf : Weight := .ofBits 0x40200000

/-- A query with both kinds of subtree, a kind without a name, a negative zero, and strings
with characters that are escaped or have several bytes. -/
def mixed : Query where
  kind := .and
  boost := twoAndAHalf
  exclusion := some { kind := .unknown (-7), boost := .ofBits 0x80000000 }
  children := [.term "größe" "a \"b\"\n", .disMax twoAndAHalf []]

/-- Conjunctions inside each other, each the exclusion of the one around it. -/
def nested : Nat → Query
  | 0 => { kind := .and }
  | depth + 1 => { kind := .and, exclusion := some (nested depth) }

/-- Every node of the mixed query can be read back. -/
theorem restorable_mixed : ∀ node ∈ mixed.preorder, node.Restorable := by
  have zero : Weight.zero.Restorable := Weight.restorable_iff.mpr (by decide)
  have two : twoAndAHalf.Restorable := Weight.restorable_iff.mpr (by decide)
  have nodes : mixed.preorder = [mixed, .term "größe" "a \"b\"\n", .disMax twoAndAHalf [],
      { kind := .unknown (-7), boost := .ofBits 0x80000000 }] := rfl
  rw [nodes]
  simp only [List.forall_mem_cons, List.not_mem_nil, false_implies, implies_true, and_true]
  exact ⟨⟨⟨1, rfl⟩, two, zero⟩, ⟨⟨0, rfl⟩, zero, zero⟩,
    ⟨⟨3, rfl⟩, zero, two⟩,
    ⟨⟨-7, rfl⟩, Weight.restorable_iff.mpr (by decide), zero⟩⟩

/-- Every nested conjunction can be read back. -/
theorem restorable_nested (depth : Nat) : ∀ node ∈ (nested depth).preorder, node.Restorable := by
  have zero : Weight.zero.Restorable := Weight.restorable_iff.mpr (by decide)
  induction depth with
  | zero =>
      rintro node (_ | ⟨_, ⟨⟩⟩)
      exact ⟨⟨1, rfl⟩, zero, zero⟩
  | succ depth inductionHypothesis =>
      intro node within
      rw [preorder_eq] at within
      simp only [nested, List.flatMap_nil, List.nil_append, Option.toList_some,
        List.flatMap_cons, List.append_nil, List.mem_cons] at within
      rcases within with rfl | within
      · exact ⟨⟨1, rfl⟩, zero, zero⟩
      · exact inductionHypothesis node within

/-- Each nested conjunction opens one more bracket. -/
theorem brackets_nested (depth : Nat) : (nested depth).brackets = depth + 1 := by
  induction depth with
  | zero => rfl
  | succ depth inductionHypothesis =>
      rw [nested, brackets, childrenBrackets, exclusionBrackets, inductionHypothesis]
      omega

/-- A mixed query is read back, and 128 nested conjunctions are refused. -/
theorem ofText_text_mixed_nested :
    (∀ node ∈ mixed.preorder, node.Restorable) ∧
      (∃ restored, ofText (Text.bytesOf mixed.text) = .ok (some restored) ∧
        restored.agrees mixed = true) ∧
      (∀ node ∈ (nested 127).preorder, node.Restorable) ∧
      ∃ position, ofText (Text.bytesOf (nested 127).text) =
        .error ⟨.malformed .nestingTooDeep, some position⟩ :=
  ⟨restorable_mixed, (ofText_text mixed restorable_mixed).1 (by decide), restorable_nested 127,
    (ofText_text (nested 127) (restorable_nested 127)).2 (by rw [brackets_nested]; decide)⟩

end Boundary

end Query

end BooleanQuery
