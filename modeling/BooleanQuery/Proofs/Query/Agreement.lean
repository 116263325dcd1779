import BooleanQuery.Proofs.Query.Written
import BooleanQuery.Proofs.Sequencing

/-!
# Queries that agree

Two queries agree if they are the same up to the signs of zeros. A zero is left out of the text
of a query and has no effect as a boost, so queries that agree have the same text and the same
effective boosts.
-/

namespace BooleanQuery

open Json (commaSeparated)

theorem Weight.eq_or_isZero_of_sameNumber {weight other : Weight}
    (same : weight.sameNumber other = true) :
    weight = other ∨ weight.isZero = true ∧ other.isZero = true := by
  simp only [Binary.Word.sameNumber, Bool.and_eq_true, Bool.or_eq_true, decide_eq_true_eq] at same
  exact same.2.symm

theorem Weight.sameNumber_self {weight : Weight} (isNumber : weight.isNaN = false) :
    weight.sameNumber weight = true := by
  simp [Binary.Word.sameNumber, isNumber]

namespace Query

/-- Lists of queries agree element by element. -/
theorem agreesAll_iff {queries others : List Query} :
    agreesAll queries others = true ↔
      List.Forall₂ (fun query other => query.agrees other = true) queries others := by
  induction queries generalizing others with
  | nil => cases others <;> simp [agreesAll]
  | cons query queries inductionHypothesis =>
      cases others <;> simp [agreesAll, inductionHypothesis]

theorem agreesOption_iff {exclusion other : Option Query} :
    agreesOption exclusion other = true ↔
      Option.Rel (fun query other => query.agrees other = true) exclusion other := by
  cases exclusion <;> cases other <;> simp [agreesOption]

/-- What it means for two queries to agree, member by member. -/
structure Agrees (query other : Query) : Prop where
  kind : query.kind = other.kind
  field : query.field = other.field
  value : query.value = other.value
  boost : query.boost.sameNumber other.boost = true
  exclusion : Option.Rel (fun query other => query.agrees other = true)
    query.exclusion other.exclusion
  children : List.Forall₂ (fun query other => query.agrees other = true)
    query.children other.children
  tiebreaker : query.tiebreaker.sameNumber other.tiebreaker = true

/-- Queries agree if their members do. -/
theorem agrees_iff {query other : Query} : query.agrees other = true ↔ query.Agrees other := by
  obtain ⟨kind, field, value, boost, exclusion, children, tiebreaker⟩ := query
  rw [agrees]
  simp only [Bool.and_eq_true, decide_eq_true_eq, agreesAll_iff, agreesOption_iff]
  constructor
  · rintro ⟨⟨⟨⟨⟨⟨kind, field⟩, value⟩, boost⟩, exclusion⟩, children⟩, tiebreaker⟩
    exact ⟨kind, field, value, boost, exclusion, children, tiebreaker⟩
  · rintro ⟨kind, field, value, boost, exclusion, children, tiebreaker⟩
    exact ⟨⟨⟨⟨⟨⟨kind, field⟩, value⟩, boost⟩, exclusion⟩, children⟩, tiebreaker⟩

/-- Queries that agree have the same effective boost. -/
theorem Agrees.effectiveBoost_eq {query other : Query} (agrees : query.Agrees other) :
    query.effectiveBoost = other.effectiveBoost := by
  unfold effectiveBoost
  rcases Weight.eq_or_isZero_of_sameNumber agrees.boost with same | ⟨isZero, otherIsZero⟩
  · rw [same]
  · simp [Binary.Word.isPositive, isZero, otherIsZero]

/-- Weights that are the same number are written as the same member. -/
theorem weightMember_eq_of_sameNumber {weight other : Weight}
    (same : weight.sameNumber other = true) (name : String) :
    weightMember name weight = weightMember name other := by
  unfold weightMember
  rcases Weight.eq_or_isZero_of_sameNumber same with rfl | ⟨isZero, otherIsZero⟩
  · rfl
  · rw [if_pos isZero, if_pos otherIsZero]

/-- The member of an exclusion depends on its text only. -/
theorem exclusionMember_eq_of_map_json_eq {exclusion other : Option Query}
    (same : exclusion.map json = other.map json) :
    exclusionMember exclusion = exclusionMember other := by
  have written (exclusion : Option Query) : exclusionMember exclusion =
      (exclusion.map json).elim [] fun text => [jsonMember "not" text] := by
    cases exclusion <;> rfl
  rw [written, written, same]

/-- The member of children depends on their texts only. -/
theorem childrenMember_eq_of_map_json_eq {children others : List Query}
    (same : children.map json = others.map json) :
    childrenMember children = childrenMember others := by
  have written (children : List Query) : childrenMember children =
      if (children.map json).isEmpty then []
      else [jsonMember "queries" ('[' :: commaSeparated (children.map json) ++ [']'])] := by
    cases children with
    | nil => rfl
    | cons child children =>
        rw [childrenMember, jsonAll_eq_map]
        rfl
  rw [written, written, same]

/-- Queries that agree have the same text. -/
theorem json_eq_of_agrees {query other : Query} (agrees : query.agrees other = true) :
    query.json = other.json := by
  induction query generalizing other with
  | node query onChildren onExclusion =>
      have members := agrees_iff.mp agrees
      have exclusion := exclusionMember_eq_of_map_json_eq
        (optionMap_eq_of_rel members.exclusion fun excluded present other agrees =>
          (onExclusion excluded present agrees).symm)
      have children := childrenMember_eq_of_map_json_eq
        (map_eq_of_forall₂ members.children fun child present other agrees =>
          (onChildren child present agrees).symm)
      have boost := weightMember_eq_of_sameNumber members.boost "boost"
      have tiebreaker := weightMember_eq_of_sameNumber members.tiebreaker "tiebreaker"
      obtain ⟨kind, field, value, -, -, -, -⟩ := members
      obtain ⟨_, _, _, _, _, _, _⟩ := query
      obtain ⟨_, _, _, _, _, _, _⟩ := other
      simp only at kind field value boost tiebreaker exclusion children
      rw [json, json, kind, field, value, boost, tiebreaker, exclusion, children]

theorem text_eq_of_agrees {query other : Query} (agrees : query.agrees other = true) :
    query.text = other.text :=
  congrArg String.ofList (json_eq_of_agrees agrees)

end Query

end BooleanQuery
