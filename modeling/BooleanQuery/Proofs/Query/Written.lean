import BooleanQuery.Proofs.Query.Tree
import BooleanQuery.Query.Assignment
import BooleanQuery.Query.Json

/-!
# What is written of a query

The text of a query lists the members that do not hold their default. This module says the
same member by member, so that texts and assignments can be compared for one member at a
time: `writtenMembers` are the members in the text, `memberJson` is the text of a member,
and `memberReadBack` the assignment it should be read as.

What is left out is restored as a default, so a negative zero comes back without its sign, and
null, which stands for a weight that is not finite, comes back as zero. `readBack` is the query
that is expected; it agrees with the one that was written if all weights are finite.
-/

namespace BooleanQuery

open Json (quoted commaSeparated)

/-- A weight as it is read back: the sign of a zero is lost, and all of what is not finite. -/
def Weight.readBack (weight : Weight) : Weight :=
  if weight.isZero || !weight.isFinite then .zero else weight

theorem Weight.readBack_of_isZero {weight : Weight} (isZero : weight.isZero = true) :
    weight.readBack = .zero :=
  if_pos (by simp [isZero])

theorem Weight.readBack_of_not_finite {weight : Weight} (notFinite : weight.isFinite = false) :
    weight.readBack = .zero :=
  if_pos (by simp [notFinite])

theorem Weight.readBack_of_finite {weight : Weight} (finite : weight.isFinite = true)
    (nonzero : weight.isZero = false) : weight.readBack = weight :=
  if_neg (by simp [finite, nonzero])

theorem Weight.finite_of_isZero {weight : Weight} (isZero : weight.isZero = true) :
    weight.isFinite = true := by
  simp only [Binary.Word.isZero, Binary.Word.isFinite, decide_eq_true_eq] at *
  rw [isZero]
  decide

theorem Weight.isNaN_eq_false {weight : Weight} (finite : weight.isFinite = true) :
    weight.isNaN = false := by
  simp only [Binary.Word.isFinite, Binary.Word.isNaN, decide_eq_true_eq,
    decide_eq_false_iff_not] at *
  omega

/-- A weight agrees with what is read back exactly if it is finite. -/
theorem Weight.sameNumber_readBack (weight : Weight) :
    weight.readBack.sameNumber weight = weight.isFinite := by
  have zeroIsNumber : Weight.zero.isNaN = false := by decide
  have zeroIsZero : Weight.zero.isZero = true := by decide
  cases finite : weight.isFinite with
  | true =>
      have isNumber := isNaN_eq_false finite
      cases isZero : weight.isZero with
      | true =>
          rw [readBack_of_isZero isZero]
          simp [Binary.Word.sameNumber, isNumber, isZero, zeroIsNumber, zeroIsZero]
      | false =>
          rw [readBack_of_finite finite isZero]
          simp [Binary.Word.sameNumber, isNumber]
  | false =>
      have nonzero : weight.isZero = false := by
        cases isZero : weight.isZero with
        | true =>
            rw [finite_of_isZero isZero] at finite
            nomatch finite
        | false => rfl
      have different : Weight.zero ≠ weight := by
        rintro rfl
        nomatch finite
      rw [readBack_of_not_finite finite]
      simp [Binary.Word.sameNumber, nonzero, different]

namespace Query

section Nesting

mutual

/-- The number of brackets that are open at once in the text of a query. -/
def brackets : Query → Nat
  | ⟨_, _, _, _, exclusion, children, _⟩ =>
      1 + max (childrenBrackets children) (exclusionBrackets exclusion)

/-- The number of brackets that are open at once in the text of a list of children; there is
no text if there are no children. -/
def childrenBrackets : List Query → Nat
  | [] => 0
  | child :: children => 1 + max child.brackets (greatestBrackets children)

/-- The greatest number of brackets among queries. -/
def greatestBrackets : List Query → Nat
  | [] => 0
  | query :: queries => max query.brackets (greatestBrackets queries)

/-- The number of brackets that are open at once in the text of an exclusion, if any. -/
def exclusionBrackets : Option Query → Nat
  | none => 0
  | some exclusion => exclusion.brackets

end

/-- A list of children opens a bracket of its own. -/
example : (and [term "field" "value"]).brackets = 3 := rfl

/-- An exclusion opens none besides its own. -/
example : ({ exclusion := some (term "field" "value") } : Query).brackets = 2 := rfl

theorem brackets_eq (query : Query) :
    query.brackets =
      1 + max (childrenBrackets query.children) (exclusionBrackets query.exclusion) := by
  obtain ⟨kind, field, value, boost, exclusion, children, tiebreaker⟩ := query
  rfl

/-- The brackets of queries fit if those of each do. -/
theorem greatestBrackets_le_iff {queries : List Query} {nesting : Nat} :
    greatestBrackets queries ≤ nesting ↔ ∀ query ∈ queries, query.brackets ≤ nesting := by
  induction queries with
  | nil => simp [greatestBrackets]
  | cons query queries inductionHypothesis =>
      rw [greatestBrackets, Nat.max_le, inductionHypothesis, List.forall_mem_cons]

/-- The brackets of children fit if one more than those of each does. -/
theorem childrenBrackets_le_succ_iff {children : List Query} {nesting : Nat} :
    childrenBrackets children ≤ nesting + 1 ↔ ∀ child ∈ children, child.brackets ≤ nesting := by
  cases children with
  | nil => simp [childrenBrackets]
  | cons child children =>
      rw [← greatestBrackets_le_iff, childrenBrackets, greatestBrackets]
      omega

end Nesting

section ReadingBack

mutual

/-- The query that is read back from the text of a query. -/
def readBack : Query → Query
  | ⟨kind, field, value, boost, exclusion, children, tiebreaker⟩ =>
      ⟨kind, field, value, boost.readBack, readBackOption exclusion, readBackAll children,
        tiebreaker.readBack⟩

/-- The exclusion that is read back. -/
def readBackOption : Option Query → Option Query
  | none => none
  | some exclusion => some exclusion.readBack

/-- The queries that are read back. -/
def readBackAll : List Query → List Query
  | [] => []
  | query :: queries => query.readBack :: readBackAll queries

end

theorem readBackAll_eq_map (queries : List Query) : readBackAll queries = queries.map readBack := by
  induction queries with
  | nil => rfl
  | cons query queries inductionHypothesis =>
      rw [readBackAll, inductionHypothesis, List.map_cons]

theorem jsonAll_eq_map (queries : List Query) : jsonAll queries = queries.map json := by
  induction queries with
  | nil => rfl
  | cons query queries inductionHypothesis => rw [jsonAll, inductionHypothesis, List.map_cons]

/-- Lists of queries agree with what is read back if their elements do. -/
theorem agreesAll_readBackAll (queries : List Query) :
    agreesAll (readBackAll queries) queries =
      queries.all fun query => query.readBack.agrees query := by
  induction queries with
  | nil => rfl
  | cons query queries inductionHypothesis =>
      rw [readBackAll, agreesAll, inductionHypothesis, List.all_cons]

/-- What is read back agrees with what was written exactly if all weights are finite. -/
theorem agrees_readBack_iff {query : Query} :
    query.readBack.agrees query = true ↔
      ∀ node ∈ query.preorder, node.boost.isFinite ∧ node.tiebreaker.isFinite := by
  induction query with
  | node query onChildren onExclusion =>
      have node : query.readBack.agrees query = true ↔
          query.boost.isFinite ∧ query.tiebreaker.isFinite ∧
            agreesAll (readBackAll query.children) query.children = true ∧
            agreesOption (readBackOption query.exclusion) query.exclusion = true := by
        obtain ⟨kind, field, value, boost, exclusion, children, tiebreaker⟩ := query
        rw [readBack, agrees, Weight.sameNumber_readBack, Weight.sameNumber_readBack]
        simp only [Bool.and_eq_true, decide_true, true_and]
        exact ⟨fun ⟨⟨⟨onBoost, onExclusion⟩, onChildren⟩, onTiebreaker⟩ =>
            ⟨onBoost, onTiebreaker, onChildren, onExclusion⟩,
          fun ⟨onBoost, onTiebreaker, onChildren, onExclusion⟩ =>
            ⟨⟨⟨onBoost, onExclusion⟩, onChildren⟩, onTiebreaker⟩⟩
      have exclusion : agreesOption (readBackOption query.exclusion) query.exclusion = true ↔
          ∀ excluded ∈ query.exclusion, excluded.readBack.agrees excluded = true := by
        cases query.exclusion with
        | none => simp [readBackOption, agreesOption]
        | some excluded => simp [readBackOption, agreesOption]
      rw [node, agreesAll_readBackAll, List.all_eq_true, exclusion, forall_mem_preorder_iff,
        and_assoc]
      refine and_congr_right fun _ => and_congr_right fun _ => and_congr ?_ ?_
      · exact forall₂_congr onChildren
      · exact forall₂_congr onExclusion

/-- What is read back agrees with what was written, if all weights are finite. -/
theorem agrees_readBack {query : Query}
    (finite : ∀ node ∈ query.preorder, node.boost.isFinite ∧ node.tiebreaker.isFinite) :
    query.readBack.agrees query = true :=
  agrees_readBack_iff.mpr finite

end ReadingBack

section Members

/-- Whether a member of a query holds its default. -/
def holdsDefault (query : Query) : Member → Bool
  | .kind => query.kind.isTerm
  | .field => query.field = ""
  | .value => query.value = ""
  | .boost => query.boost.isZero
  | .exclusion => query.exclusion.isNone
  | .children => query.children.isEmpty
  | .tiebreaker => query.tiebreaker.isZero

/-- The members in the text of a query. -/
def writtenMembers (query : Query) : List Member :=
  Member.all.filter fun member => !query.holdsDefault member

/-- The text of the value of a member. -/
def memberJson (query : Query) : Member → List Char
  | .kind => query.kind.json
  | .field => quoted query.field
  | .value => quoted query.value
  | .boost => query.boost.json
  | .exclusion => query.exclusion.elim [] json
  | .children => '[' :: (commaSeparated (query.children.map json) ++ [']'])
  | .tiebreaker => query.tiebreaker.json

/-- The assignment that a member is read back as. -/
def memberReadBack (query : Query) : Member → Assignment
  | .kind => .kind query.kind
  | .field => .field query.field
  | .value => .value query.value
  | .boost => .boost query.boost.readBack
  | .exclusion => .exclusion (readBackOption query.exclusion)
  | .children => .children (readBackAll query.children)
  | .tiebreaker => .tiebreaker query.tiebreaker.readBack

/-- The number of brackets that are open at once in the text of a member. -/
def memberBrackets (query : Query) : Member → Nat
  | .exclusion => exclusionBrackets query.exclusion
  | .children => childrenBrackets query.children
  | _ => 0

/-- The text of a query after its opening brace. -/
def bodyJson (query : Query) : List Char :=
  commaSeparated (query.writtenMembers.map fun member =>
    jsonMember member.name (query.memberJson member)) ++ ['\x7d']

theorem map_filter_cons {β : Type} {keep : Member → Bool} {written : Member → β} {member : Member}
    {members : List Member} :
    ((member :: members).filter keep).map written =
      (if keep member then [written member] else []) ++ (members.filter keep).map written := by
  cases kept : keep member <;> simp [kept]

/-- The text of a query lists the members that do not hold their default. -/
theorem json_eq (query : Query) : query.json = '\x7b' :: query.bodyJson := by
  have part (keep : Bool) (written : List Char) :
      (if keep then [] else [written]) = if !keep then [written] else [] := by
    cases keep <;> rfl
  have onText (name value : String) : textMember name value =
      if decide (value = "") then [] else [jsonMember name (quoted value)] := by
    simp [textMember]
  have onExclusion (exclusion : Option Query) : exclusionMember exclusion =
      if exclusion.isNone then [] else [jsonMember "not" (exclusion.elim [] json)] := by
    cases exclusion <;> rfl
  have onChildren (children : List Query) : childrenMember children =
      if children.isEmpty then []
      else [jsonMember "queries" ('[' :: (commaSeparated (children.map json) ++ [']']))] := by
    cases children with
    | nil => rfl
    | cons child children =>
        rw [childrenMember, jsonAll_eq_map]
        rfl
  obtain ⟨kind, field, value, boost, exclusion, children, tiebreaker⟩ := query
  rw [json, onText, onText, weightMember, weightMember, onExclusion, onChildren, bodyJson,
    writtenMembers, Member.all]
  simp only [map_filter_cons, List.filter_nil, List.map_nil, List.append_nil, part,
    List.append_assoc, List.cons_append]
  rfl

theorem member_memberReadBack (query : Query) (member : Member) :
    (query.memberReadBack member).member = member := by
  cases member <;> rfl

/-- A member that is left out would not have changed anything. -/
theorem foldl_assign_cons {query : Query} {member : Member} {members : List Member}
    {state : Query}
    (unchanged : query.holdsDefault member →
      state.assign (query.memberReadBack member) = state) :
    ((((member :: members).filter fun member => !query.holdsDefault member).map
        query.memberReadBack).foldl assign state) =
      ((members.filter fun member => !query.holdsDefault member).map
        query.memberReadBack).foldl assign (state.assign (query.memberReadBack member)) := by
  cases holds : query.holdsDefault member with
  | false => simp [holds]
  | true => simp [holds, unchanged holds]

/-- The assignments of written members make the query that is read back. -/
theorem ofAssignments_writtenMembers (query : Query) :
    ofAssignments (query.writtenMembers.map query.memberReadBack) = query.readBack := by
  obtain ⟨kind, field, value, boost, exclusion, children, tiebreaker⟩ := query
  unfold ofAssignments writtenMembers Member.all
  rw [foldl_assign_cons, foldl_assign_cons, foldl_assign_cons, foldl_assign_cons,
    foldl_assign_cons, foldl_assign_cons, foldl_assign_cons]
  · rfl
  -- From the last member to the first, one that is left out holds the default of the query
  -- that is assigned to.
  · intro isZero
    have same := Weight.readBack_of_isZero isZero
    simp only [memberReadBack, same]
    rfl
  · intro empty
    cases List.isEmpty_iff.mp empty
    rfl
  · intro absent
    cases Option.isNone_iff_eq_none.mp absent
    rfl
  · intro isZero
    have same := Weight.readBack_of_isZero isZero
    simp only [memberReadBack, same]
    rfl
  · intro empty
    cases of_decide_eq_true empty
    rfl
  · intro empty
    cases of_decide_eq_true empty
    rfl
  · intro isTerm
    cases kind with
    | term => rfl
    | _ => cases isTerm

/-- The brackets of a query fit if one less than those of its written members do. -/
theorem brackets_le_succ_iff {query : Query} {nesting : Nat} :
    query.brackets ≤ nesting + 1 ↔
      ∀ member ∈ query.writtenMembers, query.memberBrackets member ≤ nesting := by
  have leftOut {member : Member} (holds : query.holdsDefault member) :
      query.memberBrackets member = 0 := by
    obtain ⟨kind, field, value, boost, exclusion, children, tiebreaker⟩ := query
    cases member with
    | exclusion =>
        cases Option.isNone_iff_eq_none.mp holds
        rfl
    | children =>
        cases List.isEmpty_iff.mp holds
        rfl
    | _ => rfl
  have everyMember (member : Member) : member ∈ Member.all := by
    cases member <;> decide
  have total : query.brackets = 1 + max (query.memberBrackets .children)
      (query.memberBrackets .exclusion) := query.brackets_eq
  constructor
  · intro fit member _
    cases member with
    | exclusion => omega
    | children => omega
    | _ => exact Nat.zero_le _
  · intro each
    have bounded (member : Member) : query.memberBrackets member ≤ nesting := by
      cases holds : query.holdsDefault member with
      | true => rw [leftOut holds]; exact Nat.zero_le _
      | false =>
          exact each member (List.mem_filter.mpr ⟨everyMember member, by simp [holds]⟩)
    have onChildren := bounded .children
    have onExclusion := bounded .exclusion
    omega

end Members

end Query

end BooleanQuery
