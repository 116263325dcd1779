import BooleanQuery.Proofs.Json.Nesting
import BooleanQuery.Proofs.Query.Depth
import BooleanQuery.Proofs.Query.RoundTrip
import BooleanQuery.Proofs.Query.Schema

/-!
# Brackets and depth of decoded queries

A query that a value holds opens no more brackets in its own text than the value does: each node
has brackets of its own, and those of its children stand inside one bracket more. So a query
that has been decoded may be printed and decoded again, and the limit on brackets that are open
while a text is read also limits the depth of the query. Exclusions inside each other take one
bracket each, so they reach the limit.
-/

namespace BooleanQuery

open Text (Bytes)
open Json (Value greatestNesting)
open Json.Value (Within within_of_written within_of_ofText)

namespace Schema

theorem holds_of_fits_exclusion {given : Option Value} {excluded : Query}
    (fits : Fits .exclusion given (.exclusion (some excluded))) :
    ∃ value, given = some value ∧ Holds value excluded := by
  cases fits with
  | exclusion holds => exact ⟨_, rfl, holds⟩

/-- A child is a query that an element of the given array holds. -/
theorem holds_of_fits_children {given : Option Value} {children : List Query} {child : Query}
    (fits : Fits .children given (.children children)) (present : child ∈ children) :
    ∃ elements, given = some (.array elements) ∧ ∃ element ∈ elements, Holds element child := by
  cases fits with
  | absent => nomatch present
  | null => nomatch present
  | children each => exact ⟨_, rfl, exists_mem_of_forall₂ each present⟩

/-- If the text of a query opens no more brackets than a value that holds it, whenever the value is
given for a member, then the text of a query with these members opens at most one more. -/
theorem brackets_le_of_fits {nesting : Nat} {members : List (String × Value)} {query : Query}
    (within : ∀ named ∈ members, Within nesting named.2)
    (fits : ∀ member : Member, Fits member (members.lookup member.name) (query.assignment member))
    (fewer : ∀ lower ≤ nesting, ∀ value part, Within lower value → Holds value part →
      part.brackets ≤ lower) :
    query.brackets ≤ nesting + 1 := by
  have onChildren : Query.childrenBrackets query.children ≤ nesting := by
    rcases empty : query.children with _ | ⟨first, others⟩
    · exact Nat.zero_le _
    rw [← empty]
    have some : first ∈ query.children := by simp [empty]
    obtain ⟨elements, found, -⟩ := holds_of_fits_children (fits .children) some
    -- The array has a bracket of its own, as has the list of children in the text.
    cases within _ (mem_of_lookup found) with
    | @array lower _ each =>
        refine Query.childrenBrackets_le_succ_iff.mpr fun child present => ?_
        obtain ⟨others, again, element, among, holds⟩ :=
          holds_of_fits_children (fits .children) present
        obtain rfl : elements = others := by
          rw [found] at again
          exact Value.array.inj (Option.some.inj again)
        exact fewer lower (Nat.le_succ lower) element child (each element among) holds
  have onExclusion : Query.exclusionBrackets query.exclusion ≤ nesting := by
    have given := fits .exclusion
    rw [Query.assignment] at given
    cases present : query.exclusion with
    | none => exact Nat.zero_le _
    | some excluded =>
        rw [present] at given
        obtain ⟨value, found, holds⟩ := holds_of_fits_exclusion given
        exact fewer nesting le_rfl value excluded (within _ (mem_of_lookup found)) holds
  rw [query.brackets_eq]
  omega

/-- The text of a query opens no more brackets inside each other than a value that holds it. -/
theorem brackets_le_of_within {nesting : Nat} {value : Value} {query : Query}
    (within : Within nesting value) (holds : Holds value query) : query.brackets ≤ nesting := by
  induction nesting using Nat.strongRecOn generalizing value query with
  | ind nesting inductionHypothesis =>
      have fewer {inside : Nat} (opened : inside + 1 = nesting) :
          ∀ lower ≤ inside, ∀ value part, Within lower value → Holds value part →
            part.brackets ≤ lower :=
        fun lower _ _ _ within holds => inductionHypothesis lower (by omega) within holds
      cases within with
      | scalar => nomatch holds
      | array each =>
          cases holds with
          | array few fits =>
              refine brackets_le_of_fits (fun named among => ?_) fits (fewer rfl)
              exact each named.2 (List.of_mem_zip among).2
      | object each =>
          cases holds with
          | object distinct known fits => exact brackets_le_of_fits each fits (fewer rfl)

end Schema

namespace Query

/-- A query is not deeper than the brackets of its text: each node has a bracket of its own. -/
theorem depth_le_brackets (query : Query) : query.depth ≤ query.brackets := by
  induction query with
  | node query onChildren onExclusion =>
      rw [query.brackets_eq, Nat.add_comm, depth_le_succ_iff]
      intro lower below
      rcases mem_subqueries_iff.mp below with child | excluded
      · have inside := childrenBrackets_le_succ_iff.mp
          (Nat.le_succ (childrenBrackets query.children)) lower child
        exact (onChildren lower child).trans (inside.trans (Nat.le_max_left _ _))
      · have itself : exclusionBrackets query.exclusion = lower.brackets := by
          rw [Option.mem_def.mp excluded]
          rfl
        exact (onExclusion lower excluded).trans (itself.ge.trans (Nat.le_max_right _ _))

/-- A query decoded from a value is not deeper than the brackets of the value are nested. -/
theorem depth_le_of_ofValue {nesting : Nat} {value : Value} {query : Query}
    (within : Within nesting value) (decoded : ofValue value = .ok (some query)) :
    query.depth ≤ nesting :=
  query.depth_le_brackets.trans
    (Schema.brackets_le_of_within within (Schema.ofValue_eq_ok_some_iff.mp decoded))

theorem brackets_le_of_ofText {text : Bytes} {query : Query}
    (decoded : ofText text = .ok (some query)) : query.brackets ≤ greatestNesting := by
  obtain ⟨written, isWritten, means⟩ := ofText_eq_ok_iff_ofValue_written.mp decoded
  exact Schema.brackets_le_of_within (within_of_written isWritten)
    (Schema.ofValue_eq_ok_some_iff.mp means)

/-- A query decoded from a text is not deeper than the brackets that may be opened. -/
theorem depth_le_of_ofText {text : Bytes} {query : Query}
    (decoded : ofText text = .ok (some query)) : query.depth ≤ greatestNesting :=
  query.depth_le_brackets.trans (brackets_le_of_ofText decoded)

/-- Nested conjunctions are one deeper than they are nested. -/
theorem depth_nested (levels : Nat) : (nested levels).depth = levels + 1 := by
  induction levels with
  | zero => rfl
  | succ levels inductionHypothesis =>
      rw [nested, depth, depthOption, inductionHypothesis, depthAll]
      omega

/-- Nested conjunctions are read back as they are. -/
theorem readBack_nested (levels : Nat) : (nested levels).readBack = nested levels := by
  induction levels with
  | zero => rfl
  | succ levels inductionHypothesis =>
      rw [nested, readBack, readBackOption, inductionHypothesis]
      rfl

/-- Nested conjunctions are decoded from their text as long as its brackets may be opened. -/
theorem ofText_nested {levels : Nat} (fit : levels < greatestNesting) :
    ofText (Text.bytesOf (nested levels).text) = .ok (some (nested levels)) := by
  rw [ofText_of_fit (restorable_nested levels) (by rw [brackets_nested]; exact fit),
    readBack_nested]

end Query

end BooleanQuery
