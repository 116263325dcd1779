import BooleanQuery.Proofs.Compile.Agreement
import BooleanQuery.Proofs.Query.DecodedDepth

/-!
# Decoded queries are printed and decoded again

Whatever text a query has been decoded from, its own text is decoded as well: its kinds are those
of numbers, and it opens no more brackets than the text that was read. The second query agrees
with the first one exactly if all weights of the first are finite, and then both compile alike.

Not all weights of a decoded query are finite, because a number that is too large is rounded to
infinity when it is narrowed. Infinity is printed as null, and read as zero.
-/

namespace BooleanQuery

open Text (Bytes)
open Json (Value)
open Compile (SameOutcome)

namespace Schema

/-- A query that a value holds has members that fit. -/
theorem exists_fits_of_holds {value : Value} {query : Query} (holds : Holds value query) :
    ∃ members : List (String × Value), ∀ member : Member,
      Fits member (members.lookup member.name) (query.assignment member) := by
  cases holds with
  | object _ _ fits => exact ⟨_, fits⟩
  | array _ fits => exact ⟨_, fits⟩

/-- A kind that is given by its name or by a number is that of a number. -/
theorem exists_ofNumber_of_fits {given : Option Value} {kind : Kind}
    (fits : Fits .kind given (.kind kind)) : ∃ number, kind = Kind.ofNumber number := by
  cases fits with
  | absent => exact ⟨0, rfl⟩
  | null => exact ⟨0, rfl⟩
  | kind meant =>
      cases meant with
      | named known =>
          refine ⟨kind.number, ?_⟩
          cases kind with
          | unknown number => exact absurd rfl (known number)
          | _ => rfl
      | numbered => exact ⟨_, rfl⟩

/-- All kinds in a query that a value holds are those of numbers. -/
theorem exists_ofNumber_of_holds {value : Value} {query : Query} (holds : Holds value query) :
    ∀ node ∈ query.preorder, ∃ number, node.kind = Kind.ofNumber number := by
  induction query generalizing value with
  | node query onChildren onExclusion =>
      obtain ⟨members, fits⟩ := exists_fits_of_holds holds
      refine Query.forall_mem_preorder_iff.mpr
        ⟨exists_ofNumber_of_fits (fits .kind), fun child present => ?_, fun excluded present => ?_⟩
      · obtain ⟨elements, -, element, -, isHeld⟩ := holds_of_fits_children (fits .children) present
        exact onChildren child present isHeld
      · have given := fits .exclusion
        rw [Query.assignment, Option.mem_def.mp present] at given
        obtain ⟨lower, -, isHeld⟩ := holds_of_fits_exclusion given
        exact onExclusion excluded present isHeld

end Schema

namespace Query

/-- The text of a decoded query is decoded as what is read back of it. -/
theorem ofText_text_of_ofText {text : Bytes} {query : Query}
    (decoded : ofText text = .ok (some query)) :
    ofText (Text.bytesOf query.text) = .ok (some query.readBack) := by
  obtain ⟨written, -, means⟩ := ofText_eq_ok_iff_ofValue_written.mp decoded
  exact ofText_of_numbered
    (Schema.exists_ofNumber_of_holds (Schema.ofValue_eq_ok_some_iff.mp means))
    (brackets_le_of_ofText decoded)

/-- A query that has been decoded from any text is decoded again from its own text. It comes back
the same, up to the signs of zeros, exactly if all of its weights are finite; and if it does, both
compile to plans that agree, or fail with the same error, whatever the fuel. -/
theorem reprinted_agrees_iff_finite {text : Bytes} {query : Query}
    (decoded : ofText text = .ok (some query)) :
    ∃ restored, ofText (Text.bytesOf query.text) = .ok (some restored) ∧
      (restored.agrees query = true ↔
        ∀ node ∈ query.preorder, node.boost.isFinite ∧ node.tiebreaker.isFinite) ∧
      (restored.agrees query = true → ∀ fuel,
        SameOutcome (compile Plan.engine fuel (some restored)).result
          (compile Plan.engine fuel (some query)).result) :=
  ⟨query.readBack, ofText_text_of_ofText decoded, agrees_readBack_iff, Compile.compile_agrees⟩

/-- The mixed query is decoded from its text, printed, decoded again, and compiled as before. -/
theorem reprinted_mixed_agrees :
    ofText (Text.bytesOf mixed.text) = .ok (some mixed.readBack) ∧
      ∃ restored, ofText (Text.bytesOf mixed.readBack.text) = .ok (some restored) ∧
        restored.agrees mixed.readBack = true ∧
        ∀ fuel, SameOutcome (compile Plan.engine fuel (some restored)).result
          (compile Plan.engine fuel (some mixed.readBack)).result := by
  have decoded := ofText_of_fit restorable_mixed (by decide)
  have finite : ∀ node ∈ mixed.readBack.preorder,
      node.boost.isFinite ∧ node.tiebreaker.isFinite := by decide
  obtain ⟨restored, again, agrees, alike⟩ := reprinted_agrees_iff_finite decoded
  exact ⟨decoded, restored, again, agrees.mpr finite, alike (agrees.mpr finite)⟩

/-- A term whose boost is too large for a weight. -/
def boundless : Bytes := Text.bytesOf "\x7b\"field\":\"a\",\"boost\":1e39\x7d"

/-- The boost that is too large comes back as none, so the plan has no boost either. -/
theorem reprinted_boundless_differs : ∃ query restored plan other,
    ofText boundless = .ok (some query) ∧
      ofText (Text.bytesOf query.text) = .ok (some restored) ∧
      restored.agrees query = false ∧
      (compile Plan.engine defaultFuel (some query)).result = .ok plan ∧
      (compile Plan.engine defaultFuel (some restored)).result = .ok other ∧
      other.agrees plan = false := by
  have computed : ∃ decoded ∈ (ofText boundless).toOption, ∃ query ∈ decoded,
      query.readBack.agrees query = false ∧
      ∃ plan ∈ (compile Plan.engine defaultFuel (some query)).result.toOption,
      ∃ other ∈ (compile Plan.engine defaultFuel (some query.readBack)).result.toOption,
        other.agrees plan = false := by
    decide +kernel
  obtain ⟨_, decoded, query, rfl, differs, plan, compiles, other, compilesAgain, otherwise⟩ :=
    computed
  rw [mem_toOption_iff] at decoded compiles compilesAgain
  exact ⟨query, query.readBack, plan, other, decoded, ofText_text_of_ofText decoded, differs,
    compiles, compilesAgain, otherwise⟩

end Query

end BooleanQuery
