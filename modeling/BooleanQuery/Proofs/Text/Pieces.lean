import Mathlib.Data.List.Infix

/-!
# Texts in pieces

A text that is put together of pieces with a mark between them can be taken apart again, if the
mark does not occur in the piece before it. So two such texts are the same only if their pieces
are.
-/

namespace BooleanQuery.Text

variable {α : Type}

/-- The first occurrence of a separator cuts a text in two, in one way only. -/
theorem eq_of_append_cons_eq {separator : α} {first other rest others : List α}
    (absent : separator ∉ first) (absentToo : separator ∉ other)
    (same : first ++ separator :: rest = other ++ separator :: others) :
    first = other ∧ rest = others := by
  induction first generalizing other with
  | nil =>
      cases other with
      | nil => exact ⟨rfl, (List.cons.inj same).2⟩
      | cons head tail =>
          obtain rfl : separator = head := (List.cons.inj same).1
          exact absurd List.mem_cons_self absentToo
  | cons item first inductionHypothesis =>
      cases other with
      | nil =>
          obtain rfl : item = separator := (List.cons.inj same).1
          exact absurd List.mem_cons_self absent
      | cons head tail =>
          rw [List.mem_cons, not_or] at absent absentToo
          obtain ⟨rfl, later⟩ := List.cons.inj same
          obtain ⟨rfl, restSame⟩ := inductionHypothesis absent.2 absentToo.2 later
          exact ⟨rfl, restSame⟩

/-- What comes first among some items and has a property that the item after it lacks can be told
from what follows. -/
theorem eq_of_append_eq {property : α → Bool} {first other rest others : List α}
    (holds : ∀ item ∈ first, property item) (holdsToo : ∀ item ∈ other, property item)
    (ends : ∀ item ∈ rest.head?, property item = false)
    (endsToo : ∀ item ∈ others.head?, property item = false)
    (same : first ++ rest = other ++ others) : first = other ∧ rest = others := by
  have none {items : List α} (ends : ∀ item ∈ items.head?, property item = false) :
      items.takeWhile property = [] := by
    cases items with
    | nil => rfl
    | cons head tail => exact List.takeWhile_cons_of_neg (by simp [ends head rfl])
  have firstSame := congrArg (List.takeWhile property) same
  rw [List.takeWhile_append_of_pos holds, List.takeWhile_append_of_pos holdsToo, none ends,
    none endsToo, List.append_nil, List.append_nil] at firstSame
  subst firstSame
  exact ⟨rfl, List.append_cancel_left same⟩

/-- An ending of a text that is absent or starts with a mark of two characters. -/
def IsMarked (opening closing : α) (ending : List α) : Prop :=
  ending = [] ∨ ∃ rest, ending = opening :: closing :: rest

section Marked

variable {opening closing : α} {body other ending otherEnding : List α}

/-- A marked ending does not start further in front than another one, if the mark does not occur
in what is before the other. -/
theorem eq_nil_of_isMarked {between : List α} (different : opening ≠ closing)
    (marked : IsMarked opening closing (between ++ ending))
    (markedToo : IsMarked opening closing ending)
    (unmarked : ¬[opening, closing] <:+: body ++ between) : between = [] := by
  rcases marked with empty | ⟨rest, shape⟩
  · exact (List.append_eq_nil_iff.mp empty).1
  · rcases between with _ | ⟨first, _ | ⟨second, others⟩⟩
    · rfl
    · -- The mark would overlap with that of the other ending.
      obtain ⟨-, later⟩ := List.cons.inj shape
      rcases markedToo with rfl | ⟨rest, rfl⟩
      · nomatch later
      · exact absurd (List.cons.inj later).1 different
    · obtain ⟨rfl, later⟩ := List.cons.inj shape
      obtain ⟨rfl, -⟩ := List.cons.inj later
      exact absurd ⟨body, others, by simp⟩ unmarked

/-- A marked ending can be taken off a text in one way only, if the mark does not occur in what is
before it. -/
theorem eq_of_append_isMarked_eq (different : opening ≠ closing)
    (unmarked : ¬[opening, closing] <:+: body) (unmarkedToo : ¬[opening, closing] <:+: other)
    (marked : IsMarked opening closing ending) (markedToo : IsMarked opening closing otherEnding)
    (same : body ++ ending = other ++ otherEnding) : body = other ∧ ending = otherEnding := by
  rcases List.append_eq_append_iff.mp same with ⟨between, rfl, rfl⟩ | ⟨between, rfl, rfl⟩
  · obtain rfl := eq_nil_of_isMarked different marked markedToo unmarkedToo
    exact ⟨(List.append_nil body).symm, rfl⟩
  · obtain rfl := eq_nil_of_isMarked different markedToo marked unmarked
    exact ⟨List.append_nil other, rfl⟩

end Marked

end BooleanQuery.Text
