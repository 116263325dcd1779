import BooleanQuery.Text.Shown
import Mathlib.Data.List.Chain

/-!
# What the look-up of invisible characters finds

The look-up stops at the first range that does not lie below a code point. That is right because
the ranges of the table are apart and in increasing order. A string in a message holds none of
these characters: each is written by its escape, and an escape is plain text.
-/

namespace BooleanQuery.Text

/-- One range of code points lies below another, which is not empty. -/
def LiesBelow (lower upper : Nat × Nat) : Prop := lower.2 < upper.1 ∧ upper.1 ≤ upper.2

instance : DecidableRel LiesBelow := fun _ _ => inferInstanceAs (Decidable (_ ∧ _))

instance : Trans LiesBelow LiesBelow LiesBelow where
  trans below above := ⟨(below.1.trans_le below.2).trans above.1, above.2⟩

theorem invisibleRanges_increasing : invisibleRanges.IsChain LiesBelow := by
  decide +kernel

/-- In increasing ranges the look-up finds the code points of all of them. -/
theorem inRanges_iff {code : Nat} {ranges : List (Nat × Nat)}
    (increasing : ranges.IsChain LiesBelow) :
    inRanges code ranges ↔ ∃ range ∈ ranges, range.1 ≤ code ∧ code ≤ range.2 := by
  induction ranges with
  | nil => simp [inRanges]
  | cons range ranges inductionHypothesis =>
    rw [inRanges, List.exists_mem_cons_iff]
    split
    next within =>
      have notLater : ¬∃ later ∈ ranges, later.1 ≤ code ∧ code ≤ later.2 := by
        rintro ⟨later, isLater, reached, -⟩
        have below := (increasing.rel_cons isLater).1
        omega
      simp [within, notLater]
    next beyond =>
      rw [inductionHypothesis increasing.of_cons, or_iff_right fun inRange => beyond inRange.2]

theorem isInvisible_iff (character : Char) :
    isInvisible character ↔
      ∃ range ∈ invisibleRanges, range.1 ≤ character.toNat ∧ character.toNat ≤ range.2 :=
  inRanges_iff invisibleRanges_increasing

theorem not_invisible_of_mem_toDigits {number : Nat} {digit : Char}
    (isDigit : digit ∈ Nat.toDigits 16 number) : isInvisible digit = false := by
  induction number using Nat.strongRecOn with
  | ind number inductionHypothesis =>
    have ofRemainder : ∀ remainder < 16, isInvisible (Nat.digitChar remainder) = false := by
      decide +kernel
    rw [Nat.toDigits_eq_if (by omega)] at isDigit
    split at isDigit
    next small =>
      rw [List.mem_singleton.mp isDigit]
      exact ofRemainder number small
    next large =>
      rcases List.mem_append.mp isDigit with upper | last
      · exact inductionHypothesis (number / 16) (by omega) upper
      · rw [List.mem_singleton.mp last]
        exact ofRemainder (number % 16) (by omega)

/-- The characters of which escapes are made, digits apart, have a shape of their own. -/
theorem not_invisible_of_mem_marks {mark : Char}
    (isMark : mark ∈ ['"', '\\', '0', 't', 'r', 'n', 'u', '\x7b', '\x7d']) :
    isInvisible mark = false := by
  have each : ['"', '\\', '0', 't', 'r', 'n', 'u', '\x7b', '\x7d'].all
      (fun mark => !isInvisible mark) = true := by decide +kernel
  exact (Bool.not_eq_true' _).mp (List.all_eq_true.mp each mark isMark)

theorem not_invisible_of_mem_numbered {character piece : Char}
    (isShown : piece ∈ numbered character) : isInvisible piece = false := by
  rw [numbered, List.mem_append, List.mem_append] at isShown
  rcases isShown with (opening | digit) | closing
  · exact not_invisible_of_mem_marks (by grind)
  · exact not_invisible_of_mem_toDigits digit
  · exact not_invisible_of_mem_marks (by grind)

theorem not_invisible_of_mem_shownChar {character piece : Char}
    (isShown : piece ∈ shownChar character) : isInvisible piece = false := by
  unfold shownChar at isShown
  split_ifs at isShown
  -- First the six characters that a letter stands for, then the others.
  iterate 6 exact not_invisible_of_mem_marks (by grind)
  next => exact not_invisible_of_mem_numbered isShown
  next visible =>
    rw [List.mem_singleton.mp isShown]
    exact Bool.eq_false_iff.mpr visible

/-- A message shows no character that has no shape of its own. -/
theorem not_invisible_of_mem_shown {text : String} {piece : Char}
    (isShown : piece ∈ (shown text).toList) : isInvisible piece = false := by
  have mark : isInvisible '"' = false := not_invisible_of_mem_marks (by decide)
  rw [shown, String.toList_ofList, List.cons_append, List.mem_cons, List.mem_append,
    List.mem_singleton, List.mem_flatMap] at isShown
  rcases isShown with rfl | ⟨character, -, inPiece⟩ | rfl
  · exact mark
  · exact not_invisible_of_mem_shownChar inPiece
  · exact mark

end BooleanQuery.Text
