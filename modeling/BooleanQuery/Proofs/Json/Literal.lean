import BooleanQuery.Proofs.Json.Integer
import BooleanQuery.Proofs.Json.Unescaping
import Mathlib.Data.List.TakeWhile

/-!
# Documents of one literal

A document that is a scalar holds a literal and blanks around it. If the scalar is a string or an
integer, the literal belongs to the grammar of strings or integers, and each literal of these
grammars is read, up to the range of integers.
-/

namespace BooleanQuery.Json

open Text (Bytes bytesOf)

variable {Mismatch α : Type} {text rest : Bytes}

/-- A scalar is the value of a word, a string after its opening mark, or a number. -/
theorem takes_scalar_cases {value : Scalar} (taken : (@scalar Mismatch).Takes text value rest) :
    (value = .null ∨ ∃ truth, value = .boolean truth) ∨
      (∃ after content, text = '"'.toUInt8 :: after ∧ value = .text content ∧
        (@string Mismatch).Takes after content rest) ∨
      ∃ found, value = .number found ∧ (@number Mismatch).Takes text found rest := by
  cases text with
  | nil => cases taken
  | cons head text =>
      unfold Reader.Takes scalar at taken
      dsimp only at taken
      split at taken
      · next word letters found =>
          split at taken
          · cases taken
            unfold word? at found
            split_ifs at found <;> cases found
            · exact .inl (.inl rfl)
            · exact .inl (.inr ⟨true, rfl⟩)
            · exact .inl (.inr ⟨false, rfl⟩)
          · cases taken
      · split at taken
        · next mark =>
            obtain ⟨content, read, rfl⟩ := takes_map.mp taken
            exact .inr (.inl ⟨text, content, by rw [mark], rfl, read⟩)
        · split at taken
          · obtain ⟨found, read, rfl⟩ := takes_map.mp taken
            exact .inr (.inr ⟨found, rfl, read⟩)
          · cases taken

/-- A string is taken as a scalar from a literal of its bytes between marks. -/
theorem takes_scalar_text_iff {content : String} :
    (@scalar Mismatch).Takes text (.text content) rest ↔
      ∃ inside, text = '"'.toUInt8 :: (inside ++ '"'.toUInt8 :: rest) ∧
        Unescapes inside (bytesOf content) := by
  constructor
  · intro taken
    rcases takes_scalar_cases taken with (null | ⟨_, truth⟩) | ⟨_, _, rfl, text, read⟩ |
      ⟨_, number, _⟩
    · cases null
    · cases truth
    · cases text
      obtain ⟨inside, rfl, unescapes⟩ := takes_string.mp read
      exact ⟨inside, rfl, unescapes⟩
    · cases number
  · rintro ⟨inside, rfl, unescapes⟩
    change ((@string Mismatch).map Scalar.text).Takes _ _ rest
    exact takes_map.mpr ⟨content, takes_string.mpr ⟨inside, rfl, unescapes⟩, rfl⟩

/-- An integer is taken as a scalar only from a spelling of it. -/
theorem exists_spellsInteger_of_scalar {number : Int}
    (taken : (@scalar Mismatch).Takes text (.number (.integer number)) rest) :
    ∃ literal, text = literal ++ rest ∧ SpellsInteger literal number := by
  rcases takes_scalar_cases taken with (null | ⟨_, truth⟩) | ⟨_, _, _, text, _⟩ |
    ⟨_, same, read⟩
  · cases null
  · cases truth
  · cases text
  · cases same
    exact exists_spellsInteger read

theorem isBlank_iff {byte : UInt8} :
    isBlank byte = true ↔
      byte = ' '.toUInt8 ∨ byte = '\n'.toUInt8 ∨ byte = '\t'.toUInt8 ∨ byte = '\r'.toUInt8 := by
  simp [isBlank, or_assoc]

/-- No scalar starts with a blank or with a bracket. -/
theorem head_of_takes_scalar {value : Scalar} (taken : (@scalar Mismatch).Takes text value rest) :
    ∃ head others, text = head :: others ∧ isBlank head = false ∧ head ≠ '['.toUInt8 ∧
      head ≠ '\x7b'.toUInt8 := by
  cases text with
  | nil => cases taken
  | cons head others =>
      have refused (other : UInt8) (noWord : word? other = none) (noMark : other ≠ '"'.toUInt8)
          (noNumber : ¬(other = '-'.toUInt8 ∨ (digit? other).isSome)) : head ≠ other := by
        rintro rfl
        unfold Reader.Takes scalar at taken
        simp only [noWord, if_neg noMark, if_neg noNumber] at taken
        cases taken
      refine ⟨head, others, rfl, ?_, refused _ (by decide) (by decide) (by decide),
        refused _ (by decide) (by decide) (by decide)⟩
      rw [← Bool.not_eq_true, isBlank_iff]
      rintro (same | same | same | same)
      all_goals exact refused _ (by decide) (by decide) (by decide) same

/-- Blanks end a number. -/
theorem endsNumber_of_blanks (blank : ∀ byte ∈ rest, isBlank byte) : EndsNumber rest := by
  intro byte among
  obtain rfl | rfl | rfl | rfl := isBlank_iff.mp (blank byte (List.mem_of_mem_head? among))
  all_goals decide

/-- A document in which brackets are refused holds a scalar that passes the check, after blanks
and before others. -/
theorem document_scalar_eq_ok_iff {list object : Reader Mismatch α}
    {check : Scalar → Except Mismatch α} {value : α}
    (noList : ∀ after rest, ¬list.Takes after value rest)
    (noObject : ∀ after rest, ¬object.Takes after value rest) :
    document (bracketed list object (scalar.refine check)) text = .ok value ↔
      ∃ before middle after read, text = before ++ middle ∧
        (∀ byte ∈ before ++ after, isBlank byte) ∧
        (@scalar Mismatch).Takes middle read after ∧ check read = .ok value := by
  simp only [document_eq_ok_iff, takes_bracketed, takes_refine]
  constructor
  · rintro ⟨after, ⟨_, _, taken⟩ | ⟨_, _, taken⟩ | ⟨head, others, shape, -, -, read, taken, passed⟩,
      blank⟩
    · exact absurd taken (noList _ _)
    · exact absurd taken (noObject _ _)
    · refine ⟨text.takeWhile isBlank, head :: others, after, read, ?_, ?_, taken, passed⟩
      · rw [← shape]
        exact List.takeWhile_append_dropWhile.symm
      · rw [List.forall_mem_append]
        exact ⟨fun _ => List.mem_takeWhile_imp, List.dropWhile_eq_nil_iff.mp blank⟩
  · rintro ⟨before, middle, after, read, rfl, blank, taken, passed⟩
    rw [List.forall_mem_append] at blank
    obtain ⟨head, others, rfl, visible, noBracket, noBrace⟩ := head_of_takes_scalar taken
    have skipped : skipBlanks (before ++ head :: others) = head :: others := by
      rw [skipBlanks, List.dropWhile_append_of_pos blank.1,
        List.dropWhile_cons_of_neg (by simp [visible])]
    exact ⟨after, .inr (.inr ⟨head, others, skipped, noBracket, noBrace, read, taken, passed⟩),
      List.dropWhile_eq_nil_iff.mpr blank.2⟩

end BooleanQuery.Json
