import BooleanQuery.Proofs.Json.Literal
import BooleanQuery.Proofs.Query.RoundTrip
import BooleanQuery.Proofs.Query.Schema

/-!
# Texts of kinds

The text of a kind is a string literal of its name or the spelling of an integer of 32 bits, and
blanks may stand around it. Which literals these are is not said by the readers but by the grammar
of strings and integers. Among the texts of a kind is the one that is written for it, if the kind
is that of a number.
-/

namespace BooleanQuery

open Text (Bytes bytesOf encode)
open Json (Reader quoted greatestNesting isBlank isBlank_iff Unescapes SpellsInteger
  exists_unescapes_of_quoted spellsInteger_integerText not_takes_refuse document_scalar_eq_ok_iff
  takes_scalar_text_iff exists_spellsInteger_of_scalar scalar_run_of_takes_number
  endsNumber_of_blanks)

namespace Kind

theorem mem_names_of_ofName? {name : String} {kind : Kind} (found : ofName? name = some kind) :
    name ∈ ["TERM", "AND", "OR", "DISMAX"] := by
  unfold ofName? at found
  grind

/-- The literals of a kind: a string of its name, or a spelling of its number. -/
inductive LiteralOf : Bytes → Kind → Prop where
  | named {inside : Bytes} {name : String} {kind : Kind}
      (unescapes : Unescapes inside (bytesOf name)) (known : name ∈ ["TERM", "AND", "OR", "DISMAX"])
      (found : ofName? name = some kind) : LiteralOf ('"'.toUInt8 :: inside ++ ['"'.toUInt8]) kind
  | numbered {literal : Bytes} {value : Int} (spells : SpellsInteger literal value)
      (low : -2 ^ 31 ≤ value) (high : value ≤ 2 ^ 31 - 1) :
      LiteralOf literal (ofNumber (Int32.ofInt value))

/-- A text is read as a kind exactly if it is a literal of the kind between blanks. -/
theorem ofText_eq_ok_iff {text : Bytes} {kind : Kind} :
    ofText text = .ok kind ↔
      ∃ before literal after, text = before ++ literal ++ after ∧
        (∀ byte ∈ before ++ after, isBlank byte) ∧ LiteralOf literal kind := by
  have noBracket (found : Shape) (past : Bytes → Bytes) (after rest : Bytes) :
      ¬(Query.refuseKindBracket greatestNesting found past : Reader Mismatch Kind).Takes after kind
        rest :=
    not_takes_refuse
  rw [ofText, mapError_eq_ok_iff, document_scalar_eq_ok_iff (noBracket _ _) (noBracket _ _)]
  constructor
  · rintro ⟨before, middle, after, read, rfl, blank, taken, checked⟩
    rcases ofScalar_eq_ok_iff.mp checked with known | ⟨low, high⟩
    · obtain ⟨inside, rfl, unescapes⟩ := takes_scalar_text_iff.mp taken
      have found := ofName?_eq_some_iff.mpr ⟨rfl, known⟩
      exact ⟨before, _, after, by simp, blank, .named unescapes (mem_names_of_ofName? found) found⟩
    · obtain ⟨literal, rfl, spells⟩ := exists_spellsInteger_of_scalar taken
      exact ⟨before, literal, after, by simp, blank, .numbered spells low (by omega)⟩
  · rintro ⟨before, literal, after, rfl, blank, literalOf⟩
    rw [List.append_assoc]
    cases literalOf with
    | @named inside name _ unescapes known found =>
        refine ⟨before, _, after, .text name, rfl, blank, ?_, ?_⟩
        · exact takes_scalar_text_iff.mpr ⟨inside, by simp, unescapes⟩
        · rw [ofScalar, found]
    | @numbered _ value spells low high =>
        have ends := endsNumber_of_blanks (List.forall_mem_append.mp blank).2
        have bounds : -(Json.greatestNegated : Int) ≤ value ∧ value ≤ Json.greatestSignificand := by
          simp only [Json.greatestNegated, Json.greatestSignificand]
          omega
        exact ⟨before, _, after, .number (.integer value), rfl, blank,
          scalar_run_of_takes_number (spells.takes_number bounds.1 bounds.2) ends,
          if_pos ⟨by omega, by omega⟩⟩

/-- The kind of a number has this number. -/
theorem number_ofNumber (number : Int32) : (ofNumber number).number = number := by
  unfold ofNumber
  split_ifs with isTerm isAnd isOr isDisMax
  · exact isTerm.symm
  · exact isAnd.symm
  · exact isOr.symm
  · exact isDisMax.symm
  · rfl

/-- A number stands for no kind exactly if it is not one of the first four. -/
theorem ofNumber_eq_unknown_iff {number : Int32} :
    ofNumber number = .unknown number ↔ ¬(0 ≤ number ∧ number ≤ 3) := by
  constructor
  · rintro unknown ⟨low, high⟩
    have known : number = 0 ∨ number = 1 ∨ number = 2 ∨ number = 3 := by
      rw [Int32.le_iff_toInt_le] at low high
      simp only [← Int32.toInt_inj]
      change 0 ≤ number.toInt at low
      change number.toInt ≤ 3 at high
      change number.toInt = 0 ∨ number.toInt = 1 ∨ number.toInt = 2 ∨ number.toInt = 3
      omega
    rcases known with rfl | rfl | rfl | rfl <;> cases unknown
  · intro outside
    have differs (other : Int32) (within : 0 ≤ other ∧ other ≤ 3) : number ≠ other := by
      rintro rfl
      exact outside within
    rw [ofNumber, if_neg (differs 0 (by decide)), if_neg (differs 1 (by decide)),
      if_neg (differs 2 (by decide)), if_neg (differs 3 (by decide))]

theorem literalOf_quoted {kind : Kind} (found : ofName? kind.name = some kind) :
    LiteralOf (encode (quoted kind.name)) kind := by
  obtain ⟨inside, written, unescapes⟩ := exists_unescapes_of_quoted kind.name
  rw [written]
  exact .named unescapes (mem_names_of_ofName? found) found

/-- The text of the kind of a number is a literal of this kind. -/
theorem literalOf_json (number : Int32) :
    LiteralOf (encode (ofNumber number).json) (ofNumber number) := by
  cases shape : ofNumber number with
  | unknown other =>
      obtain rfl := eq_of_unknown_eq_ofNumber shape.symm
      have low := other.le_toInt
      have high := other.toInt_lt
      have literal := LiteralOf.numbered (spellsInteger_integerText other.toInt) low (by omega)
      rw [Int32.ofInt_toInt, shape] at literal
      exact literal
  | _ => exact literalOf_quoted rfl

/-- The text of the kind of a number is a string literal exactly if the number is one of the first
four. -/
theorem isString_json_iff (number : Int32) :
    (∃ inside content, encode (ofNumber number).json = '"'.toUInt8 :: inside ++ ['"'.toUInt8] ∧
      Unescapes inside content) ↔ 0 ≤ number ∧ number ≤ 3 := by
  constructor
  · rintro ⟨inside, _, written, -⟩
    by_contra outside
    rw [ofNumber_eq_unknown_iff.mpr outside] at written
    exact (spellsInteger_integerText number.toInt).ne_mark_cons _ written
  · intro within
    cases shape : ofNumber number with
    | unknown other =>
        obtain rfl := eq_of_unknown_eq_ofNumber shape.symm
        exact absurd within (ofNumber_eq_unknown_iff.mp shape)
    | _ =>
        obtain ⟨inside, written, unescapes⟩ := exists_unescapes_of_quoted (name _)
        exact ⟨inside, _, written, unescapes⟩

/-- Exactly the kinds of numbers are the kind of their own number. -/
theorem ofNumber_number_iff (kind : Kind) :
    ofNumber kind.number = kind ↔
      ¬∃ number : Int32, kind = .unknown number ∧ 0 ≤ number ∧ number ≤ 3 := by
  cases kind with
  | unknown number => simpa [Kind.number] using ofNumber_eq_unknown_iff
  | _ => exact iff_of_true rfl fun ⟨_, same, _⟩ => nomatch same

/-- Kinds are read from texts exactly as far as the format of strings and integers allows: from
their names, however these are escaped, and from integers of 32 bits, with any blanks around. The
text that is written for the kind of a number is read as this kind; it is a string if the number is
one of the first four. The kinds of numbers are all but those that are marked as unknown although
their number is one of these. -/
theorem ofText_reads_literals :
    (∀ (text : Bytes) (kind : Kind), ofText text = .ok kind ↔
      ∃ before literal after, text = before ++ literal ++ after ∧
        (∀ byte ∈ before ++ after, byte ∈ [' ', '\n', '\t', '\r'].map Char.toUInt8) ∧
        LiteralOf literal kind) ∧
    (∀ number : Int32, ofText (encode (ofNumber number).json) = .ok (ofNumber number) ∧
      (ofNumber number).number = number ∧
      ((∃ inside content, encode (ofNumber number).json = '"'.toUInt8 :: inside ++ ['"'.toUInt8] ∧
        Unescapes inside content) ↔ 0 ≤ number ∧ number ≤ 3)) ∧
    (∀ kind : Kind, ofNumber kind.number = kind ↔
      ¬∃ number : Int32, kind = .unknown number ∧ 0 ≤ number ∧ number ≤ 3) := by
  refine ⟨fun text kind => ?_, fun number => ⟨?_, number_ofNumber number, isString_json_iff number⟩,
    ofNumber_number_iff⟩
  · simp only [ofText_eq_ok_iff, isBlank_iff, List.map_cons, List.map_nil, List.mem_cons,
      List.not_mem_nil, or_false]
  · exact ofText_eq_ok_iff.mpr ⟨[], _, [], by simp, nofun, literalOf_json number⟩

end Kind

end BooleanQuery
