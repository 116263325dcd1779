import BooleanQuery.Proofs.Json.Takes
import BooleanQuery.Proofs.Text.Utf8

/-!
# Quoted strings are read back

Between quotation marks every string is written so that it is read back, whatever follows
the closing mark: escaped characters by the readers of escapes, all others byte for byte.
-/

namespace BooleanQuery.Json

open Text (Bytes encode encode_append encode_cons utf8EncodeChar_of_ascii
  le_of_mem_utf8EncodeChar decode_encode)

variable {Mismatch : Type}

/-- A byte that stands for itself inside a string. -/
def IsPlain (byte : UInt8) : Prop :=
  byte ≠ '"'.toUInt8 ∧ byte ≠ '\\'.toUInt8 ∧ ¬byte < 0x20

/-- Bytes that stand for themselves are part of the content. -/
theorem stringContent_append_of_isPlain {plain : Bytes} (each : ∀ byte ∈ plain, IsPlain byte)
    (text : Bytes) :
    @stringContent Mismatch (plain ++ text) =
      (stringContent text).map fun read => (plain ++ read.1, read.2) := by
  induction plain with
  | nil =>
      rw [List.nil_append]
      rcases stringContent text with failure | read <;> rfl
  | cons byte plain inductionHypothesis =>
      rw [List.forall_mem_cons] at each
      obtain ⟨⟨notMark, notBackslash, notControl⟩, others⟩ := each
      rw [List.cons_append, stringContent_cons, if_neg notMark, if_neg notBackslash,
        if_neg notControl, inductionHypothesis others]
      rcases stringContent text with failure | read <;> rfl

/-- An escape adds the bytes of its character to the content. -/
theorem stringContent_append_of_escape {escapeText : Bytes} {character : Char} {text : Bytes}
    (read : (@escape Mismatch).run (escapeText ++ text) = .ok (character, text)) :
    @stringContent Mismatch ('\\'.toUInt8 :: escapeText ++ text) =
      (stringContent text).map fun read =>
        (String.utf8EncodeChar character ++ read.1, read.2) := by
  rw [List.cons_append, stringContent_cons, if_neg (by decide), if_pos rfl, read]

theorem quadValue?_of_control :
    ∀ code < 0x20, quadValue? '0'.toUInt8 '0'.toUInt8 (hexDigit (code / 16)).toUInt8
      (hexDigit code).toUInt8 = some code := by
  decide

/-- A hexadecimal digit is one byte. -/
theorem utf8EncodeChar_hexDigit (digit : Nat) :
    String.utf8EncodeChar (hexDigit digit) = [(hexDigit digit).toUInt8] := by
  have digits : ∀ digit < 16, (hexDigit digit).toNat < 0x80 := by decide
  have reduced := digits (digit % 16) (Nat.mod_lt _ (by decide))
  rw [hexDigit, Nat.mod_mod] at reduced
  exact utf8EncodeChar_of_ascii reduced

/-- The escape of a control character is read as this character. -/
theorem escape_run_of_control {character : Char} (control : character.toNat < 0x20)
    (text : Bytes) :
    (@escape Mismatch).run
        (encode ['u', '0', '0', hexDigit (character.toNat / 16), hexDigit character.toNat] ++
          text) = .ok (character, text) := by
  have written : encode ['u', '0', '0', hexDigit (character.toNat / 16),
      hexDigit character.toNat] = ['u'.toUInt8, '0'.toUInt8, '0'.toUInt8,
        (hexDigit (character.toNat / 16)).toUInt8, (hexDigit character.toNat).toUInt8] := by
    simp only [encode_cons, utf8EncodeChar_hexDigit]
    rfl
  have read : (@quad Mismatch).run ('0'.toUInt8 :: '0'.toUInt8 ::
      (hexDigit (character.toNat / 16)).toUInt8 :: (hexDigit character.toNat).toUInt8 :: text) =
        .ok (character.toNat, text) := by
    simp only [quad, quadValue?_of_control _ control]
  have notTrailing : isTrailingSurrogate character.toNat = false := by
    simp only [isTrailingSurrogate, Bool.and_eq_false_iff, decide_eq_false_iff_not]
    omega
  have notLeading : isLeadingSurrogate character.toNat = false := by
    simp only [isLeadingSurrogate, Bool.and_eq_false_iff, decide_eq_false_iff_not]
    omega
  rw [written]
  simp only [List.cons_append, List.nil_append, escape, if_true, numberedEscape, read,
    notTrailing, notLeading, Bool.false_eq_true, if_false, Char.ofNat_toNat]

/-- The bytes of a character that is not escaped stand for themselves. -/
theorem isPlain_of_mem_utf8EncodeChar {character : Char} (notMark : character ≠ '"')
    (notBackslash : character ≠ '\\') (notControl : ¬character.toNat < 0x20) {byte : UInt8}
    (among : byte ∈ String.utf8EncodeChar character) : IsPlain byte := by
  by_cases ascii : character.toNat < 0x80
  · rw [utf8EncodeChar_of_ascii ascii, List.mem_singleton] at among
    have number : byte.toNat = character.toNat := by
      rw [among, UInt8.toNat_ofNat', Nat.mod_eq_of_lt (by omega)]
    have differs (other : Char) (small : other.toNat < 0x80) (apart : character ≠ other) :
        byte ≠ other.toUInt8 := by
      intro same
      have equal : character.toNat = other.toNat := by
        rw [← number, same]
        exact Nat.mod_eq_of_lt (Nat.lt_trans small (by decide))
      exact apart (Char.ext (UInt32.toNat_inj.mp equal))
    refine ⟨differs '"' (by decide) notMark, differs '\\' (by decide) notBackslash, ?_⟩
    rw [UInt8.lt_iff_toNat_lt, number]
    exact notControl
  · have beyond := le_of_mem_utf8EncodeChar (Nat.le_of_not_lt ascii) among
    rw [UInt8.le_iff_toNat_le] at beyond
    have differs (other : UInt8) (small : other.toNat < 0x80) : byte ≠ other := by
      rintro rfl
      exact absurd beyond (Nat.not_le_of_lt small)
    refine ⟨differs _ (by decide), differs _ (by decide), ?_⟩
    rw [UInt8.lt_iff_toNat_lt]
    exact Nat.not_lt_of_le (Nat.le_trans (by decide) beyond)

/-- What is written for one character adds its bytes to the content. -/
theorem stringContent_escaped (character : Char) (text : Bytes) :
    @stringContent Mismatch (encode (escaped character) ++ text) =
      (stringContent text).map fun read =>
        (String.utf8EncodeChar character ++ read.1, read.2) := by
  have byLetter (letter : Char) (written : encode ['\\', letter] = ['\\'.toUInt8, letter.toUInt8])
      (read : (@escape Mismatch).run (letter.toUInt8 :: text) = .ok (character, text)) :
      @stringContent Mismatch (encode ['\\', letter] ++ text) =
        (stringContent text).map fun read =>
          (String.utf8EncodeChar character ++ read.1, read.2) :=
    written ▸ @stringContent_append_of_escape _ [letter.toUInt8] _ _ read
  by_cases isMark : character = '"'
  · subst isMark
    exact byLetter '"' rfl rfl
  by_cases isBackslash : character = '\\'
  · subst isBackslash
    exact byLetter '\\' rfl rfl
  by_cases isFeed : character = '\n'
  · subst isFeed
    exact byLetter 'n' rfl rfl
  by_cases isReturn : character = '\r'
  · subst isReturn
    exact byLetter 'r' rfl rfl
  by_cases isTab : character = '\t'
  · subst isTab
    exact byLetter 't' rfl rfl
  by_cases isBackspace : character = '\x08'
  · subst isBackspace
    exact byLetter 'b' rfl rfl
  by_cases isFormFeed : character = '\x0c'
  · subst isFormFeed
    exact byLetter 'f' rfl rfl
  rw [escaped, if_neg isMark, if_neg isBackslash, if_neg isFeed, if_neg isReturn, if_neg isTab,
    if_neg isBackspace, if_neg isFormFeed]
  split
  · next control => exact stringContent_append_of_escape (escape_run_of_control control text)
  · next notControl =>
      have bytes : encode [character] = String.utf8EncodeChar character := List.append_nil _
      rw [bytes]
      exact stringContent_append_of_isPlain (fun byte among =>
        isPlain_of_mem_utf8EncodeChar isMark isBackslash notControl among) text

/-- The content of a quoted string ends at its closing mark. -/
theorem stringContent_quoted (characters : List Char) (rest : Bytes) :
    @stringContent Mismatch (encode (characters.flatMap escaped) ++ '"'.toUInt8 :: rest) =
      .ok (encode characters, rest) := by
  induction characters with
  | nil => exact stringContent_cons _ _
  | cons character characters inductionHypothesis =>
      rw [List.flatMap_cons, encode_append, List.append_assoc, stringContent_escaped,
        inductionHypothesis]
      rfl

theorem encode_quoted (text : String) :
    encode (quoted text) =
      '"'.toUInt8 :: (encode (text.toList.flatMap escaped) ++ ['"'.toUInt8]) := by
  rw [quoted, encode_append, encode_cons]
  rfl

theorem string_run_quoted (text : String) (rest : Bytes) :
    (@string Mismatch).run (encode (text.toList.flatMap escaped) ++ '"'.toUInt8 :: rest) =
      .ok (text, rest) := by
  simp [string, stringContent_quoted]

theorem key_run_quoted (text : String) (rest : Bytes) :
    (@key Mismatch).run (encode (quoted text) ++ rest) = .ok (text, rest) := by
  rw [encode_quoted, List.cons_append, List.append_assoc]
  exact string_run_quoted text rest

theorem scalar_run_quoted (text : String) (rest : Bytes) :
    (@scalar Mismatch).run (encode (quoted text) ++ rest) = .ok (.text text, rest) := by
  rw [encode_quoted, List.cons_append, List.append_assoc]
  change ((@string Mismatch).map Scalar.text).run _ = _
  simp only [Reader.map, List.singleton_append, string_run_quoted]

end BooleanQuery.Json
