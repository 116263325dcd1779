import BooleanQuery.Proofs.Json.Quoted
import Mathlib.Data.List.Forall2

/-!
# String literals

`Unescapes` says which bytes a text between quotation marks stands for, in the words of the JSON
format: a byte stands for itself, a letter after a backslash for one of eight characters, and
numbers after a backslash for the character that they are in UTF-16. Exactly these texts are read
as strings, and to these bytes.
-/

namespace BooleanQuery.Json

open Text (Bytes encode bytesOf decode_encode encode_append_of_decode)

variable {Mismatch α β : Type}

/-- The letters that may follow a backslash, with the characters that they stand for. -/
def letterEscapes : List (Char × Char) :=
  [('"', '"'), ('\\', '\\'), ('/', '/'), ('b', '\x08'), ('f', '\x0c'), ('n', '\n'), ('r', '\r'),
    ('t', '\t')]

/-- The code units of a character in UTF-16: its number, or a surrogate pair. -/
def codeUnits (character : Char) : List Nat :=
  if character.toNat < 0x10000 then [character.toNat]
  else [0xd800 + (character.toNat - 0x10000) / 0x400, 0xdc00 + (character.toNat - 0x10000) % 0x400]

/-- A byte is a hexadecimal digit, of either case. -/
def IsHexDigit (byte : UInt8) (value : Nat) : Prop :=
  value < 16 ∧ (byte = (Nat.digitChar value).toUInt8 ∨ byte = (Nat.digitChar value).toUpper.toUInt8)

/-- Four hexadecimal digits spell a code unit. -/
def SpellsUnit (digits : Bytes) (unit : Nat) : Prop :=
  unit < 0x10000 ∧
    List.Forall₂ IsHexDigit digits [unit / 4096, unit / 256 % 16, unit / 16 % 16, unit % 16]

/-- An escape stands for a character. -/
inductive EscapeOf : Bytes → Char → Prop where
  | letter {letter character : Char} (named : (letter, character) ∈ letterEscapes) :
      EscapeOf ['\\'.toUInt8, letter.toUInt8] character
  | units {quads : List Bytes} {character : Char}
      (spelled : List.Forall₂ SpellsUnit quads (codeUnits character)) :
      EscapeOf (quads.flatMap fun digits => '\\'.toUInt8 :: 'u'.toUInt8 :: digits) character

/-- A text between quotation marks stands for the bytes of a string. -/
inductive Unescapes : Bytes → Bytes → Prop where
  | nil : Unescapes [] []
  | plain {byte : UInt8} {text content : Bytes} (isPlain : IsPlain byte)
      (others : Unescapes text content) : Unescapes (byte :: text) (byte :: content)
  | escape {spelled text content : Bytes} {character : Char} (escape : EscapeOf spelled character)
      (others : Unescapes text content) :
      Unescapes (spelled ++ text) (String.utf8EncodeChar character ++ content)

section Digits

/-- The bytes of the hexadecimal digits of each case. -/
theorem toNat_digitChar : ∀ value < 16,
    (Nat.digitChar value).toUInt8.toNat = (if value < 10 then 48 else 87) + value ∧
      (Nat.digitChar value).toUpper.toUInt8.toNat = (if value < 10 then 48 else 55) + value := by
  decide

/-- Hexadecimal digits have their values. -/
theorem hexValue?_eq_some_iff {byte : UInt8} {value : Nat} :
    hexValue? byte = some value ↔ IsHexDigit byte value := by
  have decimal : '0'.toUInt8.toNat = 48 ∧ '9'.toUInt8.toNat = 57 := ⟨rfl, rfl⟩
  have lower : 'a'.toUInt8.toNat = 97 ∧ 'f'.toUInt8.toNat = 102 := ⟨rfl, rfl⟩
  have upper : 'A'.toUInt8.toNat = 65 ∧ 'F'.toUInt8.toNat = 70 := ⟨rfl, rfl⟩
  have bytes := toNat_digitChar value
  unfold hexValue? IsHexDigit
  -- Once all bytes are numbers, the ranges of the digits are compared.
  simp only [UInt8.le_iff_toNat_le, ← UInt8.toNat_inj, decimal, lower, upper]
  grind

/-- Four digits have the code unit that they spell for their value. -/
theorem quadValue?_eq_some_iff {first second third fourth : UInt8} {unit : Nat} :
    quadValue? first second third fourth = some unit ↔
      SpellsUnit [first, second, third, fourth] unit := by
  simp only [quadValue?, Option.bind_eq_bind, Option.bind_eq_some_iff, hexValue?_eq_some_iff,
    Option.some.injEq, SpellsUnit, List.forall₂_cons, List.Forall₂.nil, and_true]
  constructor
  · rintro ⟨one, isOne, two, isTwo, three, isThree, four, isFour, rfl⟩
    obtain ⟨smallOne, smallTwo, smallThree, smallFour⟩ :=
      And.intro isOne.1 (And.intro isTwo.1 (And.intro isThree.1 isFour.1))
    have digits : (((one * 16 + two) * 16 + three) * 16 + four) / 4096 = one ∧
        (((one * 16 + two) * 16 + three) * 16 + four) / 256 % 16 = two ∧
        (((one * 16 + two) * 16 + three) * 16 + four) / 16 % 16 = three ∧
        (((one * 16 + two) * 16 + three) * 16 + four) % 16 = four := by
      omega
    rw [digits.1, digits.2.1, digits.2.2.1, digits.2.2.2]
    exact ⟨by omega, isOne, isTwo, isThree, isFour⟩
  · rintro ⟨small, isOne, isTwo, isThree, isFour⟩
    exact ⟨_, isOne, _, isTwo, _, isThree, _, isFour, by omega⟩

/-- Four digits are read as the code unit that they spell. -/
theorem takes_quad {text rest : Bytes} {unit : Nat} :
    (@quad Mismatch).Takes text unit rest ↔
      ∃ digits, text = digits ++ rest ∧ SpellsUnit digits unit := by
  unfold Reader.Takes quad
  dsimp only
  constructor
  · intro taken
    split at taken
    · split at taken
      · next found =>
          cases taken
          exact ⟨[_, _, _, _], rfl, quadValue?_eq_some_iff.mp found⟩
      · cases taken
    · cases taken
  · rintro ⟨digits, rfl, spells⟩
    obtain ⟨first, second, third, fourth, rfl⟩ :
        ∃ first second third fourth, digits = [first, second, third, fourth] := by
      have length := spells.2.length_eq
      exact List.length_eq_four.mp length
    simp only [List.cons_append, List.nil_append, quadValue?_eq_some_iff.mpr spells]

end Digits

section Units

variable {character : Char} {unit leading trailing : Nat}

theorem toNat_lt_or (character : Char) :
    character.toNat < 0xd800 ∨ 0xdfff < character.toNat ∧ character.toNat < 0x110000 :=
  character.valid

theorem toNat_ofNat_of_valid {number : Nat}
    (valid : number < 0xd800 ∨ 0xdfff < number ∧ number < 0x110000) :
    (Char.ofNat number).toNat = number := by
  rw [Char.ofNat, dif_pos valid]
  rfl

/-- A single code unit is a number of 16 bits that is no surrogate. -/
theorem codeUnits_eq_singleton_iff :
    codeUnits character = [unit] ↔
      unit < 0x10000 ∧ isTrailingSurrogate unit = false ∧ isLeadingSurrogate unit = false ∧
        Char.ofNat unit = character := by
  simp only [isTrailingSurrogate, isLeadingSurrogate, Bool.and_eq_false_iff,
    decide_eq_false_iff_not]
  constructor
  · intro units
    have valid := toNat_lt_or character
    unfold codeUnits at units
    split at units
    · cases units
      exact ⟨by omega, by omega, by omega, Char.ofNat_toNat character⟩
    · cases units
  · rintro ⟨small, notTrailing, notLeading, rfl⟩
    rw [codeUnits, toNat_ofNat_of_valid (by omega), if_pos small]

/-- Two code units are a leading and a trailing surrogate. -/
theorem codeUnits_eq_pair_iff :
    codeUnits character = [leading, trailing] ↔
      isLeadingSurrogate leading = true ∧ isTrailingSurrogate trailing = true ∧
        pairedSurrogates leading trailing = character := by
  simp only [isTrailingSurrogate, isLeadingSurrogate, Bool.and_eq_true, decide_eq_true_eq,
    pairedSurrogates]
  constructor
  · intro units
    have valid := toNat_lt_or character
    unfold codeUnits at units
    split at units
    · cases units
    · next beyond =>
        simp only [List.cons.injEq, and_true] at units
        obtain ⟨rfl, rfl⟩ := units
        refine ⟨by omega, by omega, ?_⟩
        have number : 0x10000 + (0xd800 + (character.toNat - 0x10000) / 0x400 - 0xd800) * 0x400 +
            (0xdc00 + (character.toNat - 0x10000) % 0x400 - 0xdc00) = character.toNat := by
          omega
        rw [number, Char.ofNat_toNat]
  · rintro ⟨isLeading, isTrailing, rfl⟩
    rw [codeUnits, toNat_ofNat_of_valid (by omega), if_neg (by omega)]
    exact congrArg₂ (fun first second => [first, second]) (by omega) (by omega)

theorem not_trailing_of_leading (isLeading : isLeadingSurrogate unit = true) :
    isTrailingSurrogate unit = false := by
  simp only [isLeadingSurrogate, isTrailingSurrogate, Bool.and_eq_true, decide_eq_true_eq,
    Bool.and_eq_false_iff, decide_eq_false_iff_not] at isLeading ⊢
  omega

/-- A character has one or two code units. -/
theorem codeUnits_shape (character : Char) :
    (∃ unit, codeUnits character = [unit]) ∨
      ∃ leading trailing, codeUnits character = [leading, trailing] := by
  unfold codeUnits
  split
  · exact .inl ⟨_, rfl⟩
  · exact .inr ⟨_, _, rfl⟩

end Units

section Escapes

variable {text rest : Bytes} {character : Char}

/-- A given byte is taken. -/
theorem takes_expectByte {expected : UInt8} {fault : Fault} {value : Unit} :
    (@expectByte Mismatch expected fault).Takes text value rest ↔ text = expected :: rest := by
  unfold Reader.Takes expectByte
  dsimp only
  split
  · simp
  · next byte after =>
      split
      · next same => simp [same]
      · next other => simp [other]

/-- A trailing surrogate is taken from an escape of its own. -/
theorem takes_trailingSurrogate {unit : Nat} :
    (@trailingSurrogate Mismatch).Takes text unit rest ↔
      ∃ digits, text = '\\'.toUInt8 :: 'u'.toUInt8 :: (digits ++ rest) ∧ SpellsUnit digits unit ∧
        isTrailingSurrogate unit = true := by
  simp only [trailingSurrogate, takes_andThen, takes_validate, takes_expectByte, takes_quad]
  constructor
  · rintro ⟨_, _, rfl, _, _, rfl, code, ⟨digits, rfl, spells⟩, checked⟩
    split at checked
    · next isTrailing =>
        cases checked
        exact ⟨digits, rfl, spells, isTrailing⟩
    · cases checked
  · rintro ⟨digits, rfl, spells, isTrailing⟩
    exact ⟨(), _, rfl, (), _, rfl, unit, ⟨digits, rfl, spells⟩, if_pos isTrailing⟩

/-- A numbered escape starts with a code unit that is no trailing surrogate. It stands for the
character, or if it is a leading surrogate it needs a trailing one after it. -/
theorem takes_numberedEscape_iff_unit :
    (@numberedEscape Mismatch).Takes text character rest ↔
      ∃ unit middle, (@quad Mismatch).Takes text unit middle ∧
        isTrailingSurrogate unit = false ∧
        (isLeadingSurrogate unit = false ∧ Char.ofNat unit = character ∧ middle = rest ∨
          isLeadingSurrogate unit = true ∧ ∃ trailing,
            (@trailingSurrogate Mismatch).Takes middle trailing rest ∧
              pairedSurrogates unit trailing = character) := by
  unfold Reader.Takes numberedEscape
  dsimp only
  rcases quad.run text with failure | ⟨unit, middle⟩
  · simp
  · have paired := @takes_map Mismatch _ _ middle rest trailingSurrogate (pairedSurrogates unit)
      character
    unfold Reader.Takes at paired
    cases trailing : isTrailingSurrogate unit <;> cases leading : isLeadingSurrogate unit <;>
      simp_all [and_assoc]

/-- A numbered escape stands for the character that its code units are. -/
theorem takes_numberedEscape :
    (@numberedEscape Mismatch).Takes text character rest ↔
      ∃ quads, List.Forall₂ SpellsUnit quads (codeUnits character) ∧
        '\\'.toUInt8 :: 'u'.toUInt8 :: text =
          (quads.flatMap fun digits => '\\'.toUInt8 :: 'u'.toUInt8 :: digits) ++ rest := by
  simp only [takes_numberedEscape_iff_unit, takes_quad, takes_trailingSurrogate]
  constructor
  · rintro ⟨unit, middle, ⟨digits, rfl, spells⟩, notTrailing,
      ⟨notLeading, made, rfl⟩ | ⟨isLeading, trailing, ⟨others, rfl, also, isTrailing⟩, made⟩⟩
    · rw [codeUnits_eq_singleton_iff.mpr ⟨spells.1, notTrailing, notLeading, made⟩]
      exact ⟨[digits], .cons spells .nil, by simp⟩
    · rw [codeUnits_eq_pair_iff.mpr ⟨isLeading, isTrailing, made⟩]
      exact ⟨[digits, others], .cons spells (.cons also .nil), by simp⟩
  · rintro ⟨quads, spelled, shape⟩
    rcases codeUnits_shape character with ⟨unit, units⟩ | ⟨leading, trailing, units⟩
    · rw [units] at spelled
      obtain ⟨-, notTrailing, notLeading, made⟩ := codeUnits_eq_singleton_iff.mp units
      obtain ⟨digits, _, spells, ends, rfl⟩ := List.forall₂_cons_right_iff.mp spelled
      obtain rfl := List.forall₂_nil_right_iff.mp ends
      exact ⟨unit, rest, ⟨digits, by simpa using shape, spells⟩, notTrailing,
        .inl ⟨notLeading, made, rfl⟩⟩
    · rw [units] at spelled
      obtain ⟨isLeading, isTrailing, made⟩ := codeUnits_eq_pair_iff.mp units
      obtain ⟨digits, _, spells, second, rfl⟩ := List.forall₂_cons_right_iff.mp spelled
      obtain ⟨others, _, also, ends, rfl⟩ := List.forall₂_cons_right_iff.mp second
      obtain rfl := List.forall₂_nil_right_iff.mp ends
      exact ⟨leading, _, ⟨digits, by simpa using shape, spells⟩, not_trailing_of_leading isLeading,
        .inr ⟨isLeading, trailing, ⟨others, rfl, also, isTrailing⟩, made⟩⟩

/-- There is a code unit. -/
theorem exists_cons_of_spelled {quads : List Bytes}
    (spelled : List.Forall₂ SpellsUnit quads (codeUnits character)) :
    ∃ digits others, quads = digits :: others := by
  cases quads with
  | nil =>
      rcases codeUnits_shape character with ⟨_, units⟩ | ⟨_, _, units⟩
      all_goals
        rw [units] at spelled
        cases spelled
  | cons digits others => exact ⟨digits, others, rfl⟩

/-- An escape starts with a backslash. -/
theorem EscapeOf.exists_cons {spelled : Bytes} (escape : EscapeOf spelled character) :
    ∃ others, spelled = '\\'.toUInt8 :: others := by
  cases escape with
  | letter => exact ⟨_, rfl⟩
  | units spelled =>
      obtain ⟨digits, others, rfl⟩ := exists_cons_of_spelled spelled
      exact ⟨_, rfl⟩

/-- Exactly the letters of escapes have a character. -/
theorem letterEscape?_eq_some_iff {byte : UInt8} :
    letterEscape? byte = some character ↔
      ∃ letter : Char, (letter, character) ∈ letterEscapes ∧ byte = letter.toUInt8 := by
  constructor
  · intro found
    unfold letterEscape? at found
    split_ifs at found with mark backslash slash b f n r t <;> cases found
    · exact ⟨'"', by decide, mark⟩
    · exact ⟨'\\', by decide, backslash⟩
    · exact ⟨'/', by decide, slash⟩
    · exact ⟨'b', by decide, b⟩
    · exact ⟨'f', by decide, f⟩
    · exact ⟨'n', by decide, n⟩
    · exact ⟨'r', by decide, r⟩
    · exact ⟨'t', by decide, t⟩
  · have each : ∀ named ∈ letterEscapes, letterEscape? named.1.toUInt8 = some named.2 := by decide
    rintro ⟨letter, member, rfl⟩
    exact each _ member

/-- An escape is taken after its backslash. -/
theorem takes_escape :
    (@escape Mismatch).Takes text character rest ↔
      ∃ spelled, EscapeOf spelled character ∧ '\\'.toUInt8 :: text = spelled ++ rest := by
  have noUnits (letter : Char) (character : Char) (named : (letter, character) ∈ letterEscapes) :
      letter.toUInt8 ≠ 'u'.toUInt8 := by
    have each : ∀ named ∈ letterEscapes, named.1.toUInt8 ≠ 'u'.toUInt8 := by decide
    exact each _ named
  constructor
  · intro taken
    cases text with
    | nil => cases taken
    | cons byte text =>
        unfold Reader.Takes escape at taken
        dsimp only at taken
        split at taken
        · next isUnits =>
            obtain ⟨quads, spelled, shape⟩ := takes_numberedEscape.mp taken
            exact ⟨_, .units spelled, isUnits ▸ shape⟩
        · split at taken
          · next found =>
              cases taken
              obtain ⟨letter, named, rfl⟩ := letterEscape?_eq_some_iff.mp found
              exact ⟨_, .letter named, rfl⟩
          · cases taken
  · rintro ⟨_, @⟨letter, _, named⟩ | @⟨quads, _, spelled⟩, shape⟩
    · obtain rfl : text = letter.toUInt8 :: rest := (List.cons.inj shape).2
      have found := letterEscape?_eq_some_iff.mpr ⟨letter, named, rfl⟩
      unfold Reader.Takes escape
      simp only [if_neg (noUnits letter character named), found]
    · obtain ⟨digits, others, rfl⟩ := exists_cons_of_spelled spelled
      obtain rfl := (List.cons.inj shape).2
      exact takes_numberedEscape.mpr ⟨_, spelled, rfl⟩

end Escapes

/-- The content of a string is that of a literal up to the closing mark. -/
theorem stringContent_eq_ok_iff {text content rest : Bytes} :
    @stringContent Mismatch text = .ok (content, rest) ↔
      ∃ literal, text = literal ++ '"'.toUInt8 :: rest ∧ Unescapes literal content := by
  constructor
  · intro read
    -- Each step of the reader puts its piece in front of the literal of the remaining text.
    fun_induction @stringContent Mismatch text generalizing content with
    | case1 => cases read
    | case2 =>
        cases read
        exact ⟨[], rfl, .nil⟩
    | case3 => cases read
    | case4 => cases read
    | case5 tail character following escaped shorter content' after others mark
        inductionHypothesis =>
        cases read
        obtain ⟨spelled, escape, shape⟩ := takes_escape.mp escaped
        obtain ⟨literal, rfl, unescapes⟩ := inductionHypothesis others
        exact ⟨spelled ++ literal, by rw [shape, List.append_assoc], .escape escape unescapes⟩
    | case6 => cases read
    | case7 => cases read
    | case8 byte tail mark backslash control content' after others inductionHypothesis =>
        cases read
        obtain ⟨literal, rfl, unescapes⟩ := inductionHypothesis others
        exact ⟨byte :: literal, rfl, .plain ⟨mark, backslash, control⟩ unescapes⟩
  · rintro ⟨literal, rfl, unescapes⟩
    induction unescapes with
    | nil => exact stringContent_cons _ _
    | @plain byte text content isPlain others inductionHypothesis =>
        have each : ∀ other ∈ [byte], IsPlain other := by simpa using isPlain
        have added := @stringContent_append_of_isPlain Mismatch [byte] each
          (text ++ '"'.toUInt8 :: rest)
        rw [inductionHypothesis] at added
        exact added
    | @escape spelled text content character escape others inductionHypothesis =>
        obtain ⟨letters, rfl⟩ := escape.exists_cons
        rw [List.append_assoc, stringContent_append_of_escape
          (takes_escape.mpr ⟨_, escape, rfl⟩), inductionHypothesis]
        rfl

/-- A string is taken from a literal of its bytes, up to the closing mark. -/
theorem takes_string {text rest : Bytes} {value : String} :
    (@string Mismatch).Takes text value rest ↔
      ∃ literal, text = literal ++ '"'.toUInt8 :: rest ∧ Unescapes literal (bytesOf value) := by
  rw [← @stringContent_eq_ok_iff Mismatch]
  unfold Reader.Takes string
  dsimp only
  constructor
  · intro taken
    split at taken
    · cases taken
    · next content after read =>
        split at taken
        · next characters decoded =>
            cases taken
            have bytes := encode_append_of_decode decoded
            rw [List.append_nil] at bytes
            rw [bytesOf, String.toList_ofList, bytes, read]
        · cases taken
  · intro read
    simp [read, bytesOf]

/-- What is written between the marks of a string stands for it. -/
theorem exists_unescapes_of_quoted (text : String) :
    ∃ inside, encode (quoted text) = '"'.toUInt8 :: inside ++ ['"'.toUInt8] ∧
      Unescapes inside (bytesOf text) := by
  obtain ⟨inside, shape, unescapes⟩ :=
    stringContent_eq_ok_iff.mp (@stringContent_quoted Empty text.toList [])
  refine ⟨inside, ?_, unescapes⟩
  rw [encode_quoted, shape]
  rfl

end BooleanQuery.Json
