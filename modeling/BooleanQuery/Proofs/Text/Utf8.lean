import BooleanQuery.Text.Utf8

/-!
# Encoded characters

What `encode` writes, `decode` reads: the first byte of a character announces how many
bytes belong to it, and together they spell its number. Besides, the bytes of a character
outside ASCII are all above ASCII, so a byte of punctuation inside encoded text is the
character that it looks like.
-/

namespace BooleanQuery.Text

@[simp] theorem encode_nil : encode [] = [] := rfl

@[simp] theorem encode_cons (character : Char) (characters : List Char) :
    encode (character :: characters) = String.utf8EncodeChar character ++ encode characters := rfl

@[simp] theorem encode_append (left right : List Char) :
    encode (left ++ right) = encode left ++ encode right :=
  List.flatMap_append

theorem utf8EncodeChar_of_ascii {character : Char} (ascii : character.toNat < 0x80) :
    String.utf8EncodeChar character = [UInt8.ofNat character.toNat] := by
  have bound : character.val.toNat ≤ 0x7f := Nat.le_of_lt_succ ascii
  rw [String.utf8EncodeChar]
  exact if_pos bound

/-- The bytes of a character outside ASCII are above ASCII. -/
theorem le_of_mem_utf8EncodeChar {character : Char} (beyond : 0x80 ≤ character.toNat)
    {byte : UInt8} (among : byte ∈ String.utf8EncodeChar character) : 0x80 ≤ byte := by
  have bound : ¬character.val.toNat ≤ 0x7f := Nat.not_le_of_lt beyond
  have bytes (number : Nat) (low : 0x80 ≤ number) (high : number < 0x100) :
      0x80 ≤ UInt8.ofNat number := by
    rw [UInt8.le_iff_toNat_le, UInt8.toNat_ofNat', Nat.mod_eq_of_lt high]
    exact low
  rw [String.utf8EncodeChar, if_neg bound] at among
  split at among
  · simp only [List.mem_cons, List.not_mem_nil, or_false] at among
    rcases among with rfl | rfl <;> exact bytes _ (by omega) (by omega)
  · split at among
    · simp only [List.mem_cons, List.not_mem_nil, or_false] at among
      rcases among with rfl | rfl | rfl <;> exact bytes _ (by omega) (by omega)
    · simp only [List.mem_cons, List.not_mem_nil, or_false] at among
      rcases among with rfl | rfl | rfl | rfl <;> exact bytes _ (by omega) (by omega)

theorem announcedWidth_ofNat {number : Nat} (high : number < 0x100) :
    announcedWidth (UInt8.ofNat number) =
      if number < 0x80 then 1 else if number < 0xe0 then 2 else if number < 0xf0 then 3 else 4 := by
  simp only [announcedWidth, UInt8.lt_iff_toNat_lt, UInt8.toNat_ofNat', Nat.mod_eq_of_lt high]
  rfl

/-- The first byte of a character announces its width, and all bytes spell its number. -/
theorem utf8EncodeChar_shape (character : Char) :
    ∃ lead others, String.utf8EncodeChar character = lead :: others ∧
      announcedWidth lead = others.length + 1 ∧
      spelledCode (lead :: others) = character.toNat := by
  have range : character.val.toNat < 0x110000 := by
    have valid := character.valid
    simp only [UInt32.isValidChar, Nat.isValidChar] at valid
    omega
  change ∃ lead others, _ ∧ _ ∧ _ = character.val.toNat
  rw [String.utf8EncodeChar]
  generalize character.val.toNat = code at range
  split
  · refine ⟨_, _, rfl, ?_, ?_⟩
    · rw [announcedWidth_ofNat (by omega), if_pos (by omega)]
      rfl
    · simp only [spelledCode, UInt8.toNat_ofNat']
      omega
  · split
    · refine ⟨_, _, rfl, ?_, ?_⟩
      · rw [announcedWidth_ofNat (by omega), if_neg (by omega), if_pos (by omega)]
        rfl
      · simp only [spelledCode, UInt8.toNat_ofNat']
        omega
    · split
      · refine ⟨_, _, rfl, ?_, ?_⟩
        · rw [announcedWidth_ofNat (by omega), if_neg (by omega), if_neg (by omega),
            if_pos (by omega)]
          rfl
        · simp only [spelledCode, UInt8.toNat_ofNat']
          omega
      · refine ⟨_, _, rfl, ?_, ?_⟩
        · rw [announcedWidth_ofNat (by omega), if_neg (by omega), if_neg (by omega),
            if_neg (by omega)]
          rfl
        · simp only [spelledCode, UInt8.toNat_ofNat']
          omega

/-- Decoding what a character starts finds it, and goes on with the rest. -/
theorem decode_utf8EncodeChar_append (character : Char) (rest : Bytes) :
    decode (String.utf8EncodeChar character ++ rest) =
      (character :: (decode rest).1, (decode rest).2) := by
  obtain ⟨lead, others, written, width, spelled⟩ := utf8EncodeChar_shape character
  have announced : (lead :: (others ++ rest)).take (announcedWidth lead) = lead :: others := by
    rw [width, List.take_succ_cons, List.take_left']
    rfl
  have following : (others ++ rest).drop (announcedWidth lead - 1) = rest := by
    rw [width, Nat.add_sub_cancel, List.drop_left]
  have first : firstChar? lead (others ++ rest) = some character := by
    rw [firstChar?, announced, spelled, Char.ofNat_toNat, written]
    exact if_pos rfl
  rw [written, List.cons_append, decode, first, following]

/-- All of what is encoded is decoded. -/
@[simp] theorem decode_encode (characters : List Char) :
    decode (encode characters) = (characters, []) := by
  induction characters with
  | nil => rw [encode_nil, decode]
  | cons character characters inductionHypothesis =>
      rw [encode_cons, decode_utf8EncodeChar_append, inductionHypothesis]

/-- What is decoded and what is left make up the text. -/
theorem encode_append_of_decode {bytes broken : Bytes} {characters : List Char}
    (decoded : decode bytes = (characters, broken)) : encode characters ++ broken = bytes := by
  fun_induction decode bytes generalizing characters with
  | case1 =>
      cases decoded
      rfl
  | case2 =>
      cases decoded
      rfl
  | case3 lead bytes character found characters' broken' others inductionHypothesis =>
      cases decoded
      have announced : String.utf8EncodeChar character =
          (lead :: bytes).take (announcedWidth lead) := by
        unfold firstChar? at found
        dsimp only at found
        split at found
        · next same =>
            cases found
            exact same
        · cases found
      have positive : 0 < announcedWidth lead := by
        unfold announcedWidth
        grind
      obtain ⟨more, width⟩ := Nat.exists_eq_add_one.mpr positive
      rw [encode_cons, List.append_assoc, inductionHypothesis others, announced, width,
        List.take_succ_cons, Nat.add_sub_cancel, List.cons_append, List.take_append_drop]

end BooleanQuery.Text
