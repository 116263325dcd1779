/-!
# UTF-8

Texts arrive as bytes. `encode` writes characters as bytes; `decode` reads the longest
decodable beginning and returns what is left, so that the place of a broken sequence is
known. A sequence of bytes spells a character exactly when it is what `encode` writes
for that character, which rules out overlong forms, surrogates and stray bytes at once.
-/

namespace BooleanQuery.Text

/-- A text as it arrives: a list of bytes. -/
abbrev Bytes := List UInt8

/-- The bytes of a list of characters. -/
def encode (characters : List Char) : Bytes := characters.flatMap String.utf8EncodeChar

/-- The bytes of a string. -/
def bytesOf (text : String) : Bytes := encode text.toList

/-- The number of bytes that the first byte of a character announces. -/
def announcedWidth (lead : UInt8) : Nat :=
  if lead < 0x80 then 1 else if lead < 0xe0 then 2 else if lead < 0xf0 then 3 else 4

/-- The number that a sequence of one to four bytes spells, well formed or not. -/
def spelledCode : Bytes → Nat
  | [first] => first.toNat
  | [first, second] => first.toNat % 32 * 64 + second.toNat % 64
  | [first, second, third] =>
      first.toNat % 16 * 4096 + second.toNat % 64 * 64 + third.toNat % 64
  | [first, second, third, fourth] =>
      first.toNat % 8 * 262144 + second.toNat % 64 * 4096 + third.toNat % 64 * 64 +
        fourth.toNat % 64
  | _ => 0

/-- The first character of a nonempty text and its number of bytes, if the text starts
with a well-formed sequence. -/
def firstChar? (lead : UInt8) (bytes : Bytes) : Option Char :=
  let announced := (lead :: bytes).take (announcedWidth lead)
  let candidate := Char.ofNat (spelledCode announced)
  if String.utf8EncodeChar candidate = announced then some candidate else none

/-- The characters that a text starts with, and the bytes from the first broken sequence
on. -/
def decode : Bytes → List Char × Bytes
  | [] => ([], [])
  | lead :: bytes =>
      match firstChar? lead bytes with
      | none => ([], lead :: bytes)
      | some character =>
          let (characters, broken) := decode (bytes.drop (announcedWidth lead - 1))
          (character :: characters, broken)
termination_by bytes => bytes.length
decreasing_by
  simp only [List.length_drop, List.length_cons]
  omega

/-- The string that a text spells, if all of it is well formed. -/
def string? (bytes : Bytes) : Option String :=
  match decode bytes with
  | (characters, []) => some (String.ofList characters)
  | (_, _ :: _) => none

end BooleanQuery.Text
