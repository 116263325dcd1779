import BooleanQuery.Json.Reader

/-!
# Quoted strings

`quoted` writes a string between quotation marks: the mark, the backslash and the control
characters are escaped, and every other character stands for itself. `string` reads what
any writer may have written, surrogate pairs included, after the opening mark.

The content of a string is collected as bytes, escapes in their UTF-8 form, and decoded
when the closing mark has been found.
-/

namespace BooleanQuery.Json

open Text (Bytes)

/-- A lower-case hexadecimal digit. -/
def hexDigit (digit : Nat) : Char := (Nat.toDigits 16 (digit % 16)).headD '0'

/-- One character as it is written inside quotation marks. -/
def escaped (character : Char) : List Char :=
  if character = '"' then ['\\', '"']
  else if character = '\\' then ['\\', '\\']
  else if character = '\n' then ['\\', 'n']
  else if character = '\r' then ['\\', 'r']
  else if character = '\t' then ['\\', 't']
  else if character = '\x08' then ['\\', 'b']
  else if character = '\x0c' then ['\\', 'f']
  else if character.toNat < 0x20 then
    ['\\', 'u', '0', '0', hexDigit (character.toNat / 16), hexDigit character.toNat]
  else [character]

/-- A string between quotation marks. -/
def quoted (text : String) : List Char :=
  '"' :: text.toList.flatMap escaped ++ ['"']

/-- The value of a hexadecimal digit. -/
def hexValue? (byte : UInt8) : Option Nat :=
  if '0'.toUInt8 ≤ byte ∧ byte ≤ '9'.toUInt8 then some (byte.toNat - '0'.toNat)
  else if 'a'.toUInt8 ≤ byte ∧ byte ≤ 'f'.toUInt8 then some (byte.toNat - 'a'.toNat + 10)
  else if 'A'.toUInt8 ≤ byte ∧ byte ≤ 'F'.toUInt8 then some (byte.toNat - 'A'.toNat + 10)
  else none

/-- The number that four hexadecimal digits spell. -/
def quadValue? (first second third fourth : UInt8) : Option Nat := do
  let first ← hexValue? first
  let second ← hexValue? second
  let third ← hexValue? third
  let fourth ← hexValue? fourth
  some (((first * 16 + second) * 16 + third) * 16 + fourth)

/-- The character of an escape of one letter. -/
def letterEscape? (letter : UInt8) : Option Char :=
  if letter = '"'.toUInt8 then some '"'
  else if letter = '\\'.toUInt8 then some '\\'
  else if letter = '/'.toUInt8 then some '/'
  else if letter = 'b'.toUInt8 then some '\x08'
  else if letter = 'f'.toUInt8 then some '\x0c'
  else if letter = 'n'.toUInt8 then some '\n'
  else if letter = 'r'.toUInt8 then some '\r'
  else if letter = 't'.toUInt8 then some '\t'
  else none

/-- Whether a number is a leading surrogate. -/
def isLeadingSurrogate (code : Nat) : Bool := 0xd800 ≤ code && code ≤ 0xdbff

/-- Whether a number is a trailing surrogate. -/
def isTrailingSurrogate (code : Nat) : Bool := 0xdc00 ≤ code && code ≤ 0xdfff

/-- The character of a surrogate pair. -/
def pairedSurrogates (leading trailing : Nat) : Char :=
  Char.ofNat (0x10000 + (leading - 0xd800) * 0x400 + (trailing - 0xdc00))

variable {Mismatch : Type}

/-- Read four hexadecimal digits. All four bytes are taken before they are looked at; if
there are fewer, the text has ended inside the string. -/
def quad : Reader Mismatch Nat where
  run
    | first :: second :: third :: fourth :: rest =>
        match quadValue? first second third fourth with
        | some code => .ok (code, rest)
        | none => .error (.before .invalidEscape rest)
    | _ => .error (.next .endInString [])
  shrinks {text _ rest} outcome := by
    split at outcome
    · split at outcome
      · cases outcome
        simp only [List.length_cons]
        omega
      · cases outcome
    · cases outcome

/-- Read one given byte inside a string; another one is the given fault. -/
def expectByte (expected : UInt8) (fault : Fault) : Reader Mismatch Unit where
  run
    | [] => .error (.next .endInString [])
    | byte :: rest => if byte = expected then .ok ((), rest) else .error (.before fault rest)
  shrinks {text _ rest} outcome := by
    split at outcome
    · cases outcome
    · split at outcome
      · cases outcome
        exact Nat.lt_succ_self _
      · cases outcome

/-- Read the second escape of a surrogate pair. -/
def trailingSurrogate : Reader Mismatch Nat :=
  (expectByte '\\'.toUInt8 .unfinishedSurrogatePair).andThen fun _ =>
    (expectByte 'u'.toUInt8 .unfinishedSurrogatePair).andThen fun _ =>
      quad.validate fun code =>
        if isTrailingSurrogate code then .ok code else .error .loneSurrogate

/-- Read the rest of an escape that spells a number: four digits, and a second escape when
they are a leading surrogate. -/
def numberedEscape : Reader Mismatch Char where
  run text :=
    match quad.run text with
    | .error failure => .error failure
    | .ok (code, rest) =>
        if isTrailingSurrogate code then .error (.before .loneSurrogate rest)
        else if isLeadingSurrogate code then
          (trailingSurrogate.map (pairedSurrogates code)).run rest
        else .ok (Char.ofNat code, rest)
  shrinks {text _ rest} outcome := by
    split at outcome
    · cases outcome
    · next code middle read =>
        split at outcome
        · cases outcome
        · split at outcome
          · exact Nat.lt_trans ((trailingSurrogate.map _).shrinks outcome)
              (quad.shrinks read)
          · cases outcome
            exact quad.shrinks read

/-- Read an escape after its backslash. -/
def escape : Reader Mismatch Char where
  run
    | [] => .error (.next .endInString [])
    | letter :: rest =>
        if letter = 'u'.toUInt8 then numberedEscape.run rest
        else
          match letterEscape? letter with
          | some character => .ok (character, rest)
          | none => .error (.before .invalidEscape rest)
  shrinks {text _ rest} outcome := by
    split at outcome
    · cases outcome
    · split at outcome
      · exact Nat.lt_succ_of_lt (numberedEscape.shrinks outcome)
      · split at outcome
        · cases outcome
          exact Nat.lt_succ_self _
        · cases outcome

/-- The content bytes of a string up to its closing mark. -/
def stringContent : Bytes → Outcome Mismatch Bytes
  | [] => .error (.next .endInString [])
  | byte :: rest =>
      if byte = '"'.toUInt8 then .ok ([], rest)
      else if byte = '\\'.toUInt8 then
        match read : (@escape Mismatch).run rest with
        | .error failure => .error failure
        | .ok (character, following) =>
            have : following.length < rest.length := escape.shrinks read
            match stringContent following with
            | .error failure => .error failure
            | .ok (content, after) => .ok (String.utf8EncodeChar character ++ content, after)
      else if byte < 0x20 then .error (.before .controlCharacter rest)
      else
        match stringContent rest with
        | .error failure => .error failure
        | .ok (content, after) => .ok (byte :: content, after)
termination_by text => text.length

/-- The content of a string leaves less text. -/
theorem stringContent_shrinks {text rest content : Bytes}
    (outcome : @stringContent Mismatch text = .ok (content, rest)) :
    rest.length < text.length := by
  fun_induction @stringContent Mismatch text generalizing content rest with
  | case1 => cases outcome
  | case2 =>
      cases outcome
      exact Nat.lt_succ_self _
  | case3 => cases outcome
  | case4 => cases outcome
  | case5 tail character following read shorter content' after others mark
      inductionHypothesis =>
      cases outcome
      exact Nat.lt_succ_of_lt (Nat.lt_trans (inductionHypothesis others) shorter)
  | case6 => cases outcome
  | case7 => cases outcome
  | case8 byte tail mark backslash control content' after others inductionHypothesis =>
      cases outcome
      exact Nat.lt_succ_of_lt (inductionHypothesis others)

/-- Read a string after its opening mark. Broken bytes are noticed when the closing mark
has been found, and reported where the content stops being UTF-8. -/
def string : Reader Mismatch String where
  run text :=
    match stringContent text with
    | .error failure => .error failure
    | .ok (content, rest) =>
        match Text.decode content with
        | (characters, []) => .ok (String.ofList characters, rest)
        | (_, broken) => .error ⟨.malformed .brokenUnicode, rest.length + broken.length⟩
  shrinks {text _ rest} outcome := by
    split at outcome
    · cases outcome
    · next content middle read =>
        split at outcome
        · cases outcome
          exact stringContent_shrinks read
        · cases outcome

/-- Read a key of an object. -/
def key : Reader Mismatch String where
  run
    | [] => .error (.next .endInValue [])
    | head :: rest =>
        if head = '"'.toUInt8 then string.run rest
        else .error (.next .keyNotString (head :: rest))
  shrinks {text _ rest} outcome := by
    split at outcome
    · cases outcome
    · split at outcome
      · exact Nat.lt_succ_of_lt (string.shrinks outcome)
      · cases outcome

end BooleanQuery.Json
