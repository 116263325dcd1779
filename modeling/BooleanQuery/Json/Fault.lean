/-!
# Faults of a JSON text

A fault is a reason why a text is not JSON, or not the JSON that was asked for. Its
position is kept beside it as the number of bytes that were still unread, and turned
into a line and a column only when the whole text is at hand.
-/

namespace BooleanQuery.Json

/-- Why a text is not a JSON text. A word is expected after the first letter of `null`, `true` or
`false`, and a number is invalid if a digit is missing or follows a leading zero. -/
inductive Fault where
  | endInValue
  | endInObject
  | endInList
  | endInString
  | expectedValue
  | expectedWord
  | invalidNumber
  | numberOutOfRange
  | expectedColon
  | expectedMemberEnd
  | expectedElementEnd
  | keyNotString
  | trailingComma
  | trailingCharacters
  | invalidEscape
  | controlCharacter
  | loneSurrogate
  | unfinishedSurrogatePair
  | brokenUnicode
  | nestingTooDeep
deriving DecidableEq, Repr

/-- The kinds of fault that a caller tells apart. -/
inductive Category where
  | malformed
  | truncated
  | mismatched
deriving DecidableEq, Repr

/-- The category of a fault: the ends of a text are truncation, all else is malformed. -/
def Fault.category : Fault → Category
  | .endInValue | .endInObject | .endInList | .endInString => .truncated
  | _ => .malformed

/-- The wording of a fault. -/
def Fault.message : Fault → String
  | .endInValue => "EOF while parsing a value"
  | .endInObject => "EOF while parsing an object"
  | .endInList => "EOF while parsing a list"
  | .endInString => "EOF while parsing a string"
  | .expectedValue => "expected value"
  | .expectedWord => "expected ident"
  | .invalidNumber => "invalid number"
  | .numberOutOfRange => "number out of range"
  | .expectedColon => "expected `:`"
  | .expectedMemberEnd => "expected `,` or `\x7d`"
  | .expectedElementEnd => "expected `,` or `]`"
  | .keyNotString => "key must be a string"
  | .trailingComma => "trailing comma"
  | .trailingCharacters => "trailing characters"
  | .invalidEscape => "invalid escape"
  | .controlCharacter =>
      "control character (\\u0000-\\u001F) found while parsing a string"
  | .loneSurrogate => "lone leading surrogate in hex escape"
  | .unfinishedSurrogatePair => "unexpected end of hex escape"
  | .brokenUnicode => "invalid unicode code point"
  | .nestingTooDeep => "recursion limit exceeded"

/-- A place in a text: lines count from one, columns are the bytes read since the last
line feed. -/
structure Position where
  line : Nat
  column : Nat
deriving DecidableEq, Repr

/-- The position after the given bytes have been read. -/
def Position.after (consumed : List UInt8) : Position where
  line := consumed.count '\n'.toUInt8 + 1
  column := (consumed.reverse.takeWhile (· != '\n'.toUInt8)).length

/-- The position in a text of which so many bytes are unread. -/
def Position.withUnread (text : List UInt8) (unread : Nat) : Position :=
  Position.after (text.take (text.length - unread))

/-- The wording of a position, as it ends a message. -/
def Position.suffix (position : Position) : String :=
  " at line " ++ toString position.line ++ " column " ++ toString position.column

end BooleanQuery.Json
