import BooleanQuery.Text.Invisible

/-!
# Strings shown in messages

A message shows a string between quotation marks such that its content can be told from
the outside: the mark, the backslash and the usual controls are escaped by a letter, and
other characters without a shape of their own by their number in braces.
-/

namespace BooleanQuery.Text

/-- The number of a character in lower-case hexadecimal digits, in braces. -/
def numbered (character : Char) : List Char :=
  ['\\', 'u', '\x7b'] ++ Nat.toDigits 16 character.toNat ++ ['\x7d']

/-- One character of a string in a message. -/
def shownChar (character : Char) : List Char :=
  if character = '\x00' then ['\\', '0']
  else if character = '\t' then ['\\', 't']
  else if character = '\r' then ['\\', 'r']
  else if character = '\n' then ['\\', 'n']
  else if character = '"' then ['\\', '"']
  else if character = '\\' then ['\\', '\\']
  else if isInvisible character then numbered character
  else [character]

/-- A string as a message shows it. -/
def shown (text : String) : String :=
  String.ofList ('"' :: text.toList.flatMap shownChar ++ ['"'])

end BooleanQuery.Text
