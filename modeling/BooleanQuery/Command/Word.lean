/-!
# Words

The words of a command line are told apart by their leading dashes. A long option may have
a value after an equals sign, and short options may share a word.
-/

namespace BooleanQuery.Command

/-- What a word of the command line looks like. All words after the separator are paths. A plain
word is a path or a value, also if it is a lone dash. -/
inductive Word where
  | separator
  | long (name : String) (value : Option String)
  | short (letters : List Char)
  | plain
deriving DecidableEq, Repr

/-- The name of a long option up to the first equals sign, and what follows the sign. -/
def splitValue (letters : List Char) : String × Option String :=
  let name := letters.takeWhile (· != '=')
  match letters.dropWhile (· != '=') with
  | [] => (String.ofList name, none)
  | _ :: value => (String.ofList name, some (String.ofList value))

/-- Tell words apart by their leading dashes. -/
def Word.ofString (word : String) : Word :=
  match word.toList with
  | '-' :: '-' :: [] => .separator
  | '-' :: '-' :: letters => .long (splitValue letters).1 (splitValue letters).2
  | '-' :: letter :: letters => .short (letter :: letters)
  | _ => .plain

end BooleanQuery.Command
