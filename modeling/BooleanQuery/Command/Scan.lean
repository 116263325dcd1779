import BooleanQuery.Command.Arguments
import BooleanQuery.Command.Word

/-!
# Scanning a command line

The words after an action are taken one by one. The value of an option that follows in a
word of its own is held back, as is the path, and checked when the next option or path is
met, or at the end. Until then an unknown option is reported in preference to a wrong
value. An attached value is checked at once.
-/

namespace BooleanQuery.Command

/-- A value that is held back. -/
inductive Pending where
  | nothing
  | awaiting (slot : Slot)
  | held (slot : Slot) (value : String)
deriving DecidableEq, Repr

/-- What has been understood so far. -/
structure Scan where
  arguments : Arguments := {}
  pending : Pending := .nothing
deriving DecidableEq, Repr

namespace Scan

/-- The arguments after the value that is held back has been checked. -/
def settle (scan : Scan) : Except UsageError Arguments :=
  match scan.pending with
  | .nothing => .ok scan.arguments
  | .awaiting slot => .error (.missingValue slot)
  | .held slot value => scan.arguments.put slot value

/-- Check what is held back and give a slot its value. -/
def put (scan : Scan) (slot : Slot) (value : String) : Except UsageError Scan := do
  let arguments ← scan.settle
  let arguments ← arguments.put slot value
  .ok { arguments }

/-- Check what is held back and wait for the value of a slot. -/
def await (scan : Scan) (slot : Slot) : Except UsageError Scan := do
  let arguments ← scan.settle
  .ok { arguments, pending := .awaiting slot }

/-- Check what is held back and raise a flag. -/
def raise (scan : Scan) (flag : Flag) : Except UsageError Scan := do
  let arguments ← scan.settle
  let arguments ← arguments.raise flag
  .ok { arguments }

/-- Whether a path has been met. -/
def hasPath (scan : Scan) : Bool :=
  scan.arguments.path.isSome ||
    (match scan.pending with
      | .held .path _ => true
      | _ => false)

/-- Take a word as the path; there is one at most. -/
def path (scan : Scan) (word : String) : Except UsageError Scan :=
  if scan.hasPath then .error (.unknownArgument word)
  else do
    let arguments ← scan.settle
    .ok { arguments, pending := .held .path word }

/-- Take a word that is no option: the value that is waited for, or the path. -/
def plain (scan : Scan) (word : String) : Except UsageError Scan :=
  match scan.pending with
  | .awaiting slot => .ok { scan with pending := .held slot word }
  | _ => scan.path word

/-- Take the short options of a word. The letters after one that takes a value are the
value, less an equals sign before it. -/
def short (scan : Scan) : List Char → Except UsageError Scan
  | [] => .ok scan
  | letter :: letters =>
      match shortMeaning? letter with
      | none => .error (.unknownArgument (String.ofList ['-', letter]))
      | some (.flag flag) => do
          let scan ← scan.raise flag
          scan.short letters
      | some (.value slot) =>
          match letters with
          | [] => scan.await slot
          | '=' :: value => scan.put slot (String.ofList value)
          | value => scan.put slot (String.ofList value)

/-- Take a long option. -/
def long (scan : Scan) (name : String) (value : Option String) : Except UsageError Scan :=
  match longMeaning? name, value with
  | none, _ => .error (.unknownArgument ("--" ++ name))
  | some (.value slot), some value => scan.put slot value
  | some (.value slot), none => scan.await slot
  | some (.flag _), some _ => .error (.unexpectedValue ("--" ++ name))
  | some (.flag flag), none => scan.raise flag

/-- Take words that are all paths. -/
def paths (scan : Scan) : List String → Except UsageError Scan
  | [] => .ok scan
  | word :: words => do
      let scan ← scan.path word
      scan.paths words

/-- Take the words of a command line after its action. -/
def words (scan : Scan) : List String → Except UsageError Scan
  | [] => .ok scan
  | word :: rest =>
      match Word.ofString word with
      | .separator => scan.paths rest
      | .long name value => do
          let scan ← scan.long name value
          scan.words rest
      | .short letters => do
          let scan ← scan.short letters
          scan.words rest
      | .plain => do
          let scan ← scan.plain word
          scan.words rest

end Scan

/-- The arguments that the words after an action spell. -/
def Arguments.ofWords (words : List String) : Except UsageError Arguments := do
  let scan ← Scan.words {} words
  let arguments ← scan.settle
  arguments.withOneSource

end BooleanQuery.Command
