import BooleanQuery.Command.Arguments
import BooleanQuery.Json.Pointer

/-!
# Documents

The document that holds the query is given on the command line, read from a file, or read
from the standard input. It has to be UTF-8 and JSON; a pointer may choose the query
inside it.
-/

namespace BooleanQuery.Command

open Text (Bytes)
open Json (Value TextFault)

/-- Why the system does not hand over the bytes of a file. -/
inductive SystemFailure where
  | noSuchFile
  | isDirectory
  | notDirectory
  | nameTooLong
  | other (description : String) (number : Nat)
deriving DecidableEq, Repr

/-- The description of a system failure. -/
def SystemFailure.description : SystemFailure → String
  | .noSuchFile => "No such file or directory"
  | .isDirectory => "Is a directory"
  | .notDirectory => "Not a directory"
  | .nameTooLong => "File name too long"
  | .other description _ => description

/-- The number of a system failure. -/
def SystemFailure.number : SystemFailure → Nat
  | .noSuchFile => 2
  | .isDirectory => 21
  | .notDirectory => 20
  | .nameTooLong => 36
  | .other _ number => number

/-- The wording of a system failure: its description and its number. -/
def SystemFailure.message (failure : SystemFailure) : String :=
  failure.description ++ " (os error " ++ toString failure.number ++ ")"

/-- Why a text cannot be read. -/
inductive ReadFailure where
  | system (failure : SystemFailure)
  | notUtf8
deriving DecidableEq, Repr

/-- The wording of a read failure. -/
def ReadFailure.message : ReadFailure → String
  | .system failure => failure.message
  | .notUtf8 => "stream did not contain valid UTF-8"

/-- Why there is no query to be decoded. -/
inductive LoadError where
  | missingQuery
  | file (path : String) (failure : ReadFailure)
  | standardInput (failure : ReadFailure)
  | json (fault : TextFault)
  | nothingAt (pointer : String)
deriving DecidableEq, Repr

/-- The wording of a load error. -/
def LoadError.message : LoadError → String
  | .missingQuery => "query is required: use positional argument or -q/--query"
  | .file path failure => "failed to read '" ++ path ++ "': " ++ failure.message
  | .standardInput failure => "failed to read stdin: " ++ failure.message
  | .json fault => "invalid json: " ++ fault.message
  | .nothingAt pointer => "nothing at '" ++ pointer ++ "' in the query document"

/-- Where a document comes from. -/
inductive Source where
  | missing
  | inline (text : String)
  | standardInput
  | file (path : String)
deriving DecidableEq, Repr

/-- Where the document comes from: from the command line if it is there, and a lone dash
stands for the standard input. -/
def Arguments.source (arguments : Arguments) : Source :=
  match arguments.text, arguments.path with
  | some text, _ => .inline text
  | none, some path => if path = "-" then .standardInput else .file path
  | none, none => .missing

/-- What the program can read. -/
structure Surroundings where
  standardInput : Except SystemFailure Bytes
  file : String → Except SystemFailure Bytes

/-- The text of bytes that the system hands over. -/
def textOfBytes (bytes : Except SystemFailure Bytes) : Except ReadFailure String :=
  match bytes with
  | .error failure => .error (.system failure)
  | .ok bytes =>
      match Text.string? bytes with
      | some text => .ok text
      | none => .error .notUtf8

/-- The text of a document. -/
def Source.load (surroundings : Surroundings) : Source → Except LoadError String
  | .missing => .error .missingQuery
  | .inline text => .ok text
  | .standardInput => (textOfBytes surroundings.standardInput).mapError .standardInput
  | .file path => (textOfBytes (surroundings.file path)).mapError (.file path)

/-- The value in a document that a pointer leads to, or the whole document. -/
def valueIn (document : String) (pointer : Option String) : Except LoadError Value :=
  match Value.ofText (Text.bytesOf document) with
  | .error fault => .error (.json fault)
  | .ok value =>
      match pointer with
      | none => .ok value
      | some pointer =>
          match value.at? pointer with
          | some selected => .ok selected
          | none => .error (.nothingAt pointer)

end BooleanQuery.Command
