import BooleanQuery.Command.Usage

/-!
# The program

The outer layer reads what the command asks for, and prints what it leaves behind.
-/

namespace BooleanQuery.Program

open Command

/-- The number of a system failure, which may be reported negated in a word of 32 bits. -/
def failureNumber (code : UInt32) : Nat :=
  if code < 0x80000000 then code.toNat else (0 - code).toNat

/-- The failure of a number. -/
def numberedFailure (code : UInt32) (details : String) : SystemFailure :=
  match failureNumber code with
  | 21 => .isDirectory
  | 20 => .notDirectory
  | 36 => .nameTooLong
  | number => .other details.capitalize number

/-- What the system reports when it fails. -/
def systemFailure (error : IO.Error) : SystemFailure :=
  match error with
  | .noFileOrDirectory .. => .noSuchFile
  | .inappropriateType _ code details => numberedFailure code details
  | .invalidArgument _ code details => numberedFailure code details
  | .permissionDenied _ code details => numberedFailure code details
  | .otherError code details => numberedFailure code details
  | other => .other (toString other) 5

/-- Keep the bytes that an action reads, or why it cannot. -/
def attempted (action : IO ByteArray) : IO (Except SystemFailure Text.Bytes) := do
  match ← action.toBaseIO with
  | .ok bytes => return .ok bytes.toList
  | .error error => return .error (systemFailure error)

/-- Read a stream to its end. -/
partial def readToEnd (stream : IO.FS.Stream) (read : ByteArray) : IO ByteArray := do
  let bytes ← stream.read 65536
  if bytes.isEmpty then return read
  readToEnd stream (read ++ bytes)

/-- Read what a source needs, and nothing else. -/
def surroundings (source : Source) : IO Surroundings := do
  match source with
  | .missing | .inline _ => return ⟨.ok [], fun _ => .ok []⟩
  | .standardInput =>
      let bytes ← attempted (do readToEnd (← IO.getStdin) ByteArray.empty)
      return ⟨bytes, fun _ => .ok []⟩
  | .file path =>
      let bytes ← attempted (IO.FS.readBinFile path)
      return ⟨.ok [], fun _ => bytes⟩

/-- Print an outcome and return its code. -/
def print (outcome : Outcome) : IO UInt32 := do
  IO.eprint outcome.errors
  IO.print outcome.output
  return UInt32.ofNat outcome.code

end BooleanQuery.Program

/-- Run the program on its command line. -/
def main (words : List String) : IO UInt32 := do
  let source := match BooleanQuery.Command.Invocation.ofWords words with
    | .ok invocation => invocation.arguments.source
    | .error _ => .missing
  let surroundings ← BooleanQuery.Program.surroundings source
  BooleanQuery.Program.print (BooleanQuery.Command.run surroundings words)
