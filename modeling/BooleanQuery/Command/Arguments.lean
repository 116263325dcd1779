import BooleanQuery.Command.Option
import BooleanQuery.Compile.Basic

/-!
# Arguments

The arguments of an action say where its query comes from and how it is to be compiled.
Each may be given once, in any order. Whether an argument is given twice is checked before
its value is.
-/

namespace BooleanQuery.Command

open Decimal (naturalOfDigits?)

/-- What a command line says beside its action. -/
structure Arguments where
  path : Option String := none
  text : Option String := none
  pointer : Option String := none
  fuel : Option UInt32 := none
  unlimited : Bool := false
  verbosity : Nat := 0
deriving DecidableEq, Repr

namespace Arguments

/-- The fuel that is given, or the default one; it has no effect if any depth is
allowed. -/
def givenFuel (arguments : Arguments) : UInt32 := arguments.fuel.getD 512

/-- The fuel of the compilation. -/
def compileFuel (arguments : Arguments) : Fuel :=
  if arguments.unlimited then none else some arguments.givenFuel

end Arguments

/-- The number of 32 bits that decimal digits spell. -/
def wordOfDigits? (digits : List Char) : Option UInt32 :=
  match naturalOfDigits? digits with
  | some number => if number < 4294967296 then some (UInt32.ofNat number) else none
  | none => none

/-- The fuel that a text spells: digits, perhaps after a sign, of a number of 32 bits. -/
def fuelOfString? (text : String) : Option UInt32 :=
  match text.toList with
  | '-' :: digits =>
      match naturalOfDigits? digits with
      | some 0 => some 0
      | _ => none
  | '+' :: digits => wordOfDigits? digits
  | digits => wordOfDigits? digits

/-- Put a text into a slot that is still empty. -/
def fillText (present : Option String) (value : String) : Except UsageError (Option String) :=
  match present with
  | some _ => .error .conflict
  | none => .ok (some value)

/-- Give a slot its value. That it is given once is checked before the value is. -/
def Arguments.put (arguments : Arguments) (slot : Slot) (value : String) :
    Except UsageError Arguments :=
  match slot with
  | .path =>
      if arguments.path.isSome then .error .conflict
      else if value = "" then .error (.missingValue .path)
      else .ok { arguments with path := some value }
  | .text => (fillText arguments.text value).map fun text => { arguments with text }
  | .pointer =>
      (fillText arguments.pointer value).map fun pointer => { arguments with pointer }
  | .fuel =>
      if arguments.fuel.isSome then .error .conflict
      else
        match fuelOfString? value with
        | some fuel => .ok { arguments with fuel := some fuel }
        | none => .error (.invalidFuel value)

/-- The greatest verbosity that is counted. -/
def greatestVerbosity : Nat := 255

/-- Raise a flag. -/
def Arguments.raise (arguments : Arguments) (flag : Flag) : Except UsageError Arguments :=
  match flag with
  | .unlimited =>
      if arguments.unlimited then .error .conflict
      else .ok { arguments with unlimited := true }
  | .verbose =>
      .ok { arguments with verbosity := min (arguments.verbosity + 1) greatestVerbosity }
  | .help => .error .helpRequested

/-- Refuse a path beside the document itself. -/
def Arguments.withOneSource (arguments : Arguments) : Except UsageError Arguments :=
  if arguments.path.isSome && arguments.text.isSome then .error .conflict else .ok arguments

end BooleanQuery.Command
