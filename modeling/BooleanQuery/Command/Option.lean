/-!
# Options

An option either takes a value, which fills a slot, or is a flag. Each has a long name,
most have a letter as well. The module also holds what can be wrong with a command line.
-/

namespace BooleanQuery.Command

/-- Options that take a value; the path stands for itself. -/
inductive Slot where
  | path
  | text
  | pointer
  | fuel
deriving DecidableEq, Repr

/-- Options without a value. -/
inductive Flag where
  | unlimited
  | verbose
  | help
deriving DecidableEq, Repr

/-- What an option asks for. -/
inductive Meaning where
  | value (slot : Slot)
  | flag (flag : Flag)
deriving DecidableEq, Repr

/-- Why a command line is not understood, or calls for no action. An empty path is a missing value,
a second one an unknown argument, and it is a conflict to give an option twice or beside one that
excludes it. -/
inductive UsageError where
  | missingValue (slot : Slot)
  | unknownArgument (word : String)
  | unknownAction (word : String)
  | invalidFuel (text : String)
  | conflict
  | unexpectedValue (word : String)
  | helpRequested
  | missingAction
deriving DecidableEq, Repr

/-- The meaning of a long option. -/
def longMeaning? (name : String) : Option Meaning :=
  if name = "query" then some (.value .text)
  else if name = "pointer" then some (.value .pointer)
  else if name = "fuel" then some (.value .fuel)
  else if name = "no-fuel" then some (.flag .unlimited)
  else if name = "help" then some (.flag .help)
  else none

/-- The meaning of a short option. -/
def shortMeaning? (letter : Char) : Option Meaning :=
  if letter = 'q' then some (.value .text)
  else if letter = 'p' then some (.value .pointer)
  else if letter = 'v' then some (.flag .verbose)
  else if letter = 'h' then some (.flag .help)
  else none

end BooleanQuery.Command
