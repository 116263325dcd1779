import BooleanQuery.Command.Basic

/-!
# Usage

A command line that is not understood ends the program with code two and a word on what
is wrong. Help is no error: it is printed on the standard output.
-/

namespace BooleanQuery.Command

/-- The option that fills a slot. -/
def Slot.name : Slot → String
  | .path => "<QUERY>"
  | .text => "--query <JSON>"
  | .pointer => "--pointer <POINTER>"
  | .fuel => "--fuel <N>"

/-- How the program is used. -/
def usage : String :=
  "Validate and inspect boolean query trees\n\n" ++
  "Usage: boolq <COMMAND> [OPTIONS] [QUERY]\n\n" ++
  "Commands:\n" ++
  "  check  Validate a query\n" ++
  "  dump   Show the compiled plan of a query\n" ++
  "  help   Print this message\n\n" ++
  "Arguments:\n" ++
  "  [QUERY]  Query JSON file ('-' reads stdin)\n\n" ++
  "Options:\n" ++
  "  -q, --query <JSON>       Inline query JSON\n" ++
  "  -p, --pointer <POINTER>  JSON pointer to the query inside the document\n" ++
  "      --fuel <N>           Maximum query nesting depth (512 by default)\n" ++
  "      --no-fuel            Do not limit query nesting depth\n" ++
  "  -v                       Verbosity level (-v for debug logs, -vv for trace logs)\n" ++
  "  -h, --help               Print this message\n"

/-- The wording of a usage error. -/
def UsageError.message : UsageError → String
  | .missingValue slot => "a value is required for '" ++ slot.name ++ "' but none was supplied"
  | .unknownArgument word => "unexpected argument '" ++ word ++ "' found"
  | .unknownAction word => "unrecognized subcommand '" ++ word ++ "'"
  | .invalidFuel text => "invalid value '" ++ text ++ "' for '" ++ Slot.fuel.name ++ "'"
  | .conflict => "an argument cannot be used multiple times or with another that excludes it"
  | .unexpectedValue word => "unexpected value for '" ++ word ++ "' found; no more were expected"
  | .helpRequested => "help requested"
  | .missingAction => "a subcommand is required"

/-- What a command line that calls for no action leaves behind. -/
def UsageError.outcome (error : UsageError) : Outcome :=
  match error with
  | .helpRequested => ⟨0, usage, ""⟩
  | .missingAction => ⟨2, "", usage⟩
  | error => ⟨2, "", "error: " ++ error.message ++ "\n"⟩

/-- Run the program on a command line. -/
def run (surroundings : Surroundings) (words : List String) : Outcome :=
  match Invocation.ofWords words with
  | .error error => error.outcome
  | .ok invocation => invocation.run surroundings

end BooleanQuery.Command
