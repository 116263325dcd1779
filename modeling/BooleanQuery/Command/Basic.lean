import BooleanQuery.Command.Document
import BooleanQuery.Command.Invocation
import BooleanQuery.Command.Log
import BooleanQuery.Plan.Dump

/-!
# The command

Both actions load a document, choose the query in it, decode it and compile it to a plan;
they differ in what they print when all went well. A failure at any of these stages ends
the program with its message.
-/

namespace BooleanQuery.Command

/-- Why there is no plan. -/
inductive Failure where
  | load (error : LoadError)
  | decode (reason : Mismatch)
  | compile (error : CompileError)
deriving DecidableEq, Repr

/-- What the message of an error that stops the decoding of a query starts with. -/
def decodeLead : String := "invalid query json: "

/-- The wording of a failure. -/
def Failure.message : Failure → String
  | .load error => error.message
  | .decode reason => decodeLead ++ reason.message
  | .compile error => error.message

/-- A plan, or why there is none, and what was logged. -/
structure Report where
  log : List SourcedRecord
  result : Except Failure Plan

/-- The wording of a fuel in the log. -/
def fuelText : Fuel → String
  | none => "None"
  | some limit => "Some(" ++ toString limit.toNat ++ ")"

/-- The record that announces a compilation. -/
def announcement (fuel : Fuel) : SourcedRecord :=
  (.command, .debug, "compiling query with recursion fuel " ++ fuelText fuel)

/-- Compile a value to a plan. The compilation is announced once there is a value, also if
this value turns out to be no query. -/
def valueReport (fuel : Fuel) (value : Json.Value) : Report :=
  match compileValue Plan.engine fuel value with
  | .error reason => ⟨[announcement fuel], .error (.decode reason)⟩
  | .ok run =>
      ⟨announcement fuel :: run.log.map fun record => (.compiler, record),
        run.result.mapError .compile⟩

/-- Compile the query that a pointer chooses in a document. -/
def documentReport (fuel : Fuel) (pointer : Option String) (document : String) : Report :=
  match valueIn document pointer with
  | .error error => ⟨[], .error (.load error)⟩
  | .ok value => valueReport fuel value

/-- Compile the query that arguments ask for. -/
def planReport (surroundings : Surroundings) (arguments : Arguments) : Report :=
  match arguments.source.load surroundings with
  | .error error => ⟨[], .error (.load error)⟩
  | .ok document => documentReport arguments.compileFuel arguments.pointer document

/-- What a program leaves behind. -/
structure Outcome where
  code : Nat
  output : String
  errors : String
deriving DecidableEq, Repr

/-- What an action prints for a plan. -/
def Action.output : Action → Plan → String
  | .check, _ => ""
  | .dump, plan => plan.dump ++ "\n"

/-- Carry out an invocation. -/
def Invocation.run (surroundings : Surroundings) (invocation : Invocation) : Outcome :=
  let report := planReport surroundings invocation.arguments
  let log := logText (.ofVerbosity invocation.arguments.verbosity) report.log
  match report.result with
  | .ok plan => ⟨0, invocation.action.output plan, log⟩
  | .error failure => ⟨1, "", log ++ "error: " ++ failure.message ++ "\n"⟩

end BooleanQuery.Command
