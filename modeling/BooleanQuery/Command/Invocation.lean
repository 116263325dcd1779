import BooleanQuery.Command.Scan

/-!
# Invocations

A command line names an action and gives its arguments. In place of an action it may ask
for help, in general or on a topic.
-/

namespace BooleanQuery.Command

/-- What the program is to do with a query. -/
inductive Action where
  | check
  | dump
deriving DecidableEq, Repr

/-- An action with its arguments. -/
structure Invocation where
  action : Action
  arguments : Arguments
deriving DecidableEq, Repr

/-- The action of a name. -/
def Action.ofName? (name : String) : Option Action :=
  if name = "check" then some .check
  else if name = "dump" then some .dump
  else none

/-- The name of an action. -/
def Action.name : Action → String
  | .check => "check"
  | .dump => "dump"

/-- The word that asks for help in place of an action. -/
def helpWord : String := "help"

/-- Whether help can be given on a topic: an action, or help itself. -/
def isTopic (name : String) : Bool := (Action.ofName? name).isSome || name = helpWord

/-- Help on a topic; topics have none below them. -/
def helpOn : List String → UsageError
  | [] => .helpRequested
  | [topic] => if isTopic topic then .helpRequested else .unknownAction topic
  | topic :: below :: _ => .unknownAction (if isTopic topic then below else topic)

/-- The error of a word that should have been an action after the separator. -/
def separatedAction : List String → UsageError
  | [] => .missingAction
  | word :: _ => if isTopic word then .unknownArgument word else .unknownAction word

/-- The error of an option before the action: only help is known there. -/
def earlyOption : Word → UsageError
  | .long name none =>
      if longMeaning? name = some (.flag .help) then .helpRequested
      else .unknownArgument ("--" ++ name)
  | .long name (some _) =>
      if longMeaning? name = some (.flag .help) then .unexpectedValue ("--" ++ name)
      else .unknownArgument ("--" ++ name)
  | .short (letter :: _) =>
      if shortMeaning? letter = some (.flag .help) then .helpRequested
      else .unknownArgument (String.ofList ['-', letter])
  | _ => .missingAction

/-- The invocation that a command line spells. -/
def Invocation.ofWords : List String → Except UsageError Invocation
  | [] => .error .missingAction
  | word :: rest =>
      match Word.ofString word with
      | .plain =>
          match Action.ofName? word with
          | some action => do
              let arguments ← Arguments.ofWords rest
              .ok { action, arguments }
          | none =>
              if word = helpWord then .error (helpOn rest) else .error (.unknownAction word)
      | .separator => .error (separatedAction rest)
      | option => .error (earlyOption option)

end BooleanQuery.Command
