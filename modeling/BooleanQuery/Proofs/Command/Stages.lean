import BooleanQuery.Command.Usage
import BooleanQuery.Proofs.Sequencing

/-!
# The stages of a command

A command loads its document, parses it, selects the query in it, decodes the query and compiles it.
Each stage works on what the one before it has made, so there is a plan if all of them succeed, and
otherwise there is the message of the first stage that fails.

Both actions go through the same stages with the same log. They differ only in what they print on
the standard output when there is a plan.
-/

namespace BooleanQuery.Command

open Json (Value)

section Stages

variable (surroundings : Surroundings) (arguments : Arguments)

/-- Whether the arguments lead to a document that can be loaded. -/
def Loads (document : String) : Prop := arguments.source.load surroundings = .ok document

/-- Whether a document is loaded and holds a value. -/
def Parses (whole : Value) : Prop :=
  ∃ document, Loads surroundings arguments document ∧
    Value.ofText (Text.bytesOf document) = .ok whole

/-- Whether a value is selected in a document that is parsed: by the pointer, or else the whole. -/
def Selects (value : Value) : Prop :=
  ∃ whole, Parses surroundings arguments whole ∧
    match arguments.pointer with
    | none => whole = value
    | some pointer => whole.at? pointer = some value

/-- Whether a value is selected and means a query, or that there is none. -/
def Decodes (query : Option Query) : Prop :=
  ∃ value, Selects surroundings arguments value ∧ Query.ofValue value = .ok query

/-- Whether a query is decoded and has a plan. -/
def Compiles (plan : Plan) : Prop :=
  ∃ query, Decodes surroundings arguments query ∧
    (compile Plan.engine arguments.compileFuel query).result = .ok plan

/-- The messages of the first stage that fails. -/
inductive StopsWith : String → Prop where
  | loading {error : LoadError} (fails : arguments.source.load surroundings = .error error) :
      StopsWith error.message
  | parsing {document : String} {fault : Json.TextFault}
      (loads : Loads surroundings arguments document)
      (fails : Value.ofText (Text.bytesOf document) = .error fault) :
      StopsWith ("invalid json: " ++ fault.message)
  | selecting {whole : Value} {pointer : String} (parses : Parses surroundings arguments whole)
      (given : arguments.pointer = some pointer) (fails : whole.at? pointer = none) :
      StopsWith ("nothing at '" ++ pointer ++ "' in the query document")
  | decoding {value : Value} {reason : Mismatch} (selects : Selects surroundings arguments value)
      (fails : Query.ofValue value = .error reason) :
      StopsWith ("invalid query json: " ++ reason.message)
  | compiling {query : Option Query} {error : CompileError}
      (decodes : Decodes surroundings arguments query)
      (fails : (compile Plan.engine arguments.compileFuel query).result = .error error) :
      StopsWith error.message

end Stages

section Reports

/-- The report on a document is that on the value that is chosen in it. -/
theorem documentReport_eq {fuel : Fuel} {pointer : Option String} {document : String}
    {selected : Value} (found : valueIn document pointer = .ok selected) :
    documentReport fuel pointer document = valueReport fuel selected := by
  rw [documentReport, found]

variable {surroundings : Surroundings} {arguments : Arguments}

/-- The report on arguments is that on the document that they lead to. -/
theorem Loads.planReport_eq {document : String} (loads : Loads surroundings arguments document) :
    planReport surroundings arguments =
      documentReport arguments.compileFuel arguments.pointer document := by
  unfold Loads at loads
  rw [planReport, loads]

/-- The report on arguments is that on the value that they select. -/
theorem Selects.planReport_eq {value : Value} (selects : Selects surroundings arguments value) :
    planReport surroundings arguments = valueReport arguments.compileFuel value := by
  obtain ⟨whole, ⟨document, loads, isValue⟩, chosen⟩ := selects
  rw [loads.planReport_eq]
  apply documentReport_eq
  rw [valueIn, isValue]
  dsimp only
  cases given : arguments.pointer with
  | none =>
      rw [given] at chosen
      exact congrArg Except.ok chosen
  | some pointer =>
      rw [given] at chosen
      dsimp only at chosen ⊢
      rw [chosen]

/-- Once a query is decoded, only its compilation can fail. -/
theorem Decodes.result_eq {query : Option Query} (decodes : Decodes surroundings arguments query) :
    (planReport surroundings arguments).result =
      (compile Plan.engine arguments.compileFuel query).result.mapError .compile := by
  obtain ⟨value, selects, decoded⟩ := decodes
  rw [selects.planReport_eq, valueReport, compileValue, decoded]
  rfl

/-- If all stages succeed, the report has the plan. -/
theorem Compiles.result_eq {plan : Plan} (compiles : Compiles surroundings arguments plan) :
    (planReport surroundings arguments).result = .ok plan := by
  obtain ⟨query, decodes, compiled⟩ := compiles
  rw [decodes.result_eq, compiled]
  rfl

/-- If a stage fails after those before it have succeeded, the report has its message. -/
theorem StopsWith.exists_failure {message : String}
    (stops : StopsWith surroundings arguments message) :
    ∃ failure, (planReport surroundings arguments).result = .error failure ∧
      failure.message = message := by
  cases stops with
  | @loading error fails =>
      refine ⟨.load error, ?_, rfl⟩
      rw [planReport, fails]
  | @parsing document fault loads fails =>
      refine ⟨.load (.json fault), ?_, rfl⟩
      rw [loads.planReport_eq, documentReport, valueIn, fails]
  | @selecting whole pointer parses given fails =>
      obtain ⟨document, loads, isValue⟩ := parses
      refine ⟨.load (.nothingAt pointer), ?_, rfl⟩
      rw [loads.planReport_eq, documentReport, valueIn, isValue, given]
      dsimp only
      rw [fails]
  | @decoding value reason selects fails =>
      refine ⟨.decode reason, ?_, rfl⟩
      rw [selects.planReport_eq, valueReport, compileValue, fails]
      rfl
  | @compiling query error decodes fails =>
      refine ⟨.compile error, ?_, rfl⟩
      rw [decodes.result_eq, fails]
      rfl

/-- A command that has a plan does not stop. -/
theorem Compiles.not_stopsWith {plan : Plan} (compiles : Compiles surroundings arguments plan)
    (message : String) : ¬StopsWith surroundings arguments message := by
  intro stops
  obtain ⟨failure, fails, -⟩ := stops.exists_failure
  rw [compiles.result_eq] at fails
  nomatch fails

/-- A command stops with one message only. -/
theorem StopsWith.message_eq {message other : String}
    (stops : StopsWith surroundings arguments message)
    (otherStops : StopsWith surroundings arguments other) : message = other := by
  obtain ⟨failure, fails, rfl⟩ := stops.exists_failure
  obtain ⟨otherFailure, otherFails, rfl⟩ := otherStops.exists_failure
  rw [fails] at otherFails
  exact congrArg Failure.message (Except.error.inj otherFails)

end Reports

section Progress

variable {surroundings : Surroundings} {arguments : Arguments}

/-- A decoded query has a plan, or the command stops with an error. -/
theorem Decodes.compiles_or_stops {query : Option Query}
    (decodes : Decodes surroundings arguments query) :
    (∃ plan, Compiles surroundings arguments plan) ∨
      ∃ message, StopsWith surroundings arguments message := by
  cases compiled : (compile Plan.engine arguments.compileFuel query).result with
  | error error => exact .inr ⟨_, .compiling decodes compiled⟩
  | ok plan => exact .inl ⟨plan, query, decodes, compiled⟩

/-- A selected value is decoded and goes on, or the command stops. -/
theorem Selects.compiles_or_stops {value : Value} (selects : Selects surroundings arguments value) :
    (∃ plan, Compiles surroundings arguments plan) ∨
      ∃ message, StopsWith surroundings arguments message := by
  cases decoded : Query.ofValue value with
  | error reason => exact .inr ⟨_, .decoding selects decoded⟩
  | ok query => exact Decodes.compiles_or_stops ⟨value, selects, decoded⟩

/-- In a parsed document a value is selected and goes on, or the command stops. -/
theorem Parses.compiles_or_stops {whole : Value} (parses : Parses surroundings arguments whole) :
    (∃ plan, Compiles surroundings arguments plan) ∨
      ∃ message, StopsWith surroundings arguments message := by
  cases given : arguments.pointer with
  | none =>
      have selects : Selects surroundings arguments whole := by
        refine ⟨whole, parses, ?_⟩
        rw [given]
      exact selects.compiles_or_stops
  | some pointer =>
      cases found : whole.at? pointer with
      | none => exact .inr ⟨_, .selecting parses given found⟩
      | some value =>
          have selects : Selects surroundings arguments value := by
            refine ⟨whole, parses, ?_⟩
            rw [given]
            exact found
          exact selects.compiles_or_stops

/-- Every command has a plan in the end, or stops. -/
theorem compiles_or_stops (surroundings : Surroundings) (arguments : Arguments) :
    (∃ plan, Compiles surroundings arguments plan) ∨
      ∃ message, StopsWith surroundings arguments message := by
  cases loads : arguments.source.load surroundings with
  | error error => exact .inr ⟨_, .loading loads⟩
  | ok document =>
      cases isValue : Value.ofText (Text.bytesOf document) with
      | error fault => exact .inr ⟨_, .parsing loads isValue⟩
      | ok whole => exact Parses.compiles_or_stops ⟨document, loads, isValue⟩

end Progress

/-- What the actions leave behind when all stages succeed. -/
theorem Invocation.run_of_compiles {surroundings : Surroundings} {invocation : Invocation}
    {plan : Plan} (compiles : Compiles surroundings invocation.arguments plan) :
    invocation.run surroundings =
      ⟨0, invocation.action.output plan, logText (.ofVerbosity invocation.arguments.verbosity)
        (planReport surroundings invocation.arguments).log⟩ := by
  rw [Invocation.run, compiles.result_eq]

/-- What the actions leave behind when a stage fails. -/
theorem Invocation.run_of_stopsWith {surroundings : Surroundings} {invocation : Invocation}
    {message : String} (stops : StopsWith surroundings invocation.arguments message) :
    invocation.run surroundings =
      ⟨1, "", logText (.ofVerbosity invocation.arguments.verbosity)
        (planReport surroundings invocation.arguments).log ++ "error: " ++ message ++ "\n"⟩ := by
  obtain ⟨failure, fails, rfl⟩ := stops.exists_failure
  rw [Invocation.run, fails]

/-- The words after the name of an action are its arguments. -/
theorem Invocation.ofWords_name (action : Action) (tail : List String) :
    Invocation.ofWords (action.name :: tail) =
      (Arguments.ofWords tail).map fun arguments => ⟨action, arguments⟩ := by
  cases action <;> rfl

/-- What an action does with its arguments, once they are understood. -/
theorem run_name (action : Action) {tail : List String} {arguments : Arguments}
    (understood : Arguments.ofWords tail = .ok arguments) (surroundings : Surroundings) :
    run surroundings (action.name :: tail) = Invocation.run surroundings ⟨action, arguments⟩ := by
  rw [run, Invocation.ofWords_name, understood]
  rfl

/-- The two actions accept the same arguments and come to the same end. The exit code, zero or one,
and the error output with all log lines are the same. The one prints nothing, the other the dump of
the plan if there is one. There is none exactly if a stage fails, and then the error output ends
with the message of the first stage that does. -/
theorem check_and_dump_agree {tail : List String} {invocation : Invocation}
    (accepted : Invocation.ofWords ("check" :: tail) = .ok invocation)
    (surroundings : Surroundings) :
    let arguments := invocation.arguments
    let checked := run surroundings ("check" :: tail)
    let dumped := run surroundings ("dump" :: tail)
    let log := logText (.ofVerbosity arguments.verbosity) (planReport surroundings arguments).log
    (checked.code = 0 ∨ checked.code = 1) ∧ dumped.code = checked.code ∧
      dumped.errors = checked.errors ∧ checked.output = "" ∧
      (dumped.code = 0 →
        ∃ plan, Compiles surroundings arguments plan ∧ dumped.output = plan.dump ++ "\n") ∧
      (dumped.code = 1 → dumped.output = "") ∧
      (checked.code = 1 ↔ ∃ message, StopsWith surroundings arguments message) ∧
      ∀ message, StopsWith surroundings arguments message →
        checked.errors = log ++ "error: " ++ message ++ "\n" := by
  intro arguments checked dumped log
  have named := (Invocation.ofWords_name .check tail).symm.trans accepted
  obtain ⟨_, understood, rfl⟩ := map_eq_ok_iff.mp named
  have checks : checked = Invocation.run surroundings ⟨.check, arguments⟩ :=
    run_name .check understood surroundings
  have dumps : dumped = Invocation.run surroundings ⟨.dump, arguments⟩ :=
    run_name .dump understood surroundings
  rcases compiles_or_stops surroundings arguments with ⟨plan, compiles⟩ | ⟨message, stops⟩
  · have checkedIs : checked = ⟨0, "", log⟩ := checks.trans (Invocation.run_of_compiles compiles)
    have dumpedIs : dumped = ⟨0, plan.dump ++ "\n", log⟩ :=
      dumps.trans (Invocation.run_of_compiles compiles)
    rw [checkedIs, dumpedIs]
    have never := compiles.not_stopsWith
    refine ⟨.inl rfl, rfl, rfl, rfl, fun _ => ⟨plan, compiles, rfl⟩, nofun, ⟨nofun, ?_⟩, ?_⟩
    · exact fun ⟨message, stops⟩ => absurd stops (never message)
    · exact fun message stops => absurd stops (never message)
  · have checkedIs : checked = ⟨1, "", log ++ "error: " ++ message ++ "\n"⟩ :=
      checks.trans (Invocation.run_of_stopsWith stops)
    have dumpedIs : dumped = ⟨1, "", log ++ "error: " ++ message ++ "\n"⟩ :=
      dumps.trans (Invocation.run_of_stopsWith stops)
    rw [checkedIs, dumpedIs]
    refine ⟨.inr rfl, rfl, rfl, rfl, nofun, fun _ => rfl, ⟨fun _ => ⟨message, stops⟩, fun _ => rfl⟩,
      ?_⟩
    intro other otherStops
    rw [stops.message_eq otherStops]

/-- A standard input that holds a term without a field in an array. -/
def fieldlessInput : Surroundings :=
  ⟨.ok (Text.bytesOf "[\x7b\"field\":\"\"\x7d]"), fun _ => .error .noSuchFile⟩

/-- The term is chosen and decoded, but has no plan. Both actions say so after the log lines, of
which all are asked for. -/
theorem check_and_dump_agree_fieldless :
    let tail := ["-", "-p", "/0", "-vv"]
    let arguments : Arguments := { path := some "-", pointer := some "/0", verbosity := 2 }
    let dumped := run fieldlessInput ("dump" :: tail)
    Invocation.ofWords ("check" :: tail) = .ok ⟨.check, arguments⟩ ∧
      (∃ message, StopsWith fieldlessInput arguments message) ∧
      dumped.code = 1 ∧ dumped.output = "" ∧
      dumped.errors =
        "[DEBUG boolq::commands::run_common] compiling query with recursion fuel Some(512)\n" ++
        "[TRACE boolq_compiler::compile::compiler] compiling TERM node at depth 1\n" ++
        "[DEBUG boolq_compiler::compile::compiler] query compilation failed: " ++
        "missing field, \x7b\x7d\n" ++
        "error: missing field, \x7b\x7d\n" := by
  intro tail arguments dumped
  have accepted : Invocation.ofWords ("check" :: tail) = .ok ⟨.check, arguments⟩ := rfl
  obtain ⟨-, sameCode, sameErrors, -, -, silent, failed, -⟩ :=
    check_and_dump_agree accepted fieldlessInput
  have fails : (run fieldlessInput ("check" :: tail)).code = 1 := by decide +kernel
  have dumpFails : dumped.code = 1 := sameCode.trans fails
  refine ⟨accepted, failed.mp fails, dumpFails, silent dumpFails, sameErrors.trans ?_⟩
  decide +kernel

end BooleanQuery.Command
