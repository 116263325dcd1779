import BooleanQuery.Compile.Error
import BooleanQuery.Engine

/-!
# Runs

A run of the compiler is its result together with everything that happened on the way, in
order: nodes entered, operations of the engine called, and the failure that ended it. A
run that fails keeps what happened before.
-/

namespace BooleanQuery

/-- Something that happens during a compilation. -/
inductive Event where
  | entered (kind : Kind) (depth : Nat)
  | called (call : Engine.Call)
  | failed (error : CompileError)
deriving DecidableEq, Repr

/-- The severity of a log record. -/
inductive LogLevel where
  | trace
  | debug
deriving DecidableEq, Repr

/-- A log record: its severity and its text. -/
abbrev LogRecord := LogLevel × String

namespace Event

/-- The call that an event is, if it is one. -/
def call? : Event → Option Engine.Call
  | .called call => some call
  | _ => none

/-- The kind and depth of the node that an event enters, if it does. -/
def entered? : Event → Option (Kind × Nat)
  | .entered kind depth => some (kind, depth)
  | _ => none

/-- The log record that an event leaves, if it leaves one. -/
def logRecord? : Event → Option LogRecord
  | .entered kind depth =>
      some (.trace, "compiling " ++ kind.name ++ " node at depth " ++ toString depth)
  | .failed error => some (.debug, "query compilation failed: " ++ error.message)
  | .called _ => none

end Event

/-- What happened, and the result. -/
@[ext] structure Run (α : Type) where
  events : List Event
  result : Except CompileError α

namespace Run

variable {α β : Type}

/-- Go on with a result; what happens then comes after what happened before. -/
def andThen (run : Run α) (next : α → Run β) : Run β :=
  match run.result with
  | .ok value => ⟨run.events ++ (next value).events, (next value).result⟩
  | .error error => ⟨run.events, .error error⟩

instance : Monad Run where
  pure value := ⟨[], .ok value⟩
  bind := andThen

@[simp] theorem result_pure (value : α) : (pure value : Run α).result = .ok value := rfl

/-- After a success the events of both parts stand one after the other. -/
@[simp] theorem bind_ok (events : List Event) (value : α) (next : α → Run β) :
    (⟨events, .ok value⟩ : Run α) >>= next
      = ⟨events ++ (next value).events, (next value).result⟩ := rfl

/-- After a failure nothing more happens. -/
@[simp] theorem bind_error (events : List Event) (error : CompileError) (next : α → Run β) :
    (⟨events, .error error⟩ : Run α) >>= next = ⟨events, .error error⟩ := rfl

@[simp] theorem result_bind (run : Run α) (next : α → Run β) :
    (run >>= next).result = run.result >>= fun value => (next value).result := by
  rcases run with ⟨events, _ | value⟩ <;> rfl

/-- Converting the result of a run leaves what happened as it is. -/
@[simp] theorem events_map (convert : α → β) (run : Run α) :
    (convert <$> run).events = run.events := by
  rcases run with ⟨events, _ | value⟩
  · rfl
  · exact List.append_nil events

@[simp] theorem result_map (convert : α → β) (run : Run α) :
    (convert <$> run).result = convert <$> run.result := by
  rcases run with ⟨events, _ | value⟩ <;> rfl

@[simp] theorem map_ok (convert : α → β) (events : List Event) (value : α) :
    convert <$> (⟨events, .ok value⟩ : Run α) = ⟨events, .ok (convert value)⟩ := by
  ext : 1
  · simp
  · rfl

instance : LawfulMonad Run := LawfulMonad.mk' Run
  (fun run => by ext : 1 <;> simp)
  (fun _ _ => Run.ext (List.nil_append _) rfl)
  (fun run first second => by
    rcases run with ⟨events, _ | value⟩
    · rfl
    · rcases made : first value with ⟨further, _ | _⟩
      · simp [made]
      · simp [made])

/-- Nothing but an event. -/
def emit (event : Event) : Run Unit := ⟨[event], .ok ()⟩

@[simp] theorem result_emit (event : Event) : (emit event).result = .ok () := rfl

/-- A call of the engine with the value it returns. -/
def call (call : Engine.Call) (value : α) : Run α := ⟨[.called call], .ok value⟩

@[simp] theorem result_call (made : Engine.Call) (value : α) :
    (call made value).result = .ok value := rfl

/-- A failure. -/
def fail (error : CompileError) : Run α := ⟨[], .error error⟩

@[simp] theorem result_fail (error : CompileError) :
    (fail error : Run α).result = .error error := rfl

/-- A run that reports its failure at the end. -/
def reportFailure (run : Run α) : Run α :=
  match run.result with
  | .ok _ => run
  | .error error => ⟨run.events ++ [.failed error], run.result⟩

/-- The calls of the engine, in order. -/
def calls (run : Run α) : List Engine.Call := run.events.filterMap Event.call?

/-- The nodes entered, in order. -/
def entered (run : Run α) : List (Kind × Nat) := run.events.filterMap Event.entered?

/-- The log records, in order. -/
def log (run : Run α) : List LogRecord := run.events.filterMap Event.logRecord?

end Run

end BooleanQuery
