import SchemaContext.Journal.Event
import SchemaContext.Schema.Kind

/-!
# The journal of a run

What a run leaves behind besides its result: the lines that were logged, the events
that were offered to the sink and those that a sink kept in memory, and the calls of
transformers. A run that fails keeps what it has written until then.

A line is logged only if its level reaches the threshold of the library's loggers.
-/

namespace SchemaContext

inductive LogLevel where
  | debug | info | warning | error | critical
  deriving DecidableEq, Repr

inductive Logger where
  | settings | registry | introspection | assembler | sinks | events
  deriving DecidableEq, Repr

/-- What a line says: a text, or an event. -/
inductive LogMessage where
  | text (s : String)
  | event (e : Event)

structure LogLine where
  logger : Logger
  level : LogLevel
  message : LogMessage

/-- What a transformer makes records of: the types of a kind, or the directives. -/
inductive TransformerName where
  | type (k : Kind)
  | directives
  deriving DecidableEq, Repr

/-- One call of a transformer, with the type it was called on. -/
structure Call where
  transformer : TransformerName
  typeName : Option String
  deriving DecidableEq, Repr

structure Journal where
  threshold : LogLevel := .critical
  lines : List LogLine := []
  /-- Every event written to the sink, refused or not. -/
  offered : List Event := []
  /-- The events a sink kept in memory. -/
  kept : List Event := []
  calls : List Call := []

namespace LogLevel

def all : List LogLevel := [debug, info, warning, error, critical]

def name : LogLevel → String
  | debug => "DEBUG"
  | info => "INFO"
  | warning => "WARNING"
  | error => "ERROR"
  | critical => "CRITICAL"

def ofName? (s : String) : Option LogLevel := all.find? fun l => l.name == s

def rank : LogLevel → Nat
  | debug => 10
  | info => 20
  | warning => 30
  | error => 40
  | critical => 50

end LogLevel

namespace Severity

/-- The level at which an event of a severity is logged. -/
def logLevel : Severity → LogLevel
  | debug => .debug
  | info => .info
  | warning => .warning
  | error => .error

end Severity

namespace Logger

def name : Logger → String
  | settings => "codegen_core.settings"
  | registry => "codegen_core.schema.registry"
  | introspection => "codegen_core.schema.introspection"
  | assembler => "codegen_core.schema.assembler"
  | sinks => "codegen_core.observability.sinks"
  | events => "codegen_core.events"

end Logger

namespace LogMessage

/-- The text of a line; that of an event is its JSON text. -/
def render : LogMessage → String
  | text s => s
  | event e => e.line

end LogMessage

namespace TransformerName

def name : TransformerName → String
  | type k => k.transformer
  | directives => "directives"

def all : List TransformerName := Kind.all.map type ++ [directives]

/-- The transformer that a caller names. -/
def ofName (s : String) : Except Failure TransformerName :=
  match all.find? fun t => t.name == s with
  | some t => .ok t
  | none => .error (.unknownField "TransformerSet" s)

end TransformerName

namespace Journal

/-- Whether lines of a level are logged. -/
def enabled (j : Journal) (l : LogLevel) : Bool := j.threshold.rank ≤ l.rank

/-- Adds a line if its level is logged. -/
def log (j : Journal) (line : LogLine) : Journal :=
  if j.enabled line.level then { j with lines := j.lines ++ [line] } else j

/-- The kept events of a type. -/
def ofType (j : Journal) (t : EventType) : List Event := j.kept.filter fun e => e.type = t

end Journal

/-- A computation that may fail and that writes a journal, which a failure does not undo. -/
abbrev Run (α : Type) := ExceptT Failure (StateM Journal) α

namespace Run

/-- The result and the journal of a computation that starts with a given journal. -/
def outcome (x : Run α) (j : Journal) : Except Failure α × Journal := (ExceptT.run x).run j

def log (logger : Logger) (level : LogLevel) (text : String) : Run Unit :=
  modify fun j => j.log ⟨logger, level, .text text⟩

/-- A result that was computed without a journal. -/
def ofExcept (x : Except Failure α) : Run α :=
  match x with
  | .ok a => pure a
  | .error f => throw f

/-- Notes a call of a transformer. -/
def called (c : Call) : Run Unit := modify fun j => { j with calls := j.calls ++ [c] }

@[simp] theorem outcome_pure (a : α) (j : Journal) : (pure a : Run α).outcome j = (.ok a, j) := rfl

@[simp] theorem outcome_throw (f : Failure) (j : Journal) :
    (throw f : Run α).outcome j = (.error f, j) := rfl

/-- The second computation starts with the journal of the first, and not at all if that fails. -/
theorem outcome_bind (x : Run α) (f : α → Run β) (j : Journal) :
    (x >>= f).outcome j =
      match x.outcome j with
      | (.ok a, j) => (f a).outcome j
      | (.error e, j) => (.error e, j) := by
  simp only [outcome, ExceptT.run_bind, StateT.run_bind]
  rcases h : StateT.run (ExceptT.run x) j with ⟨a | a, j'⟩ <;> rfl

/-- A handler starts with the journal that the failure left. -/
theorem outcome_tryCatch (x : Run α) (handle : Failure → Run α) (j : Journal) :
    (tryCatch x handle).outcome j =
      match x.outcome j with
      | (.ok a, j) => (.ok a, j)
      | (.error e, j) => (handle e).outcome j := by
  have h : (tryCatch x handle).outcome j = (ExceptT.run (ExceptT.tryCatch x handle)).run j := rfl
  rw [h]
  simp only [outcome, ExceptT.tryCatch, ExceptT.run_mk, StateT.run_bind]
  rcases h : StateT.run (ExceptT.run x) j with ⟨a | a, j'⟩
  · simp_all [ExceptT.run]
    rfl
  · simp_all [ExceptT.run]
    rfl

@[simp] theorem outcome_modify (g : Journal → Journal) (j : Journal) :
    (modify g : Run Unit).outcome j = (.ok (), g j) := rfl

@[simp] theorem outcome_log (logger : Logger) (level : LogLevel) (text : String) (j : Journal) :
    (log logger level text).outcome j = (.ok (), j.log ⟨logger, level, .text text⟩) := rfl

@[simp] theorem outcome_called (c : Call) (j : Journal) :
    (called c).outcome j = (.ok (), { j with calls := j.calls ++ [c] }) := rfl

@[simp] theorem outcome_ofExcept (x : Except Failure α) (j : Journal) :
    (ofExcept x).outcome j = (x, j) := by
  cases x <;> rfl

end Run
end SchemaContext
