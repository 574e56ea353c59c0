import SchemaContext.Failure
import SchemaContext.Text.Json

/-!
# Events

An event records one step of building a context: what happened, how severe it is, and
the counters and names that belong to the step. Severity follows from the type of the
event unless it is given.
-/

namespace SchemaContext

inductive EventType where
  | started | introspectionCollected | filtered | completed | classificationFailed
  deriving DecidableEq, Repr

inductive Severity where
  | debug | info | warning | error
  deriving DecidableEq, Repr

namespace EventType

def all : List EventType :=
  [started, introspectionCollected, filtered, completed, classificationFailed]

theorem mem_all (t : EventType) : t ∈ all := by cases t <;> simp [all]

def name : EventType → String
  | started => "context.started"
  | introspectionCollected => "context.introspection.collected"
  | filtered => "context.types.filtered"
  | completed => "context.completed"
  | classificationFailed => "context.classification.failed"

def severity : EventType → Severity
  | started | introspectionCollected | filtered => .debug
  | completed => .info
  | classificationFailed => .error

/-- The event type of a name. -/
def ofValue (v : Value) : Except Failure EventType :=
  match all.find? fun t => v.text? == some t.name with
  | some t => .ok t
  | none => .error (.unknownEventType v)

end EventType

namespace Severity

def all : List Severity := [debug, info, warning, error]

def name : Severity → String
  | debug => "debug"
  | info => "info"
  | warning => "warning"
  | error => "error"

/-- The severity of a name. -/
def ofValue (v : Value) : Except Failure Severity :=
  match all.find? fun t => v.text? == some t.name with
  | some t => .ok t
  | none => .error (.unknownSeverity v)

end Severity

/-- An event. Its message, type name and context are plain data, nearly always a text, a text or
null, and a dictionary. -/
structure Event where
  type : EventType
  message : Value := .str ""
  severity : Severity := type.severity
  typeName : Value := .null
  context : Value := .dict []
  timestamp : String

namespace Event

/-- The event without its time. -/
def details (e : Event) : Entries Value :=
  [("event_type", .str e.type.name), ("message", e.message), ("severity", .str e.severity.name),
   ("type_name", e.typeName), ("context", e.context)]

def toEntries (e : Event) : Entries Value := e.details ++ [("timestamp", .str e.timestamp)]

/-- The event as one line of JSON. -/
def line (e : Event) : String := Text.json (.ofEntries e.toEntries)

/-- The event as one line of JSON, unless it holds a value that JSON text cannot. -/
def json (e : Event) : Except Failure String :=
  match Text.jsonless? (.ofEntries e.toEntries) with
  | some sort => .error (.notJson sort)
  | none => .ok e.line

end Event
end SchemaContext
