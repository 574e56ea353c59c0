import SchemaContext.Journal.Basic

/-!
# Event sinks

A sink receives the events of a run. Writing to a sink that refuses the event is a
failure; emitting an event to it is not, but is logged as an error, with the text of the
exception that the sink raises. Only where that text cannot be made emitting fails, too.
-/

namespace SchemaContext

/-- An exception by which a sink refuses an event. -/
inductive Refusal where
  | failure (f : Failure)
  /-- An exception whose text cannot be made: the attempt fails. -/
  | mute (attempt : Failure)

namespace Refusal

/-- An exception of a sink's own, with its text. -/
instance : Coe String Refusal := ⟨fun text => failure (.sink text)⟩

/-- The text of the exception, or the failure of making it. -/
def text : Refusal → Except Failure String
  | failure f => .ok f.message
  | mute attempt => .error attempt

/-- The exception as a failure; one whose text cannot be made is shown without a text. -/
def raised : Refusal → Failure
  | failure f => f
  | mute _ => .sink ""

end Refusal

inductive Sink where
  /-- Keeps events in memory until it is closed. -/
  | memory
  /-- Discards every event. -/
  | silent
  /-- Logs each event at the level of its severity. -/
  | logging
  /-- Keeps events in memory, but refuses some: `refuses` says by which exception, of an event and
  of how many events were offered before it. -/
  | faulty (name : String) (refuses : Nat → Event → Option Refusal)

namespace Sink

def name : Sink → String
  | memory => "MemoryEventSink"
  | silent => "NullEventSink"
  | logging => "LoggingEventSink"
  | faulty n _ => n

/-- What writing an event to a sink adds to a journal besides noting that it was offered; or the
exception by which the sink refuses it. A logging sink makes no text of an event whose level is
not logged. -/
def receive (k : Sink) (e : Event) (j : Journal) : Except Refusal Journal :=
  match k with
  | memory => .ok { j with kept := j.kept ++ [e] }
  | silent => .ok j
  | logging =>
    if j.enabled e.severity.logLevel then
      match e.json with
      | .ok _ => .ok (j.log ⟨.events, e.severity.logLevel, .event e⟩)
      | .error f => .error (.failure f)
    else .ok j
  | faulty _ refuses =>
    match refuses j.offered.length e with
    | some refusal => .error refusal
    | none => .ok { j with kept := j.kept ++ [e] }

def offer (e : Event) (j : Journal) : Journal := { j with offered := j.offered ++ [e] }

/-- Writes an event; a refusal is a failure. -/
def write (k : Sink) (e : Event) : Run Unit := do
  match k.receive e (← get) with
  | .ok j => set (offer e j)
  | .error refusal =>
    modify (offer e)
    throw refusal.raised

/-- The line about a refused event, with the text of the refusal. -/
def refusalLine (k : Sink) (text : String) : LogLine :=
  ⟨.sinks, .error, .text ("Sink " ++ k.name ++ " failed: " ++ text)⟩

/-- Sends an event to a sink. A sink that refuses it does not stop the caller, unless there is no
text for the line about it. The text is made whether or not the line is logged. -/
def emit (k : Sink) (e : Event) : Run Unit := do
  match k.receive e (← get) with
  | .ok j => set (offer e j)
  | .error refusal =>
    modify (offer e)
    let text ← Run.ofExcept refusal.text
    modify fun j => j.log (k.refusalLine text)

/-- The kept events of a type; only a sink in memory tells them. -/
def ofType (k : Sink) (t : EventType) : Run (List Event) := do
  match k with
  | memory => return (← get).ofType t
  | k => throw (.missingAttribute k.name "of_type")

/-- Closing a sink in memory discards what it kept. -/
def close (k : Sink) : Run Unit :=
  match k with
  | memory => modify fun j => { j with kept := [] }
  | _ => pure ()

end Sink
end SchemaContext
