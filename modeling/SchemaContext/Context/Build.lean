import SchemaContext.Context.Assembly
import SchemaContext.Document.Given
import SchemaContext.Document.Introspection
import SchemaContext.Schema.Snapshot
import SchemaContext.Settings
import SchemaContext.Journal.Sink

/-!
# Building a context

A build resolves its settings, goes through the documents that it is given, takes the
schema's types, finds the introspection enums that the documents need, drops the types
that templates do not see, and assembles the rest. It reports its progress to a sink by
at most four events: that it started, that the introspection enums were collected, that
the types were filtered, and then that it was completed or that a type was of none of the
kinds.
-/

namespace SchemaContext

/-- Where the settings of a build come from. -/
inductive SettingsSource where
  | given (s : Settings)
  /-- The project's configuration, if there is one, and the overrides of the call. -/
  | layers (project : Option Value) (overrides : Value)

structure Request (ρ : Type) where
  source : Source
  documents : Documents
  transformers : Transformers ρ
  settings : SettingsSource
  /-- The sink of the call, if the call chooses one. -/
  sink : Option Sink
  /-- The time of the request's events. -/
  time : String

namespace SettingsSource

def resolve : SettingsSource → Run Settings
  | given s => pure s
  | layers project overrides => Settings.load project overrides

end SettingsSource

/-- Events are logged unless the call chooses a sink or the settings turn events off. -/
def Settings.sink (s : Settings) (chosen : Option Sink) : Sink :=
  chosen.getD (if s.emitEvents.truthy then .logging else .silent)

/-- The directives of a schema that get a record. -/
def Settings.recordedDirectives (settings : Settings) (s : Schema) : List DirectiveDefinition :=
  s.directives.filter fun d =>
    settings.includeSpecifiedDirectives.truthy || !BuiltIn.isBuiltInDirective d.name

namespace Event

def started (time : String) (total documents : Nat) : Event :=
  { type := .started, message := .str "Building template context", timestamp := time
    context := .ofEntries [("total_types", .int total), ("documents", .int documents)] }

def introspectionCollected (time : String) (names : List String) : Event :=
  { type := .introspectionCollected, timestamp := time
    context := .ofEntries [("types", .list (names.map .str))] }

def filtered (time : String) (total kept : Nat) : Event :=
  { type := .filtered, timestamp := time
    message := .str ("Got total of " ++ toString kept ++ " types in the GraphQL schema")
    context := .ofEntries [("kept", .int kept), ("dropped", .int (total - kept : Nat))] }

def classificationFailed (time : String) (f : Failure) : Event :=
  { type := .classificationFailed, timestamp := time
    message := .str f.message, typeName := .ofText f.typeName? }

/-- The counters of a completed context. -/
def completed (time : String) (c : Context ρ) : Event :=
  { type := .completed, message := .str "Template context built", timestamp := time
    context := .ofEntries (c.lists.map (fun l => (l.1, .int l.2.length))
      ++ [("uses_directives", .bool c.usesDirectives)]) }

end Event

/-- The introspection enums of the documents, with a line about them if there are any. The walk ends
at the first item that cannot be walked. -/
def collectIntrospection (s : Schema) (documents : List GivenDocument) :
    Run (List NamedType) := do
  let documents ← Run.ofExcept (documents.mapM (GivenDocument.walked s))
  let enums := introspectionEnums s documents
  if !enums.isEmpty then
    Run.log .introspection .debug
      ("Introspection enums used by documents: " ++ Text.quotedList (enums.map NamedType.name))
  return enums

/-- Assembles a context. That a type is of none of the kinds is reported before the build ends. -/
def assembleReported (r : Request ρ) (sink : Sink) (s : Schema) (kept : Entries Entry)
    (directives : List DirectiveDefinition) : Run (Context ρ) :=
  tryCatch (assemble r.transformers s kept directives) fun f => do
    if f.isUnclassifiable then sink.emit (.classificationFailed r.time f)
    throw f

/-- Builds the context that a request asks for. -/
def build (r : Request ρ) : Run (Context ρ) := do
  let settings ← r.settings.resolve
  let sink := settings.sink r.sink
  let documents ← Run.ofExcept r.documents.listed
  let snapshot ← Snapshot.take r.source
  sink.emit (.started r.time snapshot.size documents.length)
  let enums ← collectIntrospection snapshot.schema documents
  sink.emit (.introspectionCollected r.time (enums.map NamedType.name))
  let forced ← Run.ofExcept settings.forcedTypes.elements
  let allowed ← Run.ofExcept (allowedNames (enums.map (fun t => .str t.name) ++ forced))
  let kept := filterTypes allowed snapshot.types.entries
  sink.emit (.filtered r.time snapshot.size kept.length)
  let context ←
    assembleReported r sink snapshot.schema kept (settings.recordedDirectives snapshot.schema)
  sink.emit (.completed r.time context)
  return context

end SchemaContext
