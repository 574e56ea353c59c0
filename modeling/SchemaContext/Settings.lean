import SchemaContext.Journal.Basic
import SchemaContext.Value.Access
import SchemaContext.Value.Order

/-!
# Settings

Settings are resolved in layers: the library's defaults, then the project's
configuration, then the overrides of a call; for each key the last layer that has it
wins. Values are not checked or converted, except for the forced types, which become
the sequence of their elements, or an empty one where the value counts as false. A
configuration that is no dictionary and keys that are no settings are warned of and
ignored.
-/

namespace SchemaContext

/-- The settings of a build. Where a truth value is asked for, any value may stand. -/
structure Settings where
  includeSpecifiedDirectives : Value := .bool true
  forcedTypes : Value := .tuple []
  emitEvents : Value := .bool true

namespace Settings

def includeKey : String := "include_specified_directives"
def forcedKey : String := "forced_types"
def emitKey : String := "emit_events"

/-- The keys that are settings. -/
def keys : List String := [includeKey, forcedKey, emitKey]

/-- The key under which a project's configuration holds settings. -/
def projectKey : String := "GRAPHQL_CODEGEN_CORE"

/-- The layer below all others. -/
def defaults : Entries Value :=
  [(includeKey, .bool true), (forcedKey, .list []), (emitKey, .bool true)]

/-- Lays one layer over what the layers below have. A layer that counts as false has nothing. -/
def mergeLayer (below : Mapping) (layer : Value) : Except Failure Mapping :=
  if layer.truthy then return below.update (← layer.asMapping) else .ok below

/-- All layers, later ones over earlier ones. -/
def merge (layers : List Value) : Except Failure Mapping := layers.foldlM mergeLayer []

/-- The layer of a project's configuration; none if the project has no configuration. -/
def projectLayer (project : Option Value) : Run Value :=
  match project.getD .null with
  | .dict entries => pure (.dict entries)
  | config =>
    if config.truthy then do
      Run.log .settings .warning
        ("Ignoring " ++ projectKey ++ ": expected a dict, got " ++ config.sort)
      return .dict []
    else pure (.dict [])

def isKnown (key : Value) : Bool := key.text?.any keys.contains

/-- The keys that are no settings, each once. -/
def unknownKeys (given : List Value) : List Value :=
  Mapping.distinctKeys (given.filter fun k => !isKnown k)

/-- The failure to tell which of two keys comes first. -/
def undecided? (k other : Value) : Option Failure :=
  match k.before other with
  | .ok _ => none
  | .error (left, right) => some (.unordered left right)

/-- The failure to put keys in order: each is held against those before it, the nearest first. -/
def unordered? (ks : List Value) (earlier : List Value := []) : Option Failure :=
  match ks with
  | [] => none
  | k :: rest => (earlier.findSome? (undecided? k)).or (unordered? rest (k :: earlier))

theorem exists_of_unordered? {ks earlier : List Value} {f : Failure}
    (h : unordered? ks earlier = some f) : ∃ left right, f = .unordered left right := by
  induction ks generalizing earlier with
  | nil => cases h
  | cons k rest ih =>
    rcases Option.or_eq_some_iff.1 h with hheld | ⟨-, hrest⟩
    · obtain ⟨other, -, hother⟩ := List.exists_of_findSome?_eq_some hheld
      unfold undecided? at hother
      split at hother
      case h_1 => cases hother
      case h_2 left right _ => exact ⟨left, right, (Option.some.inj hother).symm⟩
    · exact ih hrest

/-- Whether the second of two keys is not before the first. -/
def inOrder (k k' : Value) : Bool := !((k'.before k).toOption.getD false)

/-- Keys in ascending order. -/
def sortKeys (ks : List Value) : Except Failure (List Value) :=
  match unordered? ks with
  | some f => .error f
  | none => .ok (ks.mergeSort inOrder)

/-- The elements of the forced types; none if the value counts as false. -/
def forcedElements (v : Value) : Except Failure Value :=
  if v.truthy then return .tuple (← v.elements) else .ok (.tuple [])

/-- The settings among the entries of a mapping, as they are. -/
def ofMapping (m : Mapping) : Settings :=
  { includeSpecifiedDirectives := (m.get? (.str includeKey)).getD (.bool true)
    forcedTypes := (m.get? (.str forcedKey)).getD (.tuple [])
    emitEvents := (m.get? (.str emitKey)).getD (.bool true) }

/-- Settings made from given fields, as they are. -/
def ofFields (given : Entries Value) : Except Failure Settings :=
  match given.keys.find? fun k => !keys.contains k with
  | some k => .error (.unknownField "ContextSettings" k)
  | none => .ok (ofMapping (Mapping.ofEntries given))

/-- Warns of the keys that are no settings, if there are any. -/
def warnUnknown (unknown : List Value) : Run Unit :=
  if unknown.isEmpty then pure ()
  else do
    let sorted ← Run.ofExcept (sortKeys unknown)
    Run.log .settings .warning
      ("Unknown codegen settings ignored: " ++ Text.bracketed (sorted.map Value.written))

/-- The settings among the entries of a mapping, the forced types as a sequence. -/
def settle (m : Mapping) : Except Failure Settings := do
  let settings := ofMapping m
  return { settings with forcedTypes := ← forcedElements settings.forcedTypes }

/-- The settings that a value holds. Unknown keys are warned of before the entries are read. -/
def ofValue (data : Value) : Run Settings := do
  let given ← Run.ofExcept data.elements
  let given ← Run.ofExcept (given.mapM Value.hashable)
  warnUnknown (unknownKeys given)
  Run.ofExcept (data.items >>= settle)

/-- The settings of a call, resolved from all layers. -/
def load (project : Option Value) (overrides : Value) : Run Settings := do
  let layer ← projectLayer project
  let merged ← Run.ofExcept (merge [.ofEntries defaults, layer, overrides])
  ofValue (.dict merged)

def toEntries (s : Settings) : Entries Value :=
  [(includeKey, s.includeSpecifiedDirectives), (forcedKey, s.forcedTypes), (emitKey, s.emitEvents)]

end Settings
end SchemaContext
