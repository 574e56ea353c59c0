import SchemaContext.Filter
import SchemaContext.Settings

/-!
# Manifest

What the library tells of itself: its version, its defaults, and the names that it
offers to programs that build contexts.
-/

namespace SchemaContext
namespace Manifest

def version : String := "0.1.0"

/-- The names offered, in alphabetical order. -/
def exports : List String :=
  ["CodegenError", "ContextSettings", "DocumentFile", "TemplateContext", "TransformerSet",
   "TypeKind", "UnclassifiableTypeError", "schema_to_template_context"]

/-- All of it, under the names by which it is asked for. -/
def toEntries : Entries Value :=
  [("version", .str version), ("settings_name", .str Settings.projectKey),
   ("primitives", .ofNames primitiveNames), ("reserved_prefix", .str reservedStart),
   ("defaults", .ofEntries Settings.defaults), ("exports", .ofNames exports)]

end Manifest
end SchemaContext
