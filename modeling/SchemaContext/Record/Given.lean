import SchemaContext.Failure
import SchemaContext.Record.Layout

/-!
# Records made by hand

A record of a class is made of fields by name. Every class has fields that must be
given; the others take their usual values. A field that the class does not have is
refused, before the ones that are missing are looked for.
-/

namespace SchemaContext
namespace RecordClass

/-- The fields of a class that must be given. -/
def required : RecordClass → List String
  | field | argument => ["name", "type"]
  | _ => ["name"]

/-- A record of given fields. -/
def ofGiven (c : RecordClass) (given : Entries Value) : Except Failure Value :=
  match given.keys.find? fun k => !c.fields.keys.contains k with
  | some k => .error (.unknownField c.name k)
  | none =>
    match c.required.filter fun k => !given.keys.contains k with
    | [] => .ok (c.make given)
    | missing => .error (.missingFields c.name missing)

end RecordClass
end SchemaContext
