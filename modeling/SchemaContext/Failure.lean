import SchemaContext.Directive.Argument
import SchemaContext.Value.Written

/-!
# Failures

Every way in which building a context, resolving settings, writing an event or using
a context can fail, by its cause. `message` is the wording of each.
-/

namespace SchemaContext

/-- What stands where a schema should, or a part of one or of a document, and is none. -/
inductive Misfit where
  /-- Something of another sort stands for a schema. -/
  | schema (sort : String)
  /-- Something that is no node of a syntax tree stands for a document. -/
  | node (shown : String)
  /-- A list, or a required type, is to be made of something that is no type. -/
  | type (shown : String)
  /-- A type is to be required that is required already. -/
  | nullable (shown : String)

def Misfit.message : Misfit → String
  | schema sort => "Expected a GraphQLSchema or graphene.Schema, got " ++ sort
  | node shown => "Not an AST Node: " ++ shown ++ "."
  | type shown => "Can only create a wrapper for a GraphQLType, but got: " ++ shown ++ "."
  | nullable shown => "Can only create NonNull of a Nullable GraphQLType but got: " ++ shown ++ "."

inductive Failure where
  /-- A type of the schema is of none of the kinds. The type is named and shown as text. -/
  | unclassifiable (typeName : Option String) (shown : String)
  /-- A failure of code generation in general. -/
  | general (text : String) (typeName : Option String)
  /-- The arguments of an applied directive cannot be read. -/
  | argument (fault : ArgumentFault)
  /-- Something else stands where a schema should, or a part of one or of a document. -/
  | notSchema (found : Misfit)
  /-- A value that has no elements stands where a sequence should. -/
  | notIterable (sort : String)
  /-- A value that has no length is asked for it. -/
  | noLength (sort : String)
  /-- A value that cannot be in a set or name an entry stands where it would have to. -/
  | unhashable (sort : String)
  /-- An item of a sequence of pairs is itself no sequence. -/
  | notPair (index : Nat)
  /-- An item of a sequence of pairs is of another length. -/
  | pairLength (index length : Nat)
  /-- A value that is no mapping stands where a mapping should. -/
  | noEntries (sort : String)
  /-- A value that is no function stands where one is called. -/
  | notCallable (sort : String)
  /-- Two values are to be put in order that have none. -/
  | unordered (left right : String)
  /-- An object is made with a field that its class does not have. -/
  | unknownField (cls name : String)
  /-- An object is made without fields that must be given. -/
  | missingFields (cls : String) (names : List String)
  /-- Code of the caller gives up: a transformer, or what gives the documents. -/
  | transformer (text : String)
  /-- A sink refuses an event. -/
  | sink (text : String)
  /-- A value that JSON text cannot hold stands in an event that is to be logged. -/
  | notJson (sort : String)
  /-- A value whose entries cannot be written is written to. -/
  | assignEntry (sort : String)
  | deleteEntry (sort : String)
  /-- A sequence is asked for an entry by a key. -/
  | keyedSequence (sort key : String)
  /-- A value that has neither entries nor items is asked for one. -/
  | noItems (sort : String)
  /-- A field of a context is written to. -/
  | assignField (name : String)
  | deleteField (name : String)
  | missingKey (key : Value)
  | missingAttribute (owner name : String)
  | unknownEventType (given : Value)
  | unknownSeverity (given : Value)
  /-- Kinds have no transformer and list, or no class of types. -/
  | unrouted (routes classes : List String)

namespace Failure

def message : Failure → String
  | unclassifiable typeName shown =>
    "Unexpected GraphQL type definition: " ++ typeName.getD "None" ++ " (As string: " ++ shown
      ++ "). Please check that you are importing only one instance of the 'graphql' package."
  | general text _ => text
  | argument fault => fault.message
  | notSchema found => found.message
  | notIterable sort => Text.quoted sort ++ " object is not iterable"
  | noLength sort => "object of type " ++ Text.quoted sort ++ " has no len()"
  | unhashable sort => "unhashable type: " ++ Text.quoted sort
  | notPair index =>
    "cannot convert dictionary update sequence element #" ++ toString index ++ " to a sequence"
  | pairLength index length =>
    "dictionary update sequence element #" ++ toString index ++ " has length " ++ toString length
      ++ "; 2 is required"
  | noEntries sort => Text.quoted sort ++ " object has no attribute 'items'"
  | notCallable sort => Text.quoted sort ++ " object is not callable"
  | unordered left right =>
    "'<' not supported between instances of " ++ Text.quoted left ++ " and " ++ Text.quoted right
  | unknownField cls name =>
    cls ++ ".__init__() got an unexpected keyword argument '" ++ name ++ "'"
  | missingFields cls names =>
    cls ++ ".__init__() missing " ++ toString names.length ++ " required positional argument"
      ++ (if names.length = 1 then ": " else "s: ")
      ++ String.intercalate " and " (names.map Text.quoted)
  | transformer text => text
  | sink text => text
  | notJson sort => "Object of type " ++ sort ++ " is not JSON serializable"
  | assignEntry sort => Text.quoted sort ++ " object does not support item assignment"
  | deleteEntry sort => Text.quoted sort ++ " object does not support item deletion"
  | keyedSequence sort key =>
    match sort with
    | "str" => "string indices must be integers, not " ++ Text.quoted key
    | sort => sort ++ " indices must be integers or slices, not " ++ key
  | noItems sort => Text.quoted sort ++ " object is not subscriptable"
  | assignField name => "cannot assign to field " ++ Text.quoted name
  | deleteField name => "cannot delete field " ++ Text.quoted name
  | missingKey key => key.written
  | missingAttribute owner name =>
    "'" ++ owner ++ "' object has no attribute '" ++ name ++ "'"
  | unknownEventType given => given.written ++ " is not a valid EventType"
  | unknownSeverity given => given.written ++ " is not a valid Severity"
  | unrouted routes classes =>
    "Type kinds without a route: " ++ Text.quotedList routes ++ "; without a class: "
      ++ Text.quotedList classes

/-- The type that a failure of code generation is about. -/
def typeName? : Failure → Option String
  | unclassifiable typeName _ => typeName
  | general _ typeName => typeName
  | _ => none

/-- A result of reading applied directives. -/
def ofArguments (x : Except ArgumentFault α) : Except Failure α := x.mapError argument

/-- Whether a failure says that a type is of none of the kinds. -/
def isUnclassifiable : Failure → Bool
  | unclassifiable _ _ => true
  | _ => false

end Failure

end SchemaContext
