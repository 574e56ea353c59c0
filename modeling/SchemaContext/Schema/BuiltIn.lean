import SchemaContext.Schema.Basic

/-!
# Built-in types and directives

Every schema can refer to the five primitive scalars and to the types by which a
schema describes itself, and has the five built-in directives unless it says which
directives it has. None of them has syntax nodes.
-/

namespace SchemaContext
namespace BuiltIn

def opt (name : String) : TypeRef := .named name false

def req (name : String) : TypeRef := .named name true

def listOf (item : TypeRef) : TypeRef := .list item false

def allOf (item : TypeRef) : TypeRef := .list item true

def arg (name : String) (type : TypeRef) (default : Option Value) (description : Option String) :
    InputValue :=
  { name, type, default, description, deprecation := none, node := none }

def field (name : String) (type : TypeRef) (args : List InputValue) (description : Option String) :
    Field :=
  { name, type, args, description, deprecation := none, node := none }

/-- An enum value whose value is the constant of that name in the enumeration of a given name. -/
def enumValue (enumeration : String) (name description : String) : EnumValue :=
  { name, value := .constant (enumeration ++ "." ++ name), description := some description,
    deprecation := none, node := none }

def type (name description : String) (body : TypeBody) : NamedType :=
  { name, description := some description, definition := none, extensions := [], body }

def directive (name description : String) (locations : List String) (args : List InputValue) :
    DirectiveDefinition :=
  { name, locations, args, repeatable := false, description := some description }

/-- The five scalars that templates know without a record. -/
def scalars : List NamedType := [
  type "String"
    ("The `String` scalar type represents textual data, represented as UTF-8 character " ++
     "sequences. The String type is most often used by GraphQL to represent free-form " ++
     "human-readable text.")
    .scalar,
  type "Int"
    ("The `Int` scalar type represents non-fractional signed whole numeric values. Int can " ++
     "represent values between -(2^31) and 2^31 - 1.")
    .scalar,
  type "Float"
    ("The `Float` scalar type represents signed double-precision fractional values as specified " ++
     "by [IEEE 754](https://en.wikipedia.org/wiki/IEEE_floating_point).")
    .scalar,
  type "Boolean"
    "The `Boolean` scalar type represents `true` or `false`."
    .scalar,
  type "ID"
    ("The `ID` scalar type represents a unique identifier, often used to refetch an object or " ++
     "as key for a cache. The ID type appears in a JSON response as a String; however, it is " ++
     "not intended to be human-readable. When expected as an input type, any string (such as " ++
     "`\"4\"`) or integer (such as `4`) input value will be accepted as an ID.")
    .scalar]

/-- The type `__Schema` of the introspection system. -/
def schemaType : NamedType :=
  type "__Schema"
    ("A GraphQL Schema defines the capabilities of a GraphQL server. It exposes all available " ++
     "types and directives on the server, as well as the entry points for query, mutation, and " ++
     "subscription operations.")
    (.object [] [
      field "description" (opt "String") [] none,
      field "types" (allOf (req "__Type")) []
        (some "A list of all types supported by this server."),
      field "queryType" (req "__Type") []
        (some "The type that query operations will be rooted at."),
      field "mutationType" (opt "__Type") []
        (some ("If this server supports mutation, the type that mutation operations will be " ++
               "rooted at.")),
      field "subscriptionType" (opt "__Type") []
        (some ("If this server supports subscription, the type that subscription operations " ++
               "will be rooted at.")),
      field "directives" (allOf (req "__Directive"))
        [arg "includeDeprecated" (req "Boolean") (some (.bool false)) none]
        (some "A list of all directives supported by this server.")])

/-- The type `__Directive` of the introspection system. -/
def directiveType : NamedType :=
  type "__Directive"
    ("A Directive provides a way to describe alternate runtime execution and type validation " ++
     "behavior in a GraphQL document.\n\nIn some cases, you need to provide options to alter " ++
     "GraphQL's execution behavior in ways field arguments will not suffice, such as " ++
     "conditionally including or skipping a field. Directives provide this by describing " ++
     "additional information to the executor.")
    (.object [] [
      field "name" (req "String") [] none,
      field "description" (opt "String") [] none,
      field "isRepeatable" (req "Boolean") [] none,
      field "locations" (allOf (req "__DirectiveLocation")) [] none,
      field "args" (allOf (req "__InputValue"))
        [arg "includeDeprecated" (opt "Boolean") (some (.bool false)) none] none,
      field "isDeprecated" (req "Boolean") [] none,
      field "deprecationReason" (opt "String") [] none])

/-- The type `__DirectiveLocation` of the introspection system. -/
def directiveLocation : NamedType :=
  type "__DirectiveLocation"
    ("A Directive can be adjacent to many parts of the GraphQL language, a __DirectiveLocation " ++
     "describes one such possible adjacencies.")
    (.enum [
      enumValue "DirectiveLocation" "QUERY" "Location adjacent to a query operation.",
      enumValue "DirectiveLocation" "MUTATION" "Location adjacent to a mutation operation.",
      enumValue "DirectiveLocation" "SUBSCRIPTION" "Location adjacent to a subscription operation.",
      enumValue "DirectiveLocation" "FIELD" "Location adjacent to a field.",
      enumValue "DirectiveLocation" "FRAGMENT_DEFINITION"
        "Location adjacent to a fragment definition.",
      enumValue "DirectiveLocation" "FRAGMENT_SPREAD" "Location adjacent to a fragment spread.",
      enumValue "DirectiveLocation" "INLINE_FRAGMENT" "Location adjacent to an inline fragment.",
      enumValue "DirectiveLocation" "VARIABLE_DEFINITION"
        "Location adjacent to a variable definition.",
      enumValue "DirectiveLocation" "SCHEMA" "Location adjacent to a schema definition.",
      enumValue "DirectiveLocation" "SCALAR" "Location adjacent to a scalar definition.",
      enumValue "DirectiveLocation" "OBJECT" "Location adjacent to an object type definition.",
      enumValue "DirectiveLocation" "FIELD_DEFINITION" "Location adjacent to a field definition.",
      enumValue "DirectiveLocation" "ARGUMENT_DEFINITION"
        "Location adjacent to an argument definition.",
      enumValue "DirectiveLocation" "INTERFACE" "Location adjacent to an interface definition.",
      enumValue "DirectiveLocation" "UNION" "Location adjacent to a union definition.",
      enumValue "DirectiveLocation" "ENUM" "Location adjacent to an enum definition.",
      enumValue "DirectiveLocation" "ENUM_VALUE" "Location adjacent to an enum value definition.",
      enumValue "DirectiveLocation" "INPUT_OBJECT"
        "Location adjacent to an input object type definition.",
      enumValue "DirectiveLocation" "INPUT_FIELD_DEFINITION"
        "Location adjacent to an input object field definition.",
      enumValue "DirectiveLocation" "DIRECTIVE_DEFINITION"
        "Location adjacent to a directive definition."])

/-- The type `__Type` of the introspection system. -/
def typeType : NamedType :=
  type "__Type"
    ("The fundamental unit of any GraphQL Schema is the type. There are many kinds of types in " ++
     "GraphQL as represented by the `__TypeKind` enum.\n\nDepending on the kind of a type, " ++
     "certain fields describe information about that type. Scalar types provide no information " ++
     "beyond a name, description and optional `specifiedByURL`, while Enum types provide their " ++
     "values. Object and Interface types provide the fields they describe. Abstract types, " ++
     "Union and Interface, provide the Object types possible at runtime. List and NonNull types " ++
     "compose other types.")
    (.object [] [
      field "kind" (req "__TypeKind") [] none,
      field "name" (opt "String") [] none,
      field "description" (opt "String") [] none,
      field "specifiedByURL" (opt "String") [] none,
      field "fields" (listOf (req "__Field"))
        [arg "includeDeprecated" (opt "Boolean") (some (.bool false)) none] none,
      field "interfaces" (listOf (req "__Type")) [] none,
      field "possibleTypes" (listOf (req "__Type")) [] none,
      field "enumValues" (listOf (req "__EnumValue"))
        [arg "includeDeprecated" (opt "Boolean") (some (.bool false)) none] none,
      field "inputFields" (listOf (req "__InputValue"))
        [arg "includeDeprecated" (opt "Boolean") (some (.bool false)) none] none,
      field "ofType" (opt "__Type") [] none,
      field "isOneOf" (opt "Boolean") [] none])

/-- The type `__Field` of the introspection system. -/
def fieldType : NamedType :=
  type "__Field"
    ("Object and Interface types are described by a list of Fields, each of which has a name, " ++
     "potentially a list of arguments, and a return type.")
    (.object [] [
      field "name" (req "String") [] none,
      field "description" (opt "String") [] none,
      field "args" (allOf (req "__InputValue"))
        [arg "includeDeprecated" (opt "Boolean") (some (.bool false)) none] none,
      field "type" (req "__Type") [] none,
      field "isDeprecated" (req "Boolean") [] none,
      field "deprecationReason" (opt "String") [] none])

/-- The type `__InputValue` of the introspection system. -/
def inputValueType : NamedType :=
  type "__InputValue"
    ("Arguments provided to Fields or Directives and the input fields of an InputObject are " ++
     "represented as Input Values which describe their type and optionally a default value.")
    (.object [] [
      field "name" (req "String") [] none,
      field "description" (opt "String") [] none,
      field "type" (req "__Type") [] none,
      field "defaultValue" (opt "String") []
        (some "A GraphQL-formatted string representing the default value for this input value."),
      field "isDeprecated" (req "Boolean") [] none,
      field "deprecationReason" (opt "String") [] none])

/-- The type `__EnumValue` of the introspection system. -/
def enumValueType : NamedType :=
  type "__EnumValue"
    ("One possible value for a given Enum. Enum values are unique values, not a placeholder for " ++
     "a string or numeric value. However an Enum value is returned in a JSON response as a " ++
     "string.")
    (.object [] [
      field "name" (req "String") [] none,
      field "description" (opt "String") [] none,
      field "isDeprecated" (req "Boolean") [] none,
      field "deprecationReason" (opt "String") [] none])

/-- The type `__TypeKind` of the introspection system. -/
def typeKind : NamedType :=
  type "__TypeKind"
    "An enum describing what kind of type a given `__Type` is."
    (.enum [
      enumValue "TypeKind" "SCALAR" "Indicates this type is a scalar.",
      enumValue "TypeKind" "OBJECT"
        "Indicates this type is an object. `fields` and `interfaces` are valid fields.",
      enumValue "TypeKind" "INTERFACE"
        ("Indicates this type is an interface. `fields`, `interfaces`, and `possibleTypes` are " ++
         "valid fields."),
      enumValue "TypeKind" "UNION"
        "Indicates this type is a union. `possibleTypes` is a valid field.",
      enumValue "TypeKind" "ENUM" "Indicates this type is an enum. `enumValues` is a valid field.",
      enumValue "TypeKind" "INPUT_OBJECT"
        "Indicates this type is an input object. `inputFields` is a valid field.",
      enumValue "TypeKind" "LIST" "Indicates this type is a list. `ofType` is a valid field.",
      enumValue "TypeKind" "NON_NULL"
        "Indicates this type is a non-null. `ofType` is a valid field."])

/-- The types by which a schema describes itself. -/
def introspectionTypes : List NamedType :=
  [schemaType, directiveType, directiveLocation, typeType, fieldType,
   inputValueType, enumValueType, typeKind]

def types : List NamedType := scalars ++ introspectionTypes

/-- The directives of a schema that does not say which it has. -/
def directives : List DirectiveDefinition := [
  directive "include"
    "Directs the executor to include this field or fragment only when the `if` argument is true."
    ["FIELD", "FRAGMENT_SPREAD", "INLINE_FRAGMENT"]
    [arg "if" (req "Boolean") none (some "Included when true.")],
  directive "skip"
    "Directs the executor to skip this field or fragment when the `if` argument is true."
    ["FIELD", "FRAGMENT_SPREAD", "INLINE_FRAGMENT"]
    [arg "if" (req "Boolean") none (some "Skipped when true.")],
  directive "deprecated"
    "Marks an element of a GraphQL schema as no longer supported."
    ["FIELD_DEFINITION", "ARGUMENT_DEFINITION", "INPUT_FIELD_DEFINITION", "ENUM_VALUE",
     "DIRECTIVE_DEFINITION"]
    [arg "reason" (opt "String") (some (.str "No longer supported"))
      (some ("Explains why this element was deprecated, usually also including a suggestion for " ++
             "how to access supported similar data. Formatted using the Markdown syntax, as " ++
             "specified by [CommonMark](https://commonmark.org/)."))],
  directive "specifiedBy"
    "Exposes a URL that specifies the behavior of this scalar."
    ["SCALAR"]
    [arg "url" (req "String") none (some "The URL that specifies the behavior of this scalar.")],
  directive "oneOf"
    "Indicates an Input Object is a OneOf Input Object."
    ["INPUT_OBJECT"]
    []]

/-- The built-in directives are recognised by name, whoever defines them. -/
def isBuiltInDirective (name : String) : Bool :=
  (directives.map DirectiveDefinition.name).contains name

def type? (name : String) : Option NamedType := types.find? fun t => t.name == name

def directive? (name : String) : Option DirectiveDefinition :=
  directives.find? fun d => d.name == name

end BuiltIn
end SchemaContext
