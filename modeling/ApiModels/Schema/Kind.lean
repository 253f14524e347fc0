import ApiModels.Schema.Basic

namespace ApiModels
namespace Schema

def isObject (s : Schema) : Bool := s.typeIs "object" || (s.primaryType?.isNone && !s.properties.isEmpty)

def isComposed (s : Schema) : Bool :=
  !s.allOfMembers.isEmpty || !s.oneOfArms.isEmpty || !s.anyOfBranches.isEmpty

-- No properties of its own, and extras that are open or have a schema.
def isMap (s : Schema) : Bool :=
  s.reference.isNone && s.properties.isEmpty &&
    match s.additionalProperties with
    | some (.schema _) => true
    | some (.flag isOpen) => isOpen
    | none => false

def isArray (s : Schema) : Bool := s.typeIs "array"

def isSet (s : Schema) : Bool := s.isArray && s.uniqueItems = some true

def isString (s : Schema) : Bool := s.typeIs "string"

def isBoolean (s : Schema) : Bool := s.typeIs "boolean"

def isNumber (s : Schema) : Bool := s.typeIs "number"

def isInteger (s : Schema) : Bool := s.typeIs "integer"

def isLong (s : Schema) : Bool := s.isInteger && (s.formatIs "int64" || s.formatIs "long")

def isByteArray (s : Schema) : Bool := s.isString && s.formatIs "byte"

def isBinary (s : Schema) : Bool := s.isString && s.formatIs "binary"

def isFile (s : Schema) : Bool := s.typeIs "file"

def isDate (s : Schema) : Bool := s.isString && s.formatIs "date"

def isDateTime (s : Schema) : Bool := s.isString && s.formatIs "date-time"

def isUuid (s : Schema) : Bool := s.isString && s.formatIs "uuid"

def isUri (s : Schema) : Bool := s.isString && s.formatIs "uri"

def isNull (s : Schema) : Bool := s.type.any TypeDecl.isNullOnly

def isFreeForm (s : Schema) : Bool :=
  s.typeIs "object" && s.properties.isEmpty && !s.isComposed &&
    match s.additionalProperties with
    | none => true
    | some (.flag isOpen) => isOpen
    | some (.schema value) => value.isBlank

def isAny (s : Schema) : Bool :=
  s.reference.isNone && s.primaryType?.isNone && !s.isNull && s.format.isNone && s.properties.isEmpty
    && s.items.isNone && s.additionalProperties.isNone && !s.hasEnum && !s.isComposed

-- A reference to such a schema is kept, since it becomes a model of its own.
def hasStructure (s : Schema) : Bool := s.hasEnum || s.isComposed || !s.properties.isEmpty

def isAliasEligible (s : Schema) : Bool :=
  !(s.isObject || s.isArray || s.isMap || s.isComposed || s.hasEnum)

inductive Kind where
  | reference | composed | enumeration | array | map | freeForm | named | primitive
  deriving DecidableEq

def Kind.text : Kind → String
  | .reference => "reference"
  | .composed => "composed"
  | .enumeration => "enum"
  | .array => "array"
  | .map => "map"
  | .freeForm => "free-form-object"
  | .named => "named-object"
  | .primitive => "primitive"

def kind (s : Schema) : Kind :=
  if s.reference.isSome then .reference
  else if s.isComposed then .composed
  else if s.hasEnum then .enumeration
  else if s.isArray then .array
  else if s.isMap then .map
  else if !s.properties.isEmpty then .named
  else if s.isFreeForm || s.isAny then .freeForm
  else .primitive

def traits : List (String × (Schema → Bool)) :=
  [("object", isObject), ("composed", isComposed), ("map", isMap), ("array", isArray), ("set", isSet),
   ("string", isString), ("boolean", isBoolean), ("number", isNumber), ("integer", isInteger),
   ("long", isLong), ("byteArray", isByteArray), ("binary", isBinary), ("file", isFile), ("date", isDate),
   ("dateTime", isDateTime), ("uuid", isUuid), ("uri", isUri), ("null", isNull),
   ("freeFormObject", isFreeForm), ("anyType", isAny), ("aliasEligible", isAliasEligible),
   ("hasEnum", hasEnum)]

def traitNames (s : Schema) : List String := (traits.filter (·.2 s)).map Prod.fst

end Schema
end ApiModels
