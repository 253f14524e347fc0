import ApiModels.Schema.Kind
import ApiModels.Types.Tag

namespace ApiModels

inductive InferenceNote where
  | unknownFormat (format : String)
  | unknownType (type : String)
  deriving DecidableEq

def InferenceNote.message : InferenceNote → String
  | .unknownFormat format => "Unknown number format '" ++ format ++ "', falling back to number"
  | .unknownType type => "Unknown type '" ++ type ++ "', passed through as-is"

structure Inference where
  tag : TypeTag
  note : Option InferenceNote := none
  deriving DecidableEq

namespace Inference

def certain (tag : TypeTag) : Inference := { tag }

def noted (tag : TypeTag) (note : InferenceNote) : Inference := { tag, note := some note }

def ofNumberFormat : Option String → Inference
  | none => certain .number
  | some "float" => certain .float
  | some "double" => certain .double
  | some other => noted .number (.unknownFormat other)

def ofDeclaredType : Option String → Inference
  | some "object" => certain .object
  | some other => noted (.unknown other) (.unknownType other)
  | none => certain .object

end Inference

abbrev TypeMappings := SortedTable String

namespace Schema
open Inference

-- From the most specific type to the least; the order matters.
def infer (mappings : TypeMappings) (s : Schema) : Inference :=
  if s.isNull then certain .null
  else if s.isString && s.formatIs "number" then certain .bigDecimal
  else if s.isByteArray then certain .byteArray
  else if s.isFile then certain .file
  else if s.isBinary then certain .binary
  else if s.isBoolean then certain .boolean
  else if s.isDate then certain .date
  else if s.isDateTime then certain .dateTime
  else if s.isNumber then ofNumberFormat s.format
  else if s.isInteger then certain (if s.isLong then .long else .integer)
  else if s.isMap then certain .map
  else if s.isArray then certain (if s.isSet then .set else .array)
  else if s.isUuid then certain .uuid
  else if s.isUri then certain .uri
  else if s.isString then
    match s.format.bind mappings.get? with
    | some mapped => certain (.custom mapped)
    | none => certain .string
  else if s.isFreeForm then certain .object
  else if s.isObject && !s.properties.isEmpty then certain .object
  else if s.isAny then certain .anyType
  else ofDeclaredType s.primaryType?

def inferTag (mappings : TypeMappings) (s : Schema) : TypeTag := (s.infer mappings).tag

end Schema
end ApiModels
