namespace ApiModels

inductive ContainerKind where
  | array | set | map
  deriving DecidableEq

def ContainerKind.text : ContainerKind → String
  | .array => "array"
  | .set => "set"
  | .map => "map"

inductive TypeTag where
  | null | bigDecimal | byteArray | binary | file | boolean | date | dateTime | number | float | double
  | long | integer | map | set | array | uuid | uri | string | object | anyType
  | custom (name : String)
  -- A declared type outside the known ones, kept as written.
  | unknown (name : String)
  deriving DecidableEq

namespace TypeTag

instance : Inhabited TypeTag := ⟨.object⟩

def text : TypeTag → String
  | .null => "null"
  | .bigDecimal => "BigDecimal"
  | .byteArray => "ByteArray"
  | .binary => "binary"
  | .file => "file"
  | .boolean => "boolean"
  | .date => "date"
  | .dateTime => "date-time"
  | .number => "number"
  | .float => "float"
  | .double => "double"
  | .long => "long"
  | .integer => "integer"
  | .map => "map"
  | .set => "set"
  | .array => "array"
  | .uuid => "UUID"
  | .uri => "URI"
  | .string => "string"
  | .object => "object"
  | .anyType => "AnyType"
  | .custom name => name
  | .unknown name => name

def container? : TypeTag → Option ContainerKind
  | .array => some .array
  | .set => some .set
  | .map => some .map
  | _ => none

def isContainer (tag : TypeTag) : Bool := tag.container?.isSome

def isNumeric : TypeTag → Bool
  | .number | .float | .double | .long | .integer | .bigDecimal => true
  | _ => false

end TypeTag
end ApiModels
