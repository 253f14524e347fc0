import ApiModels.Schema.Encode
import ApiModels.Schema.Kind
import ApiModels.Digest.Sha256

namespace ApiModels

def dropEnding (ending chars : List Char) : List Char :=
  if ending.isSuffixOf chars then chars.take (chars.length - ending.length) else chars

def isSeparator (c : Char) : Bool := c = '/' || c = '#'

-- What stands behind the last separator, hash signs at the end not counted.
def lastSegment (chars : List Char) : List Char :=
  ((chars.reverse.dropWhile (· = '#')).takeWhile (!isSeparator ·)).reverse

def simpleName (chars : List Char) : List Char :=
  dropEnding ".schema".toList (dropEnding ".json".toList (lastSegment chars))

def refName (reference : String) : String := String.ofList (simpleName reference.toList)

def schemaPath : String := "#/components/schemas/"

namespace Schema

def referenceTo (name : String) : Schema := { reference := some (schemaPath ++ name) }

def refName? (s : Schema) : Option String := s.reference.map refName

end Schema

structure DocumentInfo where
  title : Option String := none
  version : Option String := none
  deriving DecidableEq

structure Operation where
  path : String := ""
  method : String := ""
  operationId : Option String := none
  tags : List String := []
  summary : Option String := none
  description : Option String := none
  deprecated : Bool := false
  extensions : SortedTable Json.Value := SortedTable.empty

abbrev SchemaTable := Table Schema

def SchemaTable.toValue (schemas : SchemaTable) : Json.Value :=
  .object (schemas.entries.map fun (name, s) => (name, s.toValue))

structure Document where
  schemas : SchemaTable
  info : DocumentInfo := {}
  operations : List Operation := []
  fingerprint : String

namespace Document

def fingerprintOf (bytes : List UInt8) : String := Sha256.hexDigest bytes

def ofSchemas (schemas : SchemaTable) : Document where
  schemas := schemas
  fingerprint := fingerprintOf (Sha256.textBytes schemas.toValue.compact)

instance : Inhabited Document := ⟨ofSchemas Table.empty⟩

def withSource (document : Document) (bytes : List UInt8) : Document :=
  { document with fingerprint := fingerprintOf bytes }

def get? (document : Document) (name : String) : Option Schema := document.schemas.get? name

def contains (document : Document) (name : String) : Bool := document.schemas.contains name

def names (document : Document) : List String := document.schemas.names

end Document
end ApiModels
