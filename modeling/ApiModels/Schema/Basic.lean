import ApiModels.Json.Value
import ApiModels.Table.Sorted

namespace ApiModels

inductive TypeDecl where
  | single (name : String)
  | listed (names : List String)
  deriving DecidableEq

namespace TypeDecl

def primary? : TypeDecl → Option String
  | .single name => if name = "null" then none else some name
  | .listed names => names.find? (· ≠ "null")

def includesNull : TypeDecl → Bool
  | .single name => name = "null"
  | .listed names => names.any (· = "null")

def isNullOnly : TypeDecl → Bool
  | .single name => name = "null"
  | .listed names => !names.isEmpty && names.all (· = "null")

end TypeDecl

inductive Extras (σ : Type) where
  | flag (isOpen : Bool)
  | schema (value : σ)

structure Xml where
  name : Option String := none
  nsUri : Option String := none
  nsPrefix : Option String := none
  isAttribute : Option Bool := none
  isWrapped : Option Bool := none
  deriving DecidableEq

structure Schema where
  reference : Option String := none
  type : Option TypeDecl := none
  format : Option String := none
  title : Option String := none
  description : Option String := none
  enumValues : Option (List Json.Value) := none
  properties : List (String × Schema) := []
  required : List String := []
  nullable : Option Bool := none
  readOnly : Option Bool := none
  items : Option Schema := none
  additionalProperties : Option (Extras Schema) := none
  uniqueItems : Option Bool := none
  allOf : Option (List Schema) := none
  oneOf : Option (List Schema) := none
  anyOf : Option (List Schema) := none
  deprecated : Option Bool := none
  externalDocs : Option Json.Value := none
  xml : Option Xml := none
  -- Every other key, extensions included.
  extra : SortedTable Json.Value := SortedTable.empty

def extensionMark : String := "x-"

def isExtension (key : String) : Bool := key.startsWith extensionMark

namespace Schema

def blank : Schema := {}

instance : Inhabited Schema := ⟨blank⟩

def isBlank (s : Schema) : Bool :=
  s.reference.isNone && s.type.isNone && s.format.isNone && s.title.isNone && s.description.isNone
    && s.enumValues.isNone && s.properties.isEmpty && s.required.isEmpty && s.nullable.isNone
    && s.readOnly.isNone && s.items.isNone && s.additionalProperties.isNone && s.uniqueItems.isNone
    && s.allOf.isNone && s.oneOf.isNone && s.anyOf.isNone && s.deprecated.isNone
    && s.externalDocs.isNone && s.xml.isNone && s.extra.entries.isEmpty

def primaryType? (s : Schema) : Option String := s.type.bind TypeDecl.primary?

def typeIs (s : Schema) (name : String) : Bool := s.primaryType? = some name

def formatIs (s : Schema) (name : String) : Bool := s.format = some name

def declaresNullable (s : Schema) : Bool := s.nullable = some true || s.type.any TypeDecl.includesNull

def enumList (s : Schema) : List Json.Value := s.enumValues.getD []

def hasEnum (s : Schema) : Bool := !s.enumList.isEmpty

def allOfMembers (s : Schema) : List Schema := s.allOf.getD []

def oneOfArms (s : Schema) : List Schema := s.oneOf.getD []

def anyOfBranches (s : Schema) : List Schema := s.anyOf.getD []

def extensions (s : Schema) : SortedTable Json.Value := s.extra.filterNames isExtension

end Schema
end ApiModels
