import ApiModels.Schema.Decode

namespace ApiModels

open Json

def TypeDecl.toValue : TypeDecl → Value
  | .single name => .string name
  | .listed names => Value.ofStrings names

def optionalField {α : Type} (key : String) (write : α → Value) (value : Option α) : List (String × Value) :=
  (value.map fun present => (key, write present)).toList

def Xml.toValue (x : Xml) : Value :=
  .object (List.flatten [
    optionalField "name" .string x.name,
    optionalField "namespace" .string x.nsUri,
    optionalField "prefix" .string x.nsPrefix,
    optionalField "attribute" .bool x.isAttribute,
    optionalField "wrapped" .bool x.isWrapped])

namespace Schema

mutual
def toValue : Schema → Value
  | { reference, type, format, title, description, enumValues, properties, required, nullable, readOnly,
      items, additionalProperties, uniqueItems, allOf, oneOf, anyOf, deprecated, externalDocs, xml, extra } =>
    .object (List.flatten [
      optionalField Keyword.reference.key .string reference,
      optionalField Keyword.type.key TypeDecl.toValue type,
      optionalField Keyword.format.key .string format,
      optionalField Keyword.title.key .string title,
      optionalField Keyword.description.key .string description,
      optionalField Keyword.enumValues.key .array enumValues,
      propertiesField properties,
      if required.isEmpty then [] else [(Keyword.required.key, Value.ofStrings required)],
      optionalField Keyword.nullable.key .bool nullable,
      optionalField Keyword.readOnly.key .bool readOnly,
      schemaField items,
      extrasField additionalProperties,
      optionalField Keyword.uniqueItems.key .bool uniqueItems,
      listField Keyword.allOf.key allOf,
      listField Keyword.oneOf.key oneOf,
      listField Keyword.anyOf.key anyOf,
      optionalField Keyword.deprecated.key .bool deprecated,
      optionalField Keyword.externalDocs.key id externalDocs,
      optionalField Keyword.xml.key Xml.toValue xml,
      extra.entries])

def propertiesField : List (String × Schema) → List (String × Value)
  | [] => []
  | first :: rest => [(Keyword.properties.key, .object (namedValues (first :: rest)))]

def schemaField : Option Schema → List (String × Value)
  | none => []
  | some s => [(Keyword.items.key, toValue s)]

def extrasField : Option (Extras Schema) → List (String × Value)
  | none => []
  | some (.flag isOpen) => [(Keyword.additionalProperties.key, .bool isOpen)]
  | some (.schema s) => [(Keyword.additionalProperties.key, toValue s)]

def listField (key : String) : Option (List Schema) → List (String × Value)
  | none => []
  | some schemas => [(key, .array (values schemas))]

def values : List Schema → List Value
  | [] => []
  | s :: rest => toValue s :: values rest

def namedValues : List (String × Schema) → List (String × Value)
  | [] => []
  | (name, s) :: rest => (name, toValue s) :: namedValues rest
end

def compactText (s : Schema) : String := s.toValue.compact

def prettyText (s : Schema) : String := s.toValue.pretty

end Schema
end ApiModels
