import ApiModels.Schema.Basic
import ApiModels.Json.Decode

namespace ApiModels

open Json

def Xml.shape : Shape Xml where
  name := "XmlObject"
  initial := {}
  fields := [
    .defaulted "name" (Decoder.optional .string) (fun x name => { x with name }),
    .defaulted "namespace" (Decoder.optional .string) (fun x nsUri => { x with nsUri }),
    .defaulted "prefix" (Decoder.optional .string) (fun x nsPrefix => { x with nsPrefix }),
    .defaulted "attribute" (Decoder.optional .bool) (fun x isAttribute => { x with isAttribute }),
    .defaulted "wrapped" (Decoder.optional .bool) (fun x isWrapped => { x with isWrapped })]

def TypeDecl.decode : Decoder TypeDecl
  | .string name => .ok (.single name)
  | .array items => match Decoder.strings (.array items) with
      | .ok names => .ok (.listed names)
      | .error _ => .error (.noMatch "TypeDecl")
  | _ => .error (.noMatch "TypeDecl")

inductive Keyword where
  | reference | type | format | title | description | enumValues | properties | required | nullable
  | readOnly | items | additionalProperties | uniqueItems | allOf | oneOf | anyOf | deprecated
  | externalDocs | xml
  deriving DecidableEq

namespace Keyword

def all : List Keyword :=
  [.reference, .type, .format, .title, .description, .enumValues, .properties, .required, .nullable,
   .readOnly, .items, .additionalProperties, .uniqueItems, .allOf, .oneOf, .anyOf, .deprecated,
   .externalDocs, .xml]

def key : Keyword → String
  | .reference => "$ref"
  | .type => "type"
  | .format => "format"
  | .title => "title"
  | .description => "description"
  | .enumValues => "enum"
  | .properties => "properties"
  | .required => "required"
  | .nullable => "nullable"
  | .readOnly => "readOnly"
  | .items => "items"
  | .additionalProperties => "additionalProperties"
  | .uniqueItems => "uniqueItems"
  | .allOf => "allOf"
  | .oneOf => "oneOf"
  | .anyOf => "anyOf"
  | .deprecated => "deprecated"
  | .externalDocs => "externalDocs"
  | .xml => "xml"

def ofKey? (key : String) : Option Keyword := all.find? (·.key = key)

end Keyword

namespace Schema

def wanted : String := "struct Schema"

mutual
def readKeys (s : Schema) : List (String × Value) → Except DecodeError Schema
  | [] => .ok s
  | (key, value) :: rest => do
      let next ← match Keyword.ofKey? key with
        | some keyword => readKeyword s keyword value
        | none => .ok { s with extra := s.extra.insert key value }
      readKeys next rest

def readKeyword (s : Schema) (keyword : Keyword) (value : Value) : Except DecodeError Schema :=
  match keyword with
  | .reference => do return { s with reference := ← Decoder.optional .string value }
  | .type => do return { s with type := ← Decoder.optional TypeDecl.decode value }
  | .format => do return { s with format := ← Decoder.optional .string value }
  | .title => do return { s with title := ← Decoder.optional .string value }
  | .description => do return { s with description := ← Decoder.optional .string value }
  | .enumValues => do return { s with enumValues := ← Decoder.optional (.list .ok) value }
  | .properties => do return { s with properties := ← readProperties value }
  | .required => do return { s with required := ← Decoder.strings value }
  | .nullable => do return { s with nullable := ← Decoder.optional .bool value }
  | .readOnly => do return { s with readOnly := ← Decoder.optional .bool value }
  | .items => do return { s with items := ← readOptional value }
  | .additionalProperties => do return { s with additionalProperties := ← readExtras value }
  | .uniqueItems => do return { s with uniqueItems := ← Decoder.optional .bool value }
  | .allOf => do return { s with allOf := ← readOptionalList value }
  | .oneOf => do return { s with oneOf := ← readOptionalList value }
  | .anyOf => do return { s with anyOf := ← readOptionalList value }
  | .deprecated => do return { s with deprecated := ← Decoder.optional .bool value }
  | .externalDocs => do return { s with externalDocs := ← Decoder.present value }
  | .xml => do return { s with xml := ← Decoder.optional Xml.shape.decode value }

def readOptional : Value → Except DecodeError (Option Schema)
  | .null => .ok none
  | .object fields => do return some (← readKeys blank fields)
  | value => Decoder.mismatch value wanted

-- A flag or a schema; what is wrong with a schema in this place is not told.
def readExtras : Value → Except DecodeError (Option (Extras Schema))
  | .null => .ok none
  | .bool isOpen => .ok (some (.flag isOpen))
  | .object fields => match readKeys blank fields with
      | .ok s => .ok (some (.schema s))
      | .error _ => .error (.noMatch "AdditionalProperties")
  | _ => .error (.noMatch "AdditionalProperties")

def readOptionalList : Value → Except DecodeError (Option (List Schema))
  | .null => .ok none
  | .array items => do return some (← readItems items)
  | value => Decoder.mismatch value "a sequence"

def readItems : List Value → Except DecodeError (List Schema)
  | [] => .ok []
  | .object fields :: rest => do
      let head ← readKeys blank fields
      return head :: (← readItems rest)
  | value :: _ => Decoder.mismatch value wanted

def readProperties : Value → Except DecodeError (List (String × Schema))
  | .object fields => readNamed [] fields
  | value => Decoder.mismatch value "a map"

def readNamed (named : List (String × Schema)) :
    List (String × Value) → Except DecodeError (List (String × Schema))
  | [] => .ok named
  | (key, .object fields) :: rest => do
      let s ← readKeys blank fields
      readNamed (Entries.put key s named) rest
  | (_, value) :: _ => Decoder.mismatch value wanted
end

def decode : Decoder Schema
  | .object fields => readKeys blank fields
  | value => Decoder.mismatch value wanted

end Schema
end ApiModels
