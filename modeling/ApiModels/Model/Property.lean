import ApiModels.Schema.Encode
import ApiModels.Types.Tag

namespace ApiModels

open Json

-- A container property is a chain of levels: the property itself, its items, the items of these, and so on.
structure Level where
  baseName : String
  name : String
  varName : String
  typeTag : TypeTag
  dataType : String
  complexType : Option String := none
  containerType : Option ContainerKind := none
  isContainer : Bool := false
  required : Bool := false
  readOnly : Bool := false
  nullable : Bool := false
  isEnum : Bool := false
  enumValues : List Value := []
  enumName : Option String := none
  description : Option String := none
  imports : NameSet := NameSet.empty
  vendorExtensions : SortedTable Value := SortedTable.empty

structure Property extends Level where
  -- The levels inside, outermost first.
  inner : List Level := []

namespace Property

def levels (p : Property) : List Level := p.toLevel :: p.inner

def innermost (p : Property) : Level := p.inner.getLastD p.toLevel

def items? (p : Property) : Option Property :=
  match p.inner with
  | [] => none
  | first :: rest => some { first with inner := rest }

def wrap (level : Level) (p : Property) : Property := { level with inner := p.levels }

end Property

def Level.toValue (l : Level) (items : Option Value) : Value :=
  .object (List.flatten [
    [("baseName", .string l.baseName), ("name", .string l.name), ("varName", .string l.varName),
      ("typeTag", .string l.typeTag.text), ("dataType", .string l.dataType)],
    optionalField "complexType" .string l.complexType,
    optionalField "containerType" (fun kind => .string kind.text) l.containerType,
    [("isContainer", .bool l.isContainer)],
    optionalField "items" id items,
    [("required", .bool l.required), ("readOnly", .bool l.readOnly), ("nullable", .bool l.nullable),
      ("isEnum", .bool l.isEnum)],
    if l.enumValues.isEmpty then [] else [("enumValues", .array l.enumValues)],
    optionalField "enumName" .string l.enumName,
    optionalField "description" .string l.description,
    [("imports", Value.ofStrings l.imports.toList)],
    if l.vendorExtensions.entries.isEmpty then [] else [("vendorExtensions", .object l.vendorExtensions.entries)]])

def Level.chainValue (l : Level) : List Level → Value
  | [] => l.toValue none
  | next :: rest => l.toValue (some (next.chainValue rest))

def Property.toValue (p : Property) : Value := p.toLevel.chainValue p.inner

end ApiModels
