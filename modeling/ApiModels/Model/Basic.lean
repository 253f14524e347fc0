import ApiModels.Model.Property
import ApiModels.Naming.Rules

namespace ApiModels

open Json

-- `allProperties` is the merged view of inherited and own properties; the lists and flags that tell of properties are
-- made from the views as a whole.
structure Model where
  name : String
  classname : String
  classVarName : String
  classFilename : String
  title : Option String := none
  description : Option String := none
  unescapedDescription : Option String := none
  deprecated : Bool := false
  externalDocs : Option Value := none
  xml : Option Xml := none
  vendorExtensions : SortedTable Value := SortedTable.empty
  modelJson : String := ""
  dataType : String := TypeTag.object.text
  aliasTargetType : Option TypeTag := none
  allowableValues : List Value := []
  additionalPropertiesType : Option String := none
  arrayModelType : Option String := none
  containerParent : Option String := none
  isAlias : Bool := false
  isEnum : Bool := false
  hasEnums : Bool := false
  isNullable : Bool := false
  isMapModel : Bool := false
  isArrayModel : Bool := false
  isAdditionalPropertiesTrue : Bool := false
  isNumeric : Bool := false
  hasVars : Bool := false
  hasRequired : Bool := false
  hasOptional : Bool := false
  hasOnlyReadOnly : Bool := true
  parentName : Option String := none
  collapsedParents : List String := []
  interfaces : List String := []
  unionMembers : List String := []
  ownProperties : List Property := []
  allProperties : List Property := []
  requiredNames : NameSet := NameSet.empty
  allRequiredNames : NameSet := NameSet.empty
  requiredVars : List Property := []
  optionalVars : List Property := []
  readOnlyVars : List Property := []
  readWriteVars : List Property := []
  imports : NameSet := NameSet.empty

namespace Model

def new (rules : NamingRules) (name : String) : Model :=
  let classname := rules.modelName name
  { name, classname, classVarName := rules.varName classname, classFilename := rules.modelFilename name }

instance : Inhabited Model := ⟨new NamingRules.defaults ""⟩

def addImport (m : Model) (name : String) : Model :=
  if name.isEmpty then m else { m with imports := m.imports.insert name }

def addImports (m : Model) (names : List String) : Model := names.foldl addImport m

def link (names : List String) (name : String) : List String := if name ∈ names then names else names ++ [name]

theorem mem_link (names : List String) (name other : String) :
    other ∈ link names name ↔ other = name ∨ other ∈ names := by
  unfold link
  split
  · rename_i known
    exact ⟨.inr, fun either => either.elim (fun eq => eq ▸ known) id⟩
  · simp [or_comm]

def addInterface (m : Model) (parent : String) : Model := { m with interfaces := link m.interfaces parent }

def addMember (m : Model) (child : String) : Model := { m with unionMembers := link m.unionMembers child }

def named (name : String) (properties : List Property) : Option Property :=
  properties.find? (·.baseName = name)

def property? (m : Model) (name : String) : Option Property := named name m.allProperties

def ownProperty? (m : Model) (name : String) : Option Property := named name m.ownProperties

def upsert (p : Property) : List Property → List Property
  | [] => [p]
  | head :: rest => if head.baseName = p.baseName then p :: rest else head :: upsert p rest

def upsertOwn (m : Model) (p : Property) : Model :=
  { m with allProperties := upsert p m.allProperties, ownProperties := upsert p m.ownProperties }

def appendUnlessNamed (merged : List Property) (p : Property) : List Property :=
  if (named p.baseName merged).isSome then merged else merged ++ [p]

-- Inherited properties come first; those the model defines itself are skipped.
def inherit (m : Model) (inherited : List Property) : Model :=
  let kept := inherited.filter fun p => (m.ownProperty? p.baseName).isNone
  { m with allProperties := m.allProperties.foldl appendUnlessNamed kept }

def dedupe (properties : List Property) : List Property :=
  properties.foldl (fun unique p => upsert p unique) []

-- The last definition of a name, in the place of the first.
def dedupeProperties (m : Model) : Model :=
  { m with ownProperties := dedupe m.ownProperties, allProperties := dedupe m.allProperties }

def requiredFirst (properties : List Property) : List Property :=
  properties.filter (·.required) ++ properties.filter (!·.required)

def sortRequiredFirst (m : Model) : Model :=
  { m with ownProperties := requiredFirst m.ownProperties, allProperties := requiredFirst m.allProperties }

def mark (required : NameSet) (p : Property) : Property := { p with required := p.baseName ∈ required }

def refresh (m : Model) : Model :=
  let own := m.ownProperties.map (mark m.allRequiredNames)
  let all := m.allProperties.map (mark m.allRequiredNames)
  let requiredVars := all.filter (·.required)
  let optionalVars := all.filter (!·.required)
  let readOnlyVars := all.filter (·.readOnly)
  let readWriteVars := all.filter (!·.readOnly)
  { m with
    ownProperties := own
    allProperties := all
    requiredVars := requiredVars
    optionalVars := optionalVars
    readOnlyVars := readOnlyVars
    readWriteVars := readWriteVars
    hasRequired := !requiredVars.isEmpty
    hasOptional := !optionalVars.isEmpty
    hasOnlyReadOnly := readWriteVars.isEmpty
    hasEnums := all.any (·.isEnum)
    hasVars := !own.isEmpty }

def properties (ps : List Property) : Value := .array (ps.map Property.toValue)

def toValue (m : Model) : Value :=
  .object (List.flatten [
    [("name", .string m.name), ("classname", .string m.classname),
      ("classVarName", .string m.classVarName), ("classFilename", .string m.classFilename)],
    optionalField "title" .string m.title,
    optionalField "description" .string m.description,
    optionalField "unescapedDescription" .string m.unescapedDescription,
    [("deprecated", .bool m.deprecated)],
    optionalField "externalDocs" id m.externalDocs,
    optionalField "xml" Xml.toValue m.xml,
    [("vendorExtensions", .object m.vendorExtensions.entries), ("modelJson", .string m.modelJson),
      ("dataType", .string m.dataType)],
    optionalField "aliasTargetType" (fun tag => .string tag.text) m.aliasTargetType,
    if m.allowableValues.isEmpty then [] else [("allowableValues", .array m.allowableValues)],
    optionalField "additionalPropertiesType" .string m.additionalPropertiesType,
    optionalField "arrayModelType" .string m.arrayModelType,
    optionalField "containerParent" .string m.containerParent,
    [("isAlias", .bool m.isAlias), ("isEnum", .bool m.isEnum), ("hasEnums", .bool m.hasEnums),
      ("isNullable", .bool m.isNullable), ("isMapModel", .bool m.isMapModel),
      ("isArrayModel", .bool m.isArrayModel),
      ("isAdditionalPropertiesTrue", .bool m.isAdditionalPropertiesTrue), ("isNumeric", .bool m.isNumeric),
      ("hasVars", .bool m.hasVars), ("hasRequired", .bool m.hasRequired), ("hasOptional", .bool m.hasOptional),
      ("hasOnlyReadOnly", .bool m.hasOnlyReadOnly)],
    optionalField "parentName" .string m.parentName,
    if m.collapsedParents.isEmpty then [] else [("collapsedParents", Value.ofStrings m.collapsedParents)],
    [("interfaces", Value.ofStrings m.interfaces), ("unionMembers", Value.ofStrings m.unionMembers),
      ("ownProperties", properties m.ownProperties), ("allProperties", properties m.allProperties),
      ("requiredNames", Value.ofStrings m.requiredNames.toList),
      ("allRequiredNames", Value.ofStrings m.allRequiredNames.toList),
      ("requiredVars", properties m.requiredVars), ("optionalVars", properties m.optionalVars),
      ("readOnlyVars", properties m.readOnlyVars), ("readWriteVars", properties m.readWriteVars),
      ("imports", Value.ofStrings m.imports.toList)]])

end Model
end ApiModels
