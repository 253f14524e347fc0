import ApiModels.Json.Decode
import ApiModels.Naming.Rules

namespace ApiModels

structure GeneratorSettings where
  sortByRequired : Bool
  modelImports : List String
  converterSuffix : String
  extraOperationImports : List String
  parentHandlerClass : String
  parentHandlerImport : String
  typeMappings : SortedTable String
  importMappings : SortedTable String
  instantiationTypes : SortedTable String
  naming : NamingRules

namespace GeneratorSettings

def defaults : GeneratorSettings where
  sortByRequired := true
  modelImports := ["DataObject", "Objects", "JsonObject"]
  converterSuffix := "Converter"
  extraOperationImports := []
  parentHandlerClass := "ParentHandlerClass"
  parentHandlerImport := ""
  typeMappings := SortedTable.empty
  importMappings := SortedTable.ofList
    [("BigDecimal", "java.math.BigDecimal"),
     ("UUID", "java.util.UUID"),
     ("URI", "java.net.URI"),
     ("date", "java.time.LocalDate"),
     ("date-time", "java.time.OffsetDateTime"),
     ("file", "java.io.File"),
     ("binary", "java.io.File"),
     ("ArrayList", "java.util.ArrayList"),
     ("LinkedHashSet", "java.util.LinkedHashSet"),
     ("HashMap", "java.util.HashMap"),
     ("Objects", "java.util.Objects"),
     ("DataObject", "io.vertx.codegen.annotations.DataObject"),
     ("JsonObject", "io.vertx.core.json.JsonObject"),
     ("RoutingContext", "io.vertx.ext.web.RoutingContext"),
     ("RequestParameters", "io.vertx.ext.web.api.RequestParameters")]
  instantiationTypes := SortedTable.ofList [("array", "ArrayList"), ("set", "LinkedHashSet"), ("map", "HashMap")]
  naming := NamingRules.defaults

instance : Inhabited GeneratorSettings := ⟨defaults⟩

def instantiationType? (settings : GeneratorSettings) (container : String) : Option String :=
  settings.instantiationTypes.get? container

def needsImport (settings : GeneratorSettings) (type : String) : Bool :=
  !type.isEmpty && settings.importMappings.contains type

end GeneratorSettings

open Json

-- How strictly texts and flags are read. JSON is read as it is; settings from files and from
-- the environment may write a flag as a text and a text as a number.
structure Scalars where
  text : Decoder String
  path : Decoder String
  flag : Decoder Bool
  lenient : Bool

namespace Scalars

def strict : Scalars := ⟨Decoder.string, Decoder.string "path string", Decoder.bool, false⟩

def trueTexts : List String := ["1", "true", "on", "yes"]

def falseTexts : List String := ["0", "false", "off", "no"]

def isZero : Number → Bool
  | .integer value => value = 0
  | .real value => value.isZero
  | _ => false

def looseText : Decoder String
  | .bool true => .ok "true"
  | .bool false => .ok "false"
  | .number (.integer value) => .ok (Number.integerText value)
  | .number (.real value) => .ok (Decimal.bareText value)
  | .number (.infinite negative) => .ok (if negative then "-inf" else "inf")
  | .number .undefined => .ok "NaN"
  | value => Decoder.string "a string" value

def looseFlag : Decoder Bool
  | .number number => .ok (!isZero number)
  | .string text =>
      let lowered := Text.lowercase text
      if lowered ∈ trueTexts then .ok true
      else if lowered ∈ falseTexts then .ok false
      else Decoder.bool (.string text)
  | value => Decoder.bool value

def loose : Scalars := ⟨looseText, looseText, looseFlag, true⟩

def record {σ : Type} (scalars : Scalars) (shape : Shape σ) : Decoder σ
  | .array items => shape.decode (.array (if scalars.lenient then items.take shape.fields.length else items))
  | value => shape.decode value

end Scalars

namespace NamingRules

def shape (scalars : Scalars) : Shape NamingRules where
  name := "NamingConfig"
  initial := defaults
  fields := [
    .defaulted "model_name_prefix" scalars.text (fun r modelPrefix => { r with modelPrefix }),
    .defaulted "model_name_suffix" scalars.text (fun r modelSuffix => { r with modelSuffix }),
    .defaulted "reserved_words" (.nameSet scalars.text) (fun r reservedWords => { r with reservedWords }),
    .defaulted "default_api_name" scalars.text (fun r defaultApiName => { r with defaultApiName }),
    .defaulted "api_suffix" scalars.text (fun r apiSuffix => { r with apiSuffix })]

def toValue (r : NamingRules) : Value :=
  .object [("model_name_prefix", .string r.modelPrefix), ("model_name_suffix", .string r.modelSuffix),
    ("reserved_words", Value.ofStrings r.reservedWords.toList),
    ("default_api_name", .string r.defaultApiName), ("api_suffix", .string r.apiSuffix)]

end NamingRules

namespace GeneratorSettings

def shape (scalars : Scalars) : Shape GeneratorSettings where
  name := "CodegenConfig"
  initial := defaults
  fields := [
    .defaulted "sort_params_by_required" scalars.flag (fun g sortByRequired => { g with sortByRequired }),
    .defaulted "model_imports" (.list scalars.text) (fun g modelImports => { g with modelImports }),
    .defaulted "converter_suffix" scalars.text (fun g converterSuffix => { g with converterSuffix }),
    .defaulted "extra_operation_imports" (.list scalars.text)
      (fun g extraOperationImports => { g with extraOperationImports }),
    .defaulted "parent_handler_class" scalars.text (fun g parentHandlerClass => { g with parentHandlerClass }),
    .defaulted "parent_handler_import" scalars.text
      (fun g parentHandlerImport => { g with parentHandlerImport }),
    .defaulted "type_mappings" (.sortedTable scalars.text) (fun g typeMappings => { g with typeMappings }),
    .defaulted "import_mappings" (.sortedTable scalars.text) (fun g importMappings => { g with importMappings }),
    .defaulted "instantiation_types" (.sortedTable scalars.text)
      (fun g instantiationTypes => { g with instantiationTypes }),
    .defaulted "naming" (scalars.record (NamingRules.shape scalars)) (fun g naming => { g with naming })]

end GeneratorSettings

def SortedTable.toValue (table : SortedTable String) : Value :=
  .object (table.entries.map fun (key, text) => (key, .string text))

def GeneratorSettings.toValue (g : GeneratorSettings) : Value :=
  .object [("sort_params_by_required", .bool g.sortByRequired),
    ("model_imports", Value.ofStrings g.modelImports),
    ("converter_suffix", .string g.converterSuffix),
    ("extra_operation_imports", Value.ofStrings g.extraOperationImports),
    ("parent_handler_class", .string g.parentHandlerClass),
    ("parent_handler_import", .string g.parentHandlerImport),
    ("type_mappings", g.typeMappings.toValue),
    ("import_mappings", g.importMappings.toValue),
    ("instantiation_types", g.instantiationTypes.toValue),
    ("naming", g.naming.toValue)]

end ApiModels
