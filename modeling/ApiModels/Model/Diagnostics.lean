import ApiModels.Model.Error
import ApiModels.Json.Decode
import ApiModels.Types.Inference

namespace ApiModels

open Json

inductive Severity where
  | warning | error
  deriving DecidableEq

def Severity.text : Severity → String
  | .warning => "warning"
  | .error => "error"

inductive DiagnosticCode where
  | unresolvedReference | cyclicReference | cyclicInheritance | dependencyFailed
  | contradictoryNullability | unknownFormat | unknownType | undeclaredRequired | aliasPropertiesIgnored
  | unsupportedComposition | ignoredAnyOf | mixedOneOfProperties | collapsedInheritance
  | unionLinkMismatch
  deriving DecidableEq

namespace DiagnosticCode

def name : DiagnosticCode → String
  | .unresolvedReference => "UnresolvedReference"
  | .cyclicReference => "CyclicReference"
  | .cyclicInheritance => "CyclicInheritance"
  | .dependencyFailed => "DependencyFailed"
  | .contradictoryNullability => "ContradictoryNullability"
  | .unknownFormat => "UnknownFormat"
  | .unknownType => "UnknownType"
  | .undeclaredRequired => "UndeclaredRequired"
  | .aliasPropertiesIgnored => "AliasPropertiesIgnored"
  | .unsupportedComposition => "UnsupportedComposition"
  | .ignoredAnyOf => "IgnoredAnyOf"
  | .mixedOneOfProperties => "MixedOneOfProperties"
  | .collapsedInheritance => "CollapsedInheritance"
  | .unionLinkMismatch => "UnionLinkMismatch"

def all : List DiagnosticCode :=
  [.unresolvedReference, .cyclicReference, .cyclicInheritance, .dependencyFailed,
   .contradictoryNullability, .unknownFormat, .unknownType, .undeclaredRequired, .aliasPropertiesIgnored,
   .unsupportedComposition, .ignoredAnyOf, .mixedOneOfProperties, .collapsedInheritance, .unionLinkMismatch]

def text : DiagnosticCode → String
  | .unresolvedReference => "E001"
  | .cyclicReference => "E002"
  | .cyclicInheritance => "E003"
  | .dependencyFailed => "E004"
  | .unionLinkMismatch => "E005"
  | .unsupportedComposition => "W001"
  | .unknownFormat => "W002"
  | .unknownType => "W003"
  | .mixedOneOfProperties => "W004"
  | .collapsedInheritance => "W005"
  | .ignoredAnyOf => "W006"
  | .undeclaredRequired => "W007"
  | .aliasPropertiesIgnored => "W008"
  | .contradictoryNullability => "W009"

def severity : DiagnosticCode → Severity
  | .unresolvedReference => .error
  | .cyclicReference => .error
  | .cyclicInheritance => .error
  | .dependencyFailed => .error
  | .unionLinkMismatch => .error
  | _ => .warning

def ofError : ModelError → DiagnosticCode
  | .cyclicReference .. => .cyclicReference
  | .cyclicInheritance .. => .cyclicInheritance
  | .dependencyFailed .. => .dependencyFailed
  | _ => .unresolvedReference

def ofNote : InferenceNote → DiagnosticCode
  | .unknownFormat _ => .unknownFormat
  | .unknownType _ => .unknownType

def decode : Decoder DiagnosticCode := Decoder.alternative (all.map fun code => (code.name, code))

end DiagnosticCode

structure Diagnostic where
  schema : String
  code : DiagnosticCode
  severity : Severity
  message : String
  context : List String := []
  deriving DecidableEq

namespace Diagnostic

def new (schema : String) (code : DiagnosticCode) (message : String) : Diagnostic :=
  { schema, code, severity := code.severity, message }

def errorContext : ModelError → List String
  | .cyclicReference _ chain => ["Chain: " ++ ModelError.arrows chain]
  | .cyclicInheritance _ cycle => ["Cycle: " ++ ModelError.arrows cycle]
  | _ => []

def ofError (schema : String) (error : ModelError) : Diagnostic :=
  { new schema (DiagnosticCode.ofError error) error.message with context := errorContext error }

def ofNote (schema : String) (note : InferenceNote) : Diagnostic :=
  new schema (DiagnosticCode.ofNote note) note.message

def text (item : Diagnostic) : String :=
  "[" ++ item.code.text ++ "] " ++ item.severity.text ++ ": " ++ item.message ++ " (" ++ item.schema ++ ")"
    ++ String.join (item.context.map fun line => "\n  - " ++ line)

def shape : Shape Diagnostic where
  name := "DiagnosticItem"
  initial := new "" .unresolvedReference ""
  fields := [
    .mandatory "schema" .string (fun item schema => { item with schema }),
    .mandatory "code" DiagnosticCode.decode (fun item code => { item with code }),
    .mandatory "severity" (Decoder.alternative [("warning", .warning), ("error", .error)])
      (fun item severity => { item with severity }),
    .mandatory "message" .string (fun item message => { item with message }),
    .defaulted "context" .strings (fun item context => { item with context })]

def toValue (item : Diagnostic) : Value :=
  .object ([("schema", .string item.schema), ("code", .string item.code.name),
      ("severity", .string item.severity.text), ("message", .string item.message)]
    ++ if item.context.isEmpty then [] else [("context", Value.ofStrings item.context)])

end Diagnostic

structure Diagnostics where
  items : List Diagnostic := []

namespace Diagnostics

def push (d : Diagnostics) (item : Diagnostic) : Diagnostics := ⟨d.items ++ [item]⟩

def report (d : Diagnostics) (schema : String) (code : DiagnosticCode) (message : String) : Diagnostics :=
  d.push (Diagnostic.new schema code message)

def failure (d : Diagnostics) (schema : String) (error : ModelError) : Diagnostics :=
  d.push (Diagnostic.ofError schema error)

def errors (d : Diagnostics) : List Diagnostic := d.items.filter (·.severity = .error)

def warnings (d : Diagnostics) : List Diagnostic := d.items.filter (·.severity = .warning)

def hasErrors (d : Diagnostics) : Bool := !d.errors.isEmpty

def forSchema (d : Diagnostics) (schema : String) : List Diagnostic := d.items.filter (·.schema = schema)

def hasCode (d : Diagnostics) (schema : String) (code : DiagnosticCode) : Bool :=
  (d.forSchema schema).any (·.code = code)

def tally (d : Diagnostics) : String :=
  Nat.repr d.errors.length ++ " error(s), " ++ Nat.repr d.warnings.length ++ " warning(s)"

def text (d : Diagnostics) : String :=
  String.join (d.items.map fun item => item.text ++ "\n")
    ++ if d.items.isEmpty then "" else "\n" ++ d.tally ++ "\n"

def itemsValue (d : Diagnostics) : Value := .array (d.items.map Diagnostic.toValue)

end Diagnostics
end ApiModels
