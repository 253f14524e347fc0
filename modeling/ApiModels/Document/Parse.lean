import ApiModels.Document.Basic

namespace ApiModels

open Json

inductive LoadError where
  | unreadable (path : String) (reason : String)
  | notJson (path : String)
  | invalidSchema (path : String) (cause : DecodeError)
  | invalidTable (cause : DecodeError)
  | invalidInfo (cause : DecodeError)
  | invalidOperation (method path : String) (cause : DecodeError)
  deriving DecidableEq

def LoadError.message : LoadError → String
  | .unreadable path reason => "Failed to read " ++ path ++ ": " ++ reason
  | .notJson path => "Failed to parse JSON in " ++ path
  | .invalidSchema path cause => "Invalid schema in " ++ path ++ ": " ++ cause.message
  | .invalidTable cause => "Invalid schema table: " ++ cause.message
  | .invalidInfo cause => "Invalid info object: " ++ cause.message
  | .invalidOperation method path cause =>
      "Invalid operation " ++ method ++ " " ++ path ++ ": " ++ cause.message

def SchemaTable.decode : Decoder SchemaTable := Decoder.table Schema.decode

namespace DocumentInfo

def shape : Shape DocumentInfo where
  name := "DocumentInfo"
  initial := {}
  fields := [
    .defaulted "title" (Decoder.optional .string) (fun info title => { info with title }),
    .defaulted "version" (Decoder.optional .string) (fun info version => { info with version })]

def toValue (info : DocumentInfo) : Value :=
  .object (optionalField "title" .string info.title ++ optionalField "version" .string info.version)

end DocumentInfo

namespace Operation

def shape : Shape Operation where
  name := "OperationDef"
  initial := {}
  fields := [
    .mandatory "path" .string (fun o path => { o with path }),
    .mandatory "method" .string (fun o method => { o with method }),
    .nullable "operation_id" .string (fun o operationId => { o with operationId }),
    .defaulted "tags" .strings (fun o tags => { o with tags }),
    .nullable "summary" .string (fun o summary => { o with summary }),
    .nullable "description" .string (fun o description => { o with description }),
    .defaulted "deprecated" .bool (fun o deprecated => { o with deprecated }),
    .defaulted "extensions" (.sortedTable .ok) (fun o extensions => { o with extensions })]

def toValue (o : Operation) : Value :=
  .object [("path", .string o.path), ("method", .string o.method),
    ("operation_id", Value.ofOption o.operationId), ("tags", Value.ofStrings o.tags),
    ("summary", Value.ofOption o.summary), ("description", Value.ofOption o.description),
    ("deprecated", .bool o.deprecated), ("extensions", .object o.extensions.entries)]

def declaredFields : List (RecordField Operation) := [
  .defaulted "operationId" (Decoder.optional .string) (fun o operationId => { o with operationId }),
  .defaulted "tags" .strings (fun o tags => { o with tags }),
  .defaulted "summary" (Decoder.optional .string) (fun o summary => { o with summary }),
  .defaulted "description" (Decoder.optional .string) (fun o description => { o with description }),
  .defaulted "deprecated" .bool (fun o deprecated => { o with deprecated })]

def ofDeclaration (method path : String) : Decoder Operation
  | .object entries =>
      let start : Operation :=
        { method, path, extensions := SortedTable.ofList (entries.filter fun entry => isExtension entry.1) }
      Shape.ofObject ⟨"RawOperation", start, declaredFields⟩ entries
  | value => Decoder.mismatch value "struct RawOperation"

end Operation

namespace Document

def methods : List String := ["get", "put", "post", "delete", "options", "head", "patch", "trace"]

def pathOperations (path : String) (item : Value) : Except LoadError (List Operation) :=
  (methods.filterMap fun method => (item.field? method).map fun declared => (method, declared)).mapM
    fun (method, declared) =>
      let shownMethod := method.toUpper
      (Operation.ofDeclaration shownMethod path declared).mapError (.invalidOperation shownMethod path)

def readOperations (value : Value) : Except LoadError (List Operation) :=
  match (value.field? "paths").bind Value.asObject? with
  | none => .ok []
  | some paths => (paths.mapM fun (path, item) => pathOperations path item).map List.flatten

-- The table stands under `components.schemas` or, failing that, under `definitions`.
def schemaTableOf (value : Value) : Value :=
  (((value.field? "components").bind (·.field? "schemas")).or (value.field? "definitions")).getD (.object [])

def parse (value : Value) : Except LoadError Document := do
  let schemas ← (SchemaTable.decode (schemaTableOf value)).mapError .invalidTable
  let info ← match value.field? "info" with
    | some info => (DocumentInfo.shape.decode info).mapError .invalidInfo
    | none => .ok {}
  let operations ← readOperations value
  return { ofSchemas schemas with info, operations }

def isApiDocument (value : Value) : Bool :=
  (value.field? "openapi").isSome || (value.field? "swagger").isSome

end Document
end ApiModels
