import ApiModels.Document.Parse
import ApiModels.Settings.Generator

namespace ApiModels

open Json Naming

inductive ArtifactKind where
  | interface | implementation | mock
  deriving DecidableEq

def ArtifactKind.all : List ArtifactKind := [.interface, .implementation, .mock]

structure Artifacts where
  interface : String
  implementation : String
  mock : String
  deriving DecidableEq

namespace Artifacts

def ofTag (rules : NamingRules) (tag : String) : Artifacts :=
  let stem := rules.apiFilename tag
  ⟨stem, stem ++ "Impl", stem ++ "Mock"⟩

def stem (artifacts : Artifacts) : ArtifactKind → String
  | .interface => artifacts.interface
  | .implementation => artifacts.implementation
  | .mock => artifacts.mock

def relativePath (artifacts : Artifacts) (kind : ArtifactKind) : String :=
  match kind with
  | .interface => artifacts.interface
  | _ => "impl/" ++ artifacts.stem kind

def toValue (artifacts : Artifacts) : Value :=
  .object [("interface", .string artifacts.interface), ("implementation", .string artifacts.implementation),
    ("mock", .string artifacts.mock)]

end Artifacts

structure MappedOperation where
  operationId : String
  nickname : String
  httpMethod : String
  path : String
  tag : String
  tags : List String
  summary : Option String
  notes : Option String
  deprecated : Bool
  imports : NameSet
  vendorExtensions : SortedTable Value

structure HandlerGroup where
  tag : String
  apiName : String
  artifacts : Artifacts
  operations : List MappedOperation
  imports : NameSet

namespace MappedOperation

def requiredImports : List String := ["JsonObject", "RoutingContext", "RequestParameters"]

def defaultTag : String := "default"

-- `GET /pets/{petId}` becomes `petsPetIdGet`.
def derivedId (path method : String) : String :=
  let words := path.toList.filter (fun c => c ≠ '\x7b' && c ≠ '\x7d')
  camelizeLower (String.ofList words ++ " " ++ Text.lowercase method)

def isGet (method : String) : Bool := method.toLower = "get"

def parentImport? (settings : GeneratorSettings) : Option String :=
  if settings.parentHandlerImport.isEmpty then settings.importMappings.get? settings.parentHandlerClass
  else some settings.parentHandlerImport

def extensionsOf (settings : GeneratorSettings) (o : Operation) : SortedTable Value :=
  let marked := if isGet o.method then o.extensions.insert "x-codegen-isget" (.bool true) else o.extensions
  (marked.insert "x-codegen-parent-class" (.string settings.parentHandlerClass)).insert
    "x-codegen-parent-import" (Value.ofOption (parentImport? settings))

def ofOperation (settings : GeneratorSettings) (o : Operation) : MappedOperation :=
  let id := o.operationId.getD (derivedId o.path o.method)
  let tags := if o.tags.isEmpty then [defaultTag] else o.tags
  { operationId := Naming.operationId id
    nickname := camelizeLower (sanitize id)
    httpMethod := Text.uppercase o.method
    path := o.path
    tag := tags.headD defaultTag
    tags := tags
    summary := o.summary
    notes := o.description
    deprecated := o.deprecated
    imports := (NameSet.ofList requiredImports).insertAll settings.extraOperationImports
    vendorExtensions := extensionsOf settings o }

def toValue (m : MappedOperation) : Value :=
  .object (List.flatten [
    [("operationId", .string m.operationId), ("nickname", .string m.nickname),
      ("httpMethod", .string m.httpMethod), ("path", .string m.path), ("tag", .string m.tag),
      ("tags", Value.ofStrings m.tags)],
    optionalField "summary" .string m.summary,
    optionalField "notes" .string m.notes,
    [("deprecated", .bool m.deprecated), ("imports", Value.ofStrings m.imports.toList),
      ("vendorExtensions", .object m.vendorExtensions.entries)]])

end MappedOperation

namespace HandlerGroup

def empty (rules : NamingRules) (tag : String) : HandlerGroup :=
  ⟨tag, rules.apiName tag, Artifacts.ofTag rules tag, [], NameSet.empty⟩

def accept (group : HandlerGroup) (m : MappedOperation) : HandlerGroup :=
  { group with
    imports := group.imports.union m.imports
    operations := group.operations ++ [{ m with tag := group.tag }] }

def place (rules : NamingRules) (m : MappedOperation) (tag : String) : List HandlerGroup → List HandlerGroup
  | [] => [(empty rules tag).accept m]
  | group :: rest =>
      if group.tag = tag then group.accept m :: rest else group :: place rules m tag rest

def placeAll (rules : NamingRules) (groups : List HandlerGroup) (m : MappedOperation) : List HandlerGroup :=
  m.tags.foldl (fun groups tag => place rules m tag groups) groups

def toValue (group : HandlerGroup) : Value :=
  .object [("tag", .string group.tag), ("apiName", .string group.apiName),
    ("artifacts", group.artifacts.toValue),
    ("operations", .array (group.operations.map MappedOperation.toValue)),
    ("imports", Value.ofStrings group.imports.toList)]

end HandlerGroup

-- All operations in order, and their groups in the order in which the tags first appear. The handlers are named by
-- the rules of the settings unless others are given.
def mapOperations (settings : GeneratorSettings) (operations : List Operation)
    (rules : NamingRules := settings.naming) : List MappedOperation × List HandlerGroup :=
  let mapped := operations.map (MappedOperation.ofOperation settings)
  (mapped, mapped.foldl (HandlerGroup.placeAll rules) [])

end ApiModels
