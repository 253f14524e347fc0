import ApiModels.Handlers.Mapping
import ApiModels.Resolution.Resolve

namespace ApiModels

open Json

namespace Cache

def memberIssue? (cache : Cache) (m : Model) (member : String) : Option Diagnostic :=
  (cache.get? member).bind fun child =>
    if m.name ∈ child.interfaces then none
    else some (Diagnostic.new m.name .unionLinkMismatch
      ("Union member '" ++ member ++ "' does not implement '" ++ m.name ++ "'"))

def interfaceIssue? (cache : Cache) (m : Model) (interface : String) : Option Diagnostic :=
  (cache.get? interface).bind fun parent =>
    if m.name ∈ parent.unionMembers then none
    else some (Diagnostic.new m.name .unionLinkMismatch
      ("'" ++ m.name ++ "' implements '" ++ interface ++ "' but is not one of its members"))

def parentIssue? (cache : Cache) (m : Model) : Option Diagnostic :=
  m.parentName.bind fun parent =>
    if (cache.get? parent).isSome then none
    else some (Diagnostic.new m.name .unresolvedReference ("Parent '" ++ parent ++ "' was not built in this run"))

def modelIssues (cache : Cache) (m : Model) : List Diagnostic :=
  m.unionMembers.filterMap (cache.memberIssue? m) ++ m.interfaces.filterMap (cache.interfaceIssue? m)
    ++ (cache.parentIssue? m).toList

def issues (cache : Cache) : List Diagnostic := cache.models.flatMap cache.modelIssues

end Cache

def Session.check (session : Session) : Session :=
  { session with diagnostics := session.cache.issues.foldl Diagnostics.push session.diagnostics }

structure Report where
  title : Option String
  version : Option String
  models : List Model
  failures : List (String × ModelError)
  operations : List MappedOperation
  groups : List HandlerGroup
  aliases : AliasTable
  diagnostics : Diagnostics
  fingerprint : String
  importMappings : SortedTable String

namespace Project

-- A failure is kept in the session; the next name is resolved all the same.
def resolveInto (project : Project) (session : Session) (name : String) : Session :=
  match project.resolve name session with
  | .ok _ session => session
  | .error _ session => session

def resolveAll (project : Project) : Session := project.document.names.foldl project.resolveInto {}

def run (project : Project) : Report :=
  let session := project.resolveAll.check
  let (operations, groups) := mapOperations project.settings project.document.operations
  { title := project.document.info.title
    version := project.document.info.version
    models := session.cache.models
    failures := session.cache.failures
    operations := operations
    groups := groups
    aliases := project.aliases
    diagnostics := session.diagnostics
    fingerprint := project.document.fingerprint
    importMappings := project.settings.importMappings }

end Project

namespace Report

def isClean (report : Report) : Bool := report.failures.isEmpty && !report.diagnostics.hasErrors

def aliasesValue (aliases : AliasTable) : Value :=
  .object (aliases.entries.map fun (name, tag) => (name, .string tag.text))

def failureValue (failure : String × ModelError) : Value :=
  .object [("schema", .string failure.1), ("message", .string failure.2.message)]

def toValue (report : Report) (generatedAt : String) : Value :=
  .object (List.flatten [
    optionalField "title" .string report.title,
    optionalField "version" .string report.version,
    [("models", .array (report.models.map Model.toValue)),
      ("failures", .array (report.failures.map failureValue)),
      ("operations", .array (report.operations.map MappedOperation.toValue)),
      ("apiGroups", .array (report.groups.map HandlerGroup.toValue)),
      ("aliases", aliasesValue report.aliases),
      ("diagnostics", .object [("items", report.diagnostics.itemsValue)]),
      ("fingerprint", .string report.fingerprint),
      ("generatedAt", .string generatedAt),
      ("importMappings", report.importMappings.toValue)]])

end Report
end ApiModels
