import ApiModels.Document.Inheritance
import ApiModels.Document.Unalias
import ApiModels.Model.Cache
import ApiModels.Model.Diagnostics
import ApiModels.Settings.Generator

namespace ApiModels

structure Project where
  document : Document
  settings : GeneratorSettings
  inheritance : Inheritance
  aliases : AliasTable

def Project.of (settings : GeneratorSettings) (document : Document) : Project where
  document := document
  settings := settings
  inheritance := Inheritance.ofDocument document
  aliases := document.aliases settings.typeMappings

def Project.naming (project : Project) : NamingRules := project.settings.naming

structure Session where
  cache : Cache := {}
  diagnostics : Diagnostics := {}

abbrev Resolution := EStateM ModelError Session

def RefIssue.toError (schema : String) : RefIssue → ModelError
  | .missing name => .unresolvedReference schema name
  | .cycle chain => .cyclicReference schema chain

namespace Resolution

def ofExcept {α : Type} : Except ModelError α → Resolution α
  | .ok value => pure value
  | .error error => throw error

def push (item : Diagnostic) : Resolution Unit :=
  modify fun session => { session with diagnostics := session.diagnostics.push item }

def report (schema : String) (code : DiagnosticCode) (message : String) : Resolution Unit :=
  push (Diagnostic.new schema code message)

def reportNote (subject : String) (note : Option InferenceNote) : Resolution Unit :=
  note.forM fun note => push (Diagnostic.ofNote subject note)

def publish (model : Model) : Resolution Unit :=
  modify fun session => { session with cache := session.cache.publish model }

def registerInterface (project : Project) (child parent : String) : Resolution Unit :=
  modify fun session =>
    { session with cache := session.cache.registerInterface child parent (project.naming.modelName parent) }

def infer (project : Project) (subject : String) (s : Schema) : Resolution TypeTag := do
  let inference := s.infer project.settings.typeMappings
  reportNote subject inference.note
  return inference.tag

def unalias (project : Project) (owner : String) (s : Schema) : Resolution Schema :=
  ofExcept ((project.document.unalias s).mapError (RefIssue.toError owner))

-- The name of a type in the signature of a model: the class name of a referenced model, or the
-- inferred tag.
def typeName (project : Project) (owner : String) (s : Schema) : Resolution String := do
  if s.refName? = some owner then return project.naming.modelName owner
  let target ← unalias project owner s
  match target.refName? with
  | some name => return project.naming.modelName name
  | none => return (← infer project owner target).text

end Resolution
end ApiModels
