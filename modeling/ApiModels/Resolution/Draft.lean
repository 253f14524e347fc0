import ApiModels.Resolution.Levels

namespace ApiModels

-- What has been done to the draft stays done when a later step fails.
structure Draft where
  session : Session
  model : Model

abbrev Drafting := EStateM ModelError Draft

abbrev Resolver := String → Schema → Resolution Model

namespace Drafting

def ofResolution {α : Type} (action : Resolution α) : Drafting α := fun draft =>
  match action draft.session with
  | .ok value session => .ok value { draft with session }
  | .error error session => .error error { draft with session }

def edit (change : Model → Model) : Drafting Unit :=
  modify fun draft => { draft with model := change draft.model }

def model : Drafting Model := return (← get).model

def report (code : DiagnosticCode) (message : String) : Drafting Unit := do
  ofResolution (Resolution.report (← model).name code message)

def publish : Drafting Unit := do ofResolution (Resolution.publish (← model))

end Drafting

namespace Model

def declare (m : Model) (p : Property) : Model :=
  { m with imports := m.imports.union p.imports }.upsertOwn p

def requireName (m : Model) (name : String) : Model :=
  { m with
    requiredNames := m.requiredNames.insert name
    allRequiredNames := m.allRequiredNames.insert name }

def instantiations (settings : GeneratorSettings) (p : Property) : List String :=
  p.levels.filterMap fun level => level.containerType.bind fun kind => settings.instantiationType? kind.text

-- A union parent leaves the instantiation of containers to its arms.
def propertyImports (settings : GeneratorSettings) (m : Model) (p : Property) : List String :=
  p.imports.toList ++ if p.isContainer && m.unionMembers.isEmpty then instantiations settings p else []

def collectImports (settings : GeneratorSettings) (m : Model) : Model :=
  m.addImports ((m.ownProperties ++ m.allProperties).flatMap (propertyImports settings m))

end Model

namespace Drafting

def declareProperty (project : Project) (name : String) (s : Schema) : Drafting Unit := do
  let p ← ofResolution (Resolution.property project (← model).name name s)
  edit (·.declare p)

def declareRequired (name : String) : Drafting Unit := do
  if ((← model).property? name).isSome then edit (·.requireName name)
  else report .undeclaredRequired ("Required property '" ++ name ++ "' is not declared")

def declare (project : Project) (properties : List (String × Schema)) (required : List String) :
    Drafting Unit := do
  properties.forM fun (name, s) => declareProperty project name s
  required.forM declareRequired
  edit Model.refresh

end Drafting
end ApiModels
