import ApiModels.Resolution.Links

namespace ApiModels

namespace Schema

-- How deep inline oneOf arms are nested, the schema itself counted.
mutual
def armDepth : Schema → Nat
  | { oneOf, .. } => armDepthOfList oneOf + 1

def armDepthOfList : Option (List Schema) → Nat
  | none => 0
  | some arms => greatestArmDepth arms

def greatestArmDepth : List Schema → Nat
  | [] => 0
  | arm :: rest => max arm.armDepth (greatestArmDepth rest)
end

end Schema

namespace Model

def describe (m : Model) (written target : Schema) : Model :=
  let description := written.description.or target.description
  { m with
    title := (written.title.or target.title).map Naming.escapeText
    description := description.map Naming.escapeText
    unescapedDescription := description
    deprecated := (written.deprecated.or target.deprecated) = some true
    externalDocs := written.externalDocs.or target.externalDocs
    xml := written.xml.or target.xml
    vendorExtensions := target.extensions.insertAll written.extensions.entries
    modelJson := written.prettyText }

def setType (m : Model) (project : Project) (target : Schema) (tag : TypeTag) : Model :=
  let listed := project.aliases.get? m.name
  let isAlias := listed.isSome || target.isAliasEligible
  { m with
    dataType := (target.refName?.map project.naming.modelName).getD tag.text
    isNumeric := tag.isNumeric
    isEnum := target.hasEnum
    allowableValues := target.enumList
    isAlias := isAlias
    aliasTargetType := if isAlias then some (listed.getD tag) else none }

def isContradictory (target : Schema) : Bool := target.isAny && target.nullable = some false

def setNullable (m : Model) (written target : Schema) : Model :=
  let isNullable :=
    if target.isAny then !isContradictory target
    else written.declaresNullable || target.declaresNullable
  { m with isNullable := isNullable }

def setExtras (m : Model) (target : Schema) (extrasType : Option String) : Model :=
  { m with
    isMapModel := target.isMap
    isAdditionalPropertiesTrue := match target.additionalProperties with
      | some (.flag isOpen) => isOpen
      | _ => false
    additionalPropertiesType := extrasType }

def importInstantiation (m : Model) (instantiation item : String) : Model :=
  { m with containerParent := some (instantiation ++ "<" ++ item ++ ">") }.addImport instantiation

def setItems (m : Model) (settings : GeneratorSettings) (target items : Schema) (itemType : String) : Model :=
  let kind : ContainerKind := if target.isSet then .set else .array
  let array := { m with isArrayModel := true, arrayModelType := some itemType }
  let wrapped := match settings.instantiationType? kind.text with
    | some instantiation => array.importInstantiation instantiation itemType
    | none => array
  if items.refName?.any (· ≠ m.name) then wrapped.addImport itemType else wrapped

def sortIfAsked (settings : GeneratorSettings) (m : Model) : Model :=
  if settings.sortByRequired then m.sortRequiredFirst.refresh else m

def converterImport (settings : GeneratorSettings) (m : Model) : Model :=
  if m.isAlias || m.isEnum then m else m.addImport (m.classname ++ settings.converterSuffix)

def complete (settings : GeneratorSettings) (m : Model) : Model :=
  let arranged := sortIfAsked settings (m.collectImports settings).dedupeProperties.refresh
  converterImport settings (arranged.addImports settings.modelImports)

end Model

namespace Resolution

def contradictionMessage : String :=
  "Schema accepts any value but declares nullable: false; left non-nullable"

def reportContradiction (name : String) (target : Schema) : Resolution Unit :=
  if Model.isContradictory target then report name .contradictoryNullability contradictionMessage
  else pure ()

def extrasType (project : Project) (name : String) (target : Schema) : Resolution (Option String) :=
  match target.additionalProperties with
  | some (.schema value) => some <$> typeName project name value
  | _ => pure none

def withItems (project : Project) (name : String) (target : Schema) (m : Model) : Resolution Model :=
  if target.isArray then do
    let items := target.items.getD Schema.blank
    return m.setItems project.settings target items (← typeName project name items)
  else pure m

-- The model as it stands before its properties are known. `target` is what the references of
-- the written schema lead to.
def outline (project : Project) (name : String) (written target : Schema) : Resolution Model := do
  let tag ← infer project name target
  let typed := ((Model.new project.naming name).describe written target).setType project target tag
  reportContradiction name target
  let extrasType ← extrasType project name target
  withItems project name target ((typed.setNullable written target).setExtras target extrasType)

def ignoredMessage (m : Model) (target : Schema) : String :=
  "Alias of " ++ m.dataType ++ " declares " ++ Nat.repr target.properties.length
    ++ " propert(ies); they are ignored"

def flat (project : Project) (target : Schema) : Drafting Unit := do
  let m ← Drafting.model
  if m.isAlias then
    if !target.properties.isEmpty then Drafting.report .aliasPropertiesIgnored (ignoredMessage m target)
  else Drafting.declare project target.properties target.required

def fill (project : Project) (resolver : Resolver) (target : Schema) : Drafting Unit :=
  if target.isComposed then Drafting.compose project resolver target else flat project target

def drafted (m : Model) (action : Drafting Unit) : Resolution Model := fun session =>
  match action ⟨session, m⟩ with
  | .ok _ draft => .ok draft.model draft.session
  | .error error draft => .error error draft.session

def refuseCycle (project : Project) (name : String) : Resolution Unit :=
  match project.inheritance.cycleOf? name with
  | some cycle => throw (.cyclicInheritance name cycle)
  | none => pure ()

def opening (project : Project) (name : String) (written : Schema) : Resolution (Schema × Model) := do
  refuseCycle project name
  let target ← unalias project name written
  let outlined ← outline project name written target
  publish outlined
  return (target, outlined)

def build (project : Project) (resolver : Resolver) (name : String) (written : Schema) : Resolution Model := do
  let (target, outlined) ← opening project name written
  return (← drafted outlined (fill project resolver target)).complete project.settings

def begin (name : String) : Resolution Unit :=
  modify fun session => { session with cache := session.cache.begin name }

def finish (m : Model) : Resolution Model :=
  modifyGet fun session =>
    let (cache, finished) := session.cache.finish m
    (finished, { session with cache })

def fail (name : String) (error : ModelError) : Resolution Unit :=
  modify fun session =>
    { session with
      diagnostics := session.diagnostics.failure name error
      cache := session.cache.fail name error }

def store (name : String) (action : Resolution Model) : Resolution Model := fun session =>
  match (begin name *> action) session with
  | .ok m session => finish m session
  | .error error session => (fail name error *> throw error) session

-- `depth` bounds how many builds may be under way at once.
def request (project : Project) (depth : Nat) (name : String) (s : Schema) : Resolution Model := do
  match (← get).cache.lookup name with
  | some known => ofExcept known
  | none =>
      match depth with
      | 0 => throw (.invalidDocument "models are nested too deeply")
      | depth + 1 => store name (build project (request project depth) name s)

end Resolution

namespace Project

-- Builds under way at once have distinct names of the document, or are inline arms of one that
-- is under way; so this many are never exceeded.
def depthFor (project : Project) (s : Schema) : Nat :=
  project.document.schemas.values.foldr (fun other depth => other.armDepth + depth) s.armDepth

def resolver (project : Project) (s : Schema) : Resolver := Resolution.request project (project.depthFor s)

def resolveSchema (project : Project) (name : String) (s : Schema) : Resolution Model :=
  project.resolver s name s

def resolve (project : Project) (name : String) : Resolution Model :=
  match project.document.get? name with
  | some s => project.resolveSchema name s
  | none => throw (.unresolvedReference name name)

def resolveReference (project : Project) (requester reference : String) : Resolution Model :=
  Resolution.reference project (project.resolver Schema.blank) requester reference

def compose (project : Project) (s : Schema) : Drafting Unit :=
  Drafting.compose project (project.resolver s) s

end Project
end ApiModels
