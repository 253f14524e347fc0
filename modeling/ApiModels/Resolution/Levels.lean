import ApiModels.Naming.Words
import ApiModels.Resolution.Session

namespace ApiModels

-- Each level knows the schema as written and the schema it stands for.
inductive Unfolding where
  | model (written target : Schema) (name : String)
  | value (written target : Schema)
  | container (written target : Schema) (kind : ContainerKind) (inner : Unfolding)

namespace Schema

def content? (s : Schema) : ContainerKind → Option Schema
  | .map => match s.additionalProperties with
      | some (.schema value) => some value
      | _ => none
  | _ => s.items

theorem content?_lt {s inner : Schema} {kind : ContainerKind} (holds : s.content? kind = some inner) :
    sizeOf inner < sizeOf s := by
  have fromItems : s.items = some inner → sizeOf inner < sizeOf s := by
    intro eq
    cases s
    simp only at eq
    subst eq
    simp
    omega
  cases kind with
  | map =>
      unfold content? at holds
      simp only at holds
      split at holds
      · rename_i value eq
        cases s
        simp only [Option.some.injEq] at eq holds
        subst eq holds
        simp
        omega
      · simp at holds
  | array => exact fromItems holds
  | set => exact fromItems holds

end Schema

-- A replaced reference leaves one name fewer to meet and leads into the document, where no schema is larger than the
-- bound.
theorem Document.replaced_lt {document : Document} {met : List String} {s target inner : Schema} {name : String}
    (refers : s.refName? = some name) (fresh : name ∉ met) (led : document.unalias s = .ok target)
    (ends : target.refName? = none) (smaller : sizeOf inner < sizeOf target) :
    (document.schemas.unmet (met ++ [name])).length * (document.sizeBound + 1) + sizeOf inner <
      (document.schemas.unmet met).length * (document.sizeBound + 1) + sizeOf s := by
  have bounded : sizeOf target ≤ document.sizeBound := by
    rcases follow_origin led with rfl | ⟨listed, -⟩
    · cases refers.symm.trans ends
    · exact sizeOf_le_sizeBound listed
  have fewer := document.schemas.unmet_length_lt met (met ++ [name]) name (mem_names_of_unalias refers led) fresh
    (List.subset_append_left _ _) (by simp)
  have product := Nat.mul_le_mul_right (document.sizeBound + 1) (Nat.succ_le_of_lt fewer)
  rw [Nat.succ_mul] at product
  omega

namespace Unfolding

-- `met` holds the references already replaced on the way down. One of them is kept as a reference to its model when
-- it comes again, so the unfolding ends.
def of (document : Document) (mappings : TypeMappings) (met : List String) (s : Schema) :
    Except RefIssue Unfolding :=
  match _refers : s.refName? with
  | none =>
      match (s.inferTag mappings).container? with
      | none => .ok (.value s s)
      | some kind =>
          match _holds : s.content? kind with
          | none => .ok (.container s s kind (.value Schema.blank Schema.blank))
          | some inner => (of document mappings met inner).map (.container s s kind)
  | some name =>
      if _fresh : name ∈ met then .ok (.model s s name)
      else match _followed : document.unalias s with
        | .error issue => .error issue
        | .ok target =>
            match _ends : target.refName? with
            | some other => .ok (.model s target other)
            | none =>
                match (target.inferTag mappings).container? with
                | none => .ok (.value s target)
                | some kind =>
                    match _within : target.content? kind with
                    | none => .ok (.container s target kind (.value Schema.blank Schema.blank))
                    | some inner => (of document mappings (met ++ [name]) inner).map (.container s target kind)
termination_by (document.schemas.unmet met).length * (document.sizeBound + 1) + sizeOf s
decreasing_by
  · have smaller := Schema.content?_lt _holds
    omega
  · exact Document.replaced_lt _refers _fresh _followed _ends (Schema.content?_lt _within)

-- The innermost schema; only there can the inference have guessed.
def guess? (mappings : TypeMappings) : Unfolding → Option InferenceNote
  | .model .. => none
  | .value _ target => (target.infer mappings).note
  | .container _ _ _ inner => inner.guess? mappings

def described (rules : NamingRules) (name : String) (written target : Schema) : Level where
  baseName := name
  name := Naming.camelize name
  varName := rules.varName name
  typeTag := .object
  dataType := ""
  readOnly := (written.readOnly.or target.readOnly) = some true
  nullable := written.declaresNullable || target.declaresNullable
  description := (written.description.or target.description).map Naming.escapeText
  vendorExtensions := written.extensions

def modelLevel (rules : NamingRules) (name : String) (written target : Schema) (model : String) : Level :=
  let classname := rules.modelName model
  { described rules name written target with
    dataType := classname
    complexType := some classname
    imports := NameSet.ofList [classname] }

def typedLevel (settings : GeneratorSettings) (name : String) (written target : Schema) : Level :=
  let tag := target.inferTag settings.typeMappings
  { described settings.naming name written target with
    typeTag := tag
    dataType := tag.text
    isEnum := target.hasEnum
    enumValues := target.enumList
    enumName := if target.hasEnum then some (Naming.enumName name) else none }

def valueLevel (settings : GeneratorSettings) (name : String) (written target : Schema) : Level :=
  let level := typedLevel settings name written target
  if settings.needsImport level.dataType then { level with imports := NameSet.ofList [level.dataType] } else level

def containerLevel (settings : GeneratorSettings) (name : String) (written target : Schema)
    (kind : ContainerKind) (inner : Property) : Level :=
  { typedLevel settings name written target with
    containerType := some kind
    isContainer := true
    imports := inner.imports }

def toProperty (settings : GeneratorSettings) (name : String) : Unfolding → Property
  | .model written target referred => { modelLevel settings.naming name written target referred with inner := [] }
  | .value written target => { valueLevel settings name written target with inner := [] }
  | .container written target kind inner =>
      let content := inner.toProperty settings name
      content.wrap (containerLevel settings name written target kind content)

end Unfolding

namespace Resolution

def property (project : Project) (owner name : String) (s : Schema) : Resolution Property := do
  let mappings := project.settings.typeMappings
  let unfolding ← ofExcept ((Unfolding.of project.document mappings [] s).mapError (RefIssue.toError owner))
  reportNote owner (unfolding.guess? mappings)
  return unfolding.toProperty project.settings name

end Resolution
end ApiModels
