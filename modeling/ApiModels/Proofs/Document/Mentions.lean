import ApiModels.Proofs.Document.Arms

namespace ApiModels
namespace Schema

mutual
def refNames : Schema → List String
  | { reference, properties, items, additionalProperties, allOf, oneOf, anyOf, .. } =>
      (reference.map refName).toList ++ (refNamesOfProperties properties ++ refNamesOfOption items ++
        refNamesOfExtras additionalProperties ++ refNamesOfList allOf ++ refNamesOfList oneOf ++ refNamesOfList anyOf)

def refNamesOfProperties : List (String × Schema) → List String
  | [] => []
  | (_, s) :: rest => refNames s ++ refNamesOfProperties rest

def refNamesOfOption : Option Schema → List String
  | none => []
  | some s => refNames s

def refNamesOfExtras : Option (Extras Schema) → List String
  | none => []
  | some (.flag _) => []
  | some (.schema s) => refNames s

def refNamesOfList : Option (List Schema) → List String
  | none => []
  | some schemas => refNamesOfEach schemas

def refNamesOfEach : List Schema → List String
  | [] => []
  | s :: rest => refNames s ++ refNamesOfEach rest
end

def extrasSchema? (s : Schema) : Option Schema :=
  match s.additionalProperties with
  | some (.schema value) => some value
  | _ => none

def parts (s : Schema) : List Schema :=
  s.properties.map Prod.snd ++ s.items.toList ++ s.extrasSchema?.toList ++ s.allOfMembers ++ s.oneOfArms ++
    s.anyOfBranches

theorem refNames_eq (s : Schema) : s.refNames = s.refName?.toList ++ s.parts.flatMap refNames := by
  have each (schemas : List Schema) : refNamesOfEach schemas = schemas.flatMap refNames := by
    induction schemas with
    | nil => rfl
    | cons head rest ih => rw [refNamesOfEach, ih, List.flatMap_cons]
  have properties (listed : List (String × Schema)) :
      refNamesOfProperties listed = (listed.map Prod.snd).flatMap refNames := by
    induction listed with
    | nil => rfl
    | cons head rest ih => rw [refNamesOfProperties, ih, List.map_cons, List.flatMap_cons]
  have option (schema : Option Schema) : refNamesOfOption schema = schema.toList.flatMap refNames := by
    cases schema <;> simp [refNamesOfOption]
  have list (schemas : Option (List Schema)) : refNamesOfList schemas = (schemas.getD []).flatMap refNames := by
    cases schemas with
    | none => rfl
    | some schemas => exact each schemas
  have extras : refNamesOfExtras s.additionalProperties = s.extrasSchema?.toList.flatMap refNames := by
    unfold extrasSchema?
    rcases s.additionalProperties with _ | ⟨_ | value⟩ <;> simp [refNamesOfExtras]
  have unfolds : s.refNames = s.refName?.toList ++ (refNamesOfProperties s.properties ++ refNamesOfOption s.items ++
      refNamesOfExtras s.additionalProperties ++ refNamesOfList s.allOf ++ refNamesOfList s.oneOf ++
      refNamesOfList s.anyOf) := by
    cases s
    rw [refNames]
    rfl
  rw [unfolds, properties, option, extras, list, list, list, parts]
  simp only [List.flatMap_append, allOfMembers, oneOfArms, anyOfBranches]

-- No reference in the schema leads to a name that is kept apart.
def Clear (apart : List String) (s : Schema) : Prop := ∀ name ∈ s.refNames, name ∉ apart

section Clear
variable {apart : List String} {s inner : Schema} {name : String}

theorem Clear.refers (clear : s.Clear apart) (refers : s.refName? = some name) : name ∉ apart := by
  refine clear name ?_
  rw [refNames_eq, refers]
  exact List.mem_append_left _ List.mem_cons_self

theorem Clear.part (clear : s.Clear apart) (inside : inner ∈ s.parts) : inner.Clear apart := by
  intro name listed
  refine clear name ?_
  rw [refNames_eq]
  exact List.mem_append_right _ (List.mem_flatMap.mpr ⟨inner, inside, listed⟩)

theorem Clear.nil (s : Schema) : s.Clear [] := fun _ _ => List.not_mem_nil

theorem Clear.property (clear : s.Clear apart) (listed : (name, inner) ∈ s.properties) : inner.Clear apart := by
  refine clear.part ?_
  simp only [parts, List.append_assoc]
  exact List.mem_append_left _ (List.mem_map_of_mem (f := Prod.snd) listed)

theorem Clear.items (clear : s.Clear apart) (holds : s.items = some inner) : inner.Clear apart :=
  clear.part (by simp [parts, holds])

theorem Clear.extras (clear : s.Clear apart) (holds : s.additionalProperties = some (.schema inner)) : inner.Clear apart :=
  clear.part (by simp [parts, extrasSchema?, holds])

theorem Clear.member (clear : s.Clear apart) (listed : inner ∈ s.allOfMembers) : inner.Clear apart :=
  clear.part (by simp [parts, listed])

theorem Clear.arm (clear : s.Clear apart) (listed : inner ∈ s.oneOfArms) : inner.Clear apart :=
  clear.part (by simp [parts, listed])

theorem Clear.content (clear : s.Clear apart) {kind : ContainerKind} (holds : s.content? kind = some inner) :
    inner.Clear apart := by
  cases kind with
  | map =>
      unfold content? at holds
      dsimp only at holds
      split at holds
      · cases holds
        exact clear.extras ‹_›
      · cases holds
  | array => exact clear.items holds
  | set => exact clear.items holds

end Clear
end Schema

namespace Document

def mentioned (document : Document) : List String :=
  document.schemas.values.flatMap Schema.refNames ++ document.armNames

end Document
end ApiModels
