import ApiModels.Proofs.Model.Twins
import ApiModels.Proofs.Resolution.Drafts

namespace ApiModels
namespace Model
variable {m parent : Model} {text : String}

theorem mem_addImport {name : String} :
    text ∈ (m.addImport name).imports ↔ text = name ∧ text ≠ "" ∨ text ∈ m.imports := by
  rw [addImport_eq]
  dsimp only
  split
  · rename_i empty
    have nameless : name = "" := by simpa using empty
    simp [nameless]
  · rename_i named
    have named : name ≠ "" := by simpa using named
    rw [NameSet.mem_insert]
    constructor
    · rintro (rfl | old)
      · exact .inl ⟨rfl, named⟩
      · exact .inr old
    · exact Or.imp_left And.left

theorem mem_addImports {names : List String} :
    text ∈ (m.addImports names).imports ↔ text ∈ names ∧ text ≠ "" ∨ text ∈ m.imports := by
  induction names generalizing m with
  | nil => simp [addImports]
  | cons head rest ih =>
      change text ∈ ((m.addImport head).addImports rest).imports ↔ _
      rw [ih, mem_addImport, List.mem_cons]
      tauto

theorem mem_imports_declare {p : Property} : text ∈ (m.declare p).imports ↔ text ∈ p.imports ∨ text ∈ m.imports :=
  NameSet.mem_union _ _ _

theorem mem_imports_extend :
    text ∈ (m.extend parent).imports ↔ text = parent.classname ∧ text ≠ "" ∨ text ∈ m.imports :=
  mem_addImport (m := { m with parentName := some parent.name })

theorem mem_imports_implement {link : PendingLink} :
    text ∈ (Cache.implement m link).imports ↔ text = link.parentClass ∧ text ≠ "" ∨ text ∈ m.imports :=
  mem_addImport (m := m.addInterface link.parent)

theorem mem_imports_setItems {settings : GeneratorSettings} {target items : Schema} {itemType : String} :
    text ∈ (m.setItems settings target items itemType).imports ↔
      settings.instantiationType? (if target.isSet then ContainerKind.set else .array).text = some text ∧ text ≠ "" ∨
      (items.refName?.any (· ≠ m.name) ∧ text = itemType) ∧ text ≠ "" ∨ text ∈ m.imports := by
  have wrapped (instantiation : String) (m : Model) : text ∈ (m.importInstantiation instantiation itemType).imports ↔
      text = instantiation ∧ text ≠ "" ∨ text ∈ m.imports := mem_addImport
  unfold setItems
  dsimp only
  generalize items.refName?.any (· ≠ m.name) = foreign
  cases settings.instantiationType? (if target.isSet then ContainerKind.set else .array).text with
  | none => cases foreign <;> simp [mem_addImport]
  | some instantiation =>
      cases foreign with
      | false => simp [wrapped, eq_comm (a := instantiation)]
      | true =>
          simp only [if_true, mem_addImport, wrapped, Option.some.injEq, eq_comm (a := instantiation)]
          tauto

theorem mem_imports_sort {settings : GeneratorSettings} : text ∈ (sortIfAsked settings m).imports ↔ text ∈ m.imports := by
  unfold sortIfAsked
  split <;> exact Iff.rfl

theorem mem_converterImport {settings : GeneratorSettings} : text ∈ (converterImport settings m).imports ↔
    (m.isAlias = false ∧ m.isEnum = false ∧ text = m.classname ++ settings.converterSuffix) ∧ text ≠ "" ∨
      text ∈ m.imports := by
  unfold converterImport
  cases m.isAlias <;> cases m.isEnum <;> simp [mem_addImport]

def Completes (settings : GeneratorSettings) (m : Model) (text : String) : Prop :=
  (∃ p ∈ m.ownProperties ++ m.allProperties, text ∈ propertyImports settings m p) ∨ text ∈ settings.modelImports ∨
    m.isAlias = false ∧ m.isEnum = false ∧ text = m.classname ++ settings.converterSuffix

theorem mem_imports_complete {settings : GeneratorSettings} :
    text ∈ (m.complete settings).imports ↔ m.Completes settings text ∧ text ≠ "" ∨ text ∈ m.imports := by
  have kept := arrange_retains settings m
  unfold complete
  dsimp only
  rw [mem_converterImport, kept.isAlias, kept.isEnum, kept.classname, mem_addImports, mem_imports_sort]
  change _ ∨ _ ∨ text ∈ (m.collectImports settings).imports ↔ _
  rw [collectImports, mem_addImports, List.mem_flatMap]
  constructor
  · rintro (⟨converter, named⟩ | ⟨configured, named⟩ | ⟨asked, named⟩ | old)
    · exact .inl ⟨.inr (.inr converter), named⟩
    · exact .inl ⟨.inr (.inl configured), named⟩
    · exact .inl ⟨.inl asked, named⟩
    · exact .inr old
  · rintro (⟨asked | configured | converter, named⟩ | old)
    · exact .inr (.inr (.inl ⟨asked, named⟩))
    · exact .inr (.inl ⟨configured, named⟩)
    · exact .inl ⟨converter, named⟩
    · exact .inr (.inr (.inr old))

end Model
end ApiModels
