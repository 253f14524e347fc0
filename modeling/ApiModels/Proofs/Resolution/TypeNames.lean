import ApiModels.Proofs.Model.Imports
import ApiModels.Proofs.Resolution.Courses

namespace ApiModels
namespace Project
variable {project : Project} {name text : String} {target : Schema}

-- The class of the owner or of a model that is referred to, or the tag at the end of the references.
def typeName? (project : Project) (owner : String) (s : Schema) : Except RefIssue String :=
  if s.refName? = some owner then .ok (project.naming.modelName owner)
  else (project.document.unalias s).map fun target =>
    match target.refName? with
    | some name => project.naming.modelName name
    | none => (target.inferTag project.settings.typeMappings).text

inductive Outlined (project : Project) (name : String) (target : Schema) (text : String) : Prop where
  | wrapper : target.isArray →
      project.settings.instantiationType? (if target.isSet then ContainerKind.set else .array).text = some text →
      Outlined project name target text
  | items {items : Schema} {other : String} : target.isArray → target.items = some items → items.refName? = some other →
      other ≠ name → project.typeName? name items = .ok text → Outlined project name target text

end Project

namespace Resolution
variable {project : Project} {owner name text : String} {s target : Schema} {session next : Session}

theorem typeName_ok (ran : typeName project owner s session = .ok text next) : project.typeName? owner s = .ok text := by
  unfold typeName at ran
  unfold Project.typeName?
  split at ran
  · rename_i own
    cases ran
    rw [if_pos own]
  · rename_i foreign
    obtain ⟨target, middle, led, ran⟩ := bind_ok.mp ran
    rw [if_neg foreign, unalias_ok led]
    cases refers : target.refName? with
    | some other =>
        rw [refers] at ran
        cases ran
        simp [Except.map, refers]
    | none =>
        rw [refers] at ran
        obtain ⟨_, _, inferred, ran⟩ := bind_ok.mp ran
        obtain ⟨_, _, _, tagged⟩ := bind_ok.mp inferred
        cases tagged
        cases ran
        simp [Except.map, refers, Schema.inferTag]

theorem setItems_outlined {m : Model} {itemType : String} (named : m.name = name) (bare : m.imports = NameSet.empty)
    (array : target.isArray) (typed : project.typeName? name (target.items.getD Schema.blank) = .ok itemType) :
    text ∈ (m.setItems project.settings target (target.items.getD Schema.blank) itemType).imports ↔
      project.Outlined name target text ∧ text ≠ "" := by
  rw [Model.mem_imports_setItems, bare, named]
  constructor
  · rintro (⟨wrapper, nonempty⟩ | ⟨⟨foreign, rfl⟩, nonempty⟩ | none)
    · exact ⟨.wrapper array wrapper, nonempty⟩
    · refine ⟨?_, nonempty⟩
      cases held : target.items with
      | none =>
          rw [held] at foreign
          cases foreign
      | some items =>
          rw [held, Option.getD_some] at foreign typed
          cases refers : items.refName? with
          | none => simp [refers] at foreign
          | some other => exact .items array held refers (by simpa [refers] using foreign) typed
    · cases none
  · rintro ⟨outlined, nonempty⟩
    cases outlined with
    | wrapper array wrapper => exact .inl ⟨wrapper, nonempty⟩
    | items array held refers apart other =>
        rw [held, Option.getD_some] at typed ⊢
        cases typed.symm.trans other
        exact .inr (.inl ⟨⟨by simp [refers, apart], rfl⟩, nonempty⟩)

theorem outline_imports (name : String) (written target : Schema) :
    Returns (fun m => ∀ text, text ∈ m.imports ↔ project.Outlined name target text ∧ text ≠ "")
      (outline project name written target) := by
  refine Returns.bind fun tag => Returns.bind fun _ => Returns.bind fun extrasType => ?_
  unfold withItems
  split
  · rename_i array
    intro session m next ran text
    obtain ⟨itemType, _, named, ran⟩ := bind_ok.mp ran
    cases ran
    exact setItems_outlined rfl rfl array (typeName_ok named)
  · rename_i plain
    refine Returns.pure fun text => ?_
    constructor
    · intro none
      cases none
    · rintro ⟨outlined, -⟩
      cases outlined with
      | wrapper array => exact absurd array plain
      | items array => exact absurd array plain

end Resolution

theorem Project.Opens.imports {project : Project} {name text : String} {written target : Schema} {m : Model}
    (opens : project.Opens name written target m) : text ∈ m.imports ↔ project.Outlined name target text ∧ text ≠ "" := by
  obtain ⟨s, next, opened⟩ := opens
  obtain ⟨before, after, outlines⟩ := Resolution.opening_outline opened
  exact Resolution.outline_imports name written target before m after outlines text

end ApiModels
