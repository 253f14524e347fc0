import ApiModels.Proofs.Model.Imports
import ApiModels.Proofs.Resolution.TypedModels

namespace ApiModels
namespace Model
variable {m parent : Model} {text : String} {settings : GeneratorSettings}

-- There is no import of an empty name.
def Imports (m : Model) (text : String) : Prop := text ≠ "" → text ∈ m.imports

-- All that a finished model has to import.
inductive Requires (project : Project) (m : Model) (text : String) : Prop where
  | reference {p : Property} {level : Level} : p ∈ m.allProperties → level ∈ p.levels → level.complexType = some text →
      Requires project m text
  | mapped {p : Property} : p ∈ m.allProperties → p.innermost.complexType = none → p.innermost.typeTag.text = text →
      project.settings.importMappings.contains text → Requires project m text
  | instantiation {p : Property} {level : Level} {kind : ContainerKind} : m.unionMembers = [] → p ∈ m.allProperties →
      level ∈ p.levels → level.containerType = some kind → project.settings.instantiationType? kind.text = some text →
      Requires project m text
  | parent {name : String} : m.parentName = some name → text = project.naming.modelName name → Requires project m text
  | union {name : String} : name ∈ m.interfaces → text = project.naming.modelName name → Requires project m text
  | configured : text ∈ project.settings.modelImports → Requires project m text
  | converter : m.isAlias = false → m.isEnum = false → text = m.classname ++ project.settings.converterSuffix →
      Requires project m text

section Properties

def Collected (settings : GeneratorSettings) (m : Model) : Prop :=
  ∀ p ∈ m.allProperties, ∀ text ∈ propertyImports settings m p, m.Imports text

theorem complete_collected (settings : GeneratorSettings) (m : Model) : (m.complete settings).Collected settings := by
  have marked : (m.complete settings).EachProperty
      fun p => ∃ q ∈ m.ownProperties ++ m.allProperties, ∃ required, p = { q with required } := by
    refine EachProperty.complete ?_ settings fun p listed => ⟨p, listed, p.required, rfl⟩
    rintro _ required ⟨q, listed, _, rfl⟩
    exact ⟨q, listed, required, rfl⟩
  intro p listed text asked named
  obtain ⟨q, known, required, rfl⟩ := marked.all p listed
  have same : propertyImports settings (m.complete settings) { q with required } = propertyImports settings m q := by
    unfold propertyImports
    rw [(complete_rearranges settings m).unionMembers]
    rfl
  rw [same] at asked
  exact mem_imports_complete.mpr (.inl ⟨.inl ⟨q, known, asked⟩, named⟩)

theorem Collected.implement (collected : m.Collected settings) (link : PendingLink) :
    (Cache.implement m link).Collected settings := by
  have all : (Cache.implement m link).allProperties = m.allProperties := by
    unfold Cache.implement
    rw [addImport_eq]
    rfl
  intro p listed text asked named
  rw [all] at listed
  unfold propertyImports at asked
  rw [Cache.implement_unionMembers] at asked
  exact mem_imports_implement.mpr (.inr (collected p listed text asked named))

end Properties

theorem imports_implement (links : List PendingLink) (holds : m.Imports text) : (links.foldl Cache.implement m).Imports text :=
  List.foldlRecOn (motive := fun m => m.Imports text) links Cache.implement holds
    fun _ kept _ _ named => mem_imports_implement.mpr (.inr (kept named))

structure Descended (project : Project) (m : Model) : Prop extends Typed project m where
  parent : ∀ name, m.parentName = some name → m.Imports (project.naming.modelName name)

theorem Descended.extend {project : Project} (descended : m.Descended project) (elder : parent.Descended project) :
    (m.extend parent).Descended project where
  toTyped := descended.toTyped.extend elder.toTyped
  parent name kept named := by
    cases (extend_parentName m parent).symm.trans kept
    exact mem_imports_extend.mpr (.inl ⟨elder.classname.symm, named⟩)

theorem Descended.invariant (project : Project) : Invariant project (Descended project) where
  opened begun opens :=
    ⟨(Typed.invariant project).opened begun opens, fun name kept => by cases opens.fresh.parentName.symm.trans kept⟩
  collapsed names descended := ⟨(Typed.invariant project).collapsed names descended.toTyped, descended.parent⟩
  extended := Descended.extend
  declared p makes descended := ⟨(Typed.invariant project).declared p makes descended.toTyped,
    fun name kept named => mem_imports_declare.mpr (.inr (descended.parent name kept named))⟩
  required name known descended := ⟨(Typed.invariant project).required name known descended.toTyped, descended.parent⟩
  refreshed descended := ⟨(Typed.invariant project).refreshed descended.toTyped, descended.parent⟩
  member child descended := ⟨(Typed.invariant project).member child descended.toTyped, descended.parent⟩
  shown union descended := ⟨(Typed.invariant project).shown union descended.toTyped, descended.parent⟩
  linked {m} link genuine descended := by
    have same : (Cache.implement m link).parentName = m.parentName := (implement_retains m [link]).parentName
    refine ⟨(Typed.invariant project).linked link genuine descended.toTyped, fun name kept => ?_⟩
    exact imports_implement [link] (descended.parent name (same ▸ kept))
  completed descended := by
    refine ⟨(Typed.invariant project).completed descended.toTyped, fun name kept named => ?_⟩
    rw [(complete_rearranges _ _).parentName] at kept
    exact mem_imports_complete.mpr (.inr (descended.parent name kept named))

end Model

namespace Progress
variable {project : Project} {k next : Progress}

theorem Passes.unions (passes : Passes project k) {name union : String} {m : Model}
    (ready : k.cache.entries.get? name = some (.ready m)) (shown : union ∈ m.interfaces) :
    m.Imports (project.naming.modelName union) := by
  refine passes.induction (P := fun k => ∀ name m, k.cache.entries.get? name = some (.ready m) →
    ∀ union ∈ m.interfaces, m.Imports (project.naming.modelName union)) (fun _ _ found => nomatch found) ?_ name m ready
    union shown
  intro k next before _ step imported name m ready
  have implement {m : Model} {link : PendingLink} (named : link.parentClass = project.naming.modelName link.parent)
      (holds : ∀ union ∈ m.interfaces, m.Imports (project.naming.modelName union)) :
      ∀ union ∈ (Cache.implement m link).interfaces, (Cache.implement m link).Imports (project.naming.modelName union) := by
    intro union shown
    rcases (Cache.mem_interfaces_implement m link union).mp shown with rfl | old
    · exact fun nonempty => Model.mem_imports_implement.mpr (.inl ⟨named.symm, nonempty⟩)
    · exact Model.imports_implement [link] (holds union old)
  rcases before.coherent.ready step ready with old | ⟨m', link, old, rfl, -, named⟩ | ⟨written, draft, below, top, rfl⟩
  · exact imported name m old
  · exact implement named (imported name m' old)
  · refine List.foldlRecOn (motive := fun m => ∀ union ∈ m.interfaces, m.Imports (project.naming.modelName union))
      _ Cache.implement ?_ fun _ kept link waits => implement (before.genuine waits).parentClass kept
    intro union shown
    have drafted := (before.accounted.sound _ (top ▸ List.mem_cons_self)).drafted
    rw [(Model.complete_rearranges project.settings draft).interfaces, drafted] at shown
    cases shown

end Progress

structure Report.Supplied (project : Project) (report : Report) : Prop where
  classes : ∀ m ∈ report.models, m.classname = project.naming.modelName m.name
  imports : ∀ m ∈ report.models, ∀ text, m.Requires project text → m.Imports text

namespace Project

theorem imports_of_requires {project : Project} {m : Model} {text : String} (known : m ∈ project.run.models)
    (requires : m.Requires project text) : m.Imports text := by
  have ready := project.mem_run_models.mp known
  have passes := Progress.passes_done project
  have descended : m.Descended project := (Model.Descended.invariant project).criterion.of_model known
  obtain ⟨draft, links, made⟩ := (passes.finishes ready).completed
  have collected : m.Collected project.settings := made ▸ List.foldlRecOn (motive := Model.Collected project.settings)
    links Cache.implement (Model.complete_collected _ draft) fun _ kept link _ => kept.implement link
  have completes (asked : draft.Completes project.settings text) : m.Imports text :=
    made ▸ Model.imports_implement links fun named => Model.mem_imports_complete.mpr (.inl ⟨asked, named⟩)
  have kept : draft.Retains m :=
    made ▸ Model.retains.trans (Model.complete_retains project.settings draft) (Model.implement_retains _ links)
  cases requires with
  | @reference p level listed among refers =>
      have imports : text ∈ p.imports := (descended.properties.all p listed).complexType among refers
      exact collected p listed text (List.mem_append_left _ imports)
  | @mapped p listed plain same key =>
      intro named
      have needed : project.settings.needsImport p.innermost.typeTag.text := by
        rw [same]
        simpa [GeneratorSettings.needsImport, named] using key
      have imports : text ∈ p.imports := same ▸ (descended.properties.all p listed).mapped plain needed
      exact collected p listed text (List.mem_append_left _ imports) named
  | @instantiation p level kind armless listed among holds configured =>
      have container : p.isContainer := (descended.properties.all p listed).containerType among holds
      refine collected p listed text (List.mem_append_right _ ?_)
      rw [if_pos (by simp [container, armless])]
      exact List.mem_filterMap.mpr ⟨level, among, by rw [holds, Option.bind_some, configured]⟩
  | @parent name kept same => exact same ▸ descended.parent name kept
  | @union name shown same => exact same ▸ passes.unions ready shown
  | configured listed => exact completes (.inr (.inl listed))
  | converter plain enumless same =>
      exact completes (.inr (.inr ⟨kept.isAlias ▸ plain, kept.isEnum ▸ enumless, kept.classname ▸ same⟩))

-- Every model of a run has the class of its name, and imports all that it requires.
theorem run_supplied (project : Project) : project.run.Supplied project where
  classes _ known := (typed_of_model known).classname
  imports _ known _ requires := imports_of_requires known requires

end Project
end ApiModels
