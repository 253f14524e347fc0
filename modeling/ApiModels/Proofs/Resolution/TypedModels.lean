import ApiModels.Proofs.Model.Contents
import ApiModels.Proofs.Resolution.LevelChains
import ApiModels.Proofs.Resolution.Standards

namespace ApiModels
namespace Model
variable {project : Project}

structure Typed (project : Project) (m : Model) : Prop where
  classname : m.classname = project.naming.modelName m.name
  properties : m.EachProperty (·.Chained project)

theorem Typed.opened {name : String} {written target : Schema} {m : Model} (opens : project.Opens name written target m) :
    m.Typed project := by
  have fresh := opens.fresh
  obtain ⟨s, next, opened⟩ := opens
  refine ⟨?_, .of_views ?_ ?_⟩
  · rw [(Resolution.opening_described opened).classname, fresh.name]
  · simp [fresh.own]
  · simp [fresh.all]

theorem Typed.extend {m parent : Model} (typed : m.Typed project) (elder : parent.Typed project) :
    (m.extend parent).Typed project where
  classname := by
    rw [(extend_sameOutline m parent).classname, extend_name]
    exact typed.classname
  properties := typed.properties.extend elder.properties

theorem Typed.implement {m : Model} (typed : m.Typed project) (link : PendingLink) :
    (Cache.implement m link).Typed project where
  classname := by
    have kept : (Cache.implement m link).classname = m.classname := (implement_retains m [link]).classname
    rw [kept, Cache.implement_name]
    exact typed.classname
  properties := by
    unfold Cache.implement
    rw [addImport_eq]
    exact typed.properties

theorem Typed.complete {m : Model} (typed : m.Typed project) (settings : GeneratorSettings) :
    (m.complete settings).Typed project where
  classname := by
    rw [(complete_retains settings m).classname, (complete_rearranges settings m).name]
    exact typed.classname
  properties := typed.properties.complete (fun required chained => chained.mark required) settings

theorem Typed.invariant (project : Project) : Invariant project (Typed project) where
  opened _ opens := opened opens
  collapsed _ typed := ⟨typed.classname, typed.properties⟩
  extended := extend
  declared _ makes typed := ⟨typed.classname, typed.properties.declare makes.chained⟩
  required _ _ typed := ⟨typed.classname, typed.properties⟩
  refreshed typed := ⟨typed.classname, typed.properties.refresh fun required chained => chained.mark required⟩
  member _ typed := ⟨typed.classname, typed.properties⟩
  shown _ typed := ⟨typed.classname, typed.properties⟩
  linked link _ typed := typed.implement link
  completed typed := typed.complete _

end Model

theorem Project.typed_of_model {project : Project} {m : Model} (known : m ∈ project.run.models) : m.Typed project :=
  (Model.Typed.invariant project).criterion.of_model known

end ApiModels
