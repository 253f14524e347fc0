import ApiModels.Proofs.Report.ReportedFailures
import ApiModels.Proofs.Resolution.Courses
import ApiModels.Proofs.Resolution.Memoization

namespace ApiModels

namespace Progress
variable {project : Project} {P : Diagnostic → Prop} {k next : Progress} {name : String} {written target : Schema}
  {outlined : Model} {parents : List Model} {below : List Build}

theorem Passes.remarks (passes : Passes project k) {build : Build} (under : build ∈ k.builds)
    (told : ∀ name target, project.Composes name target → Diagnostic.Remarks P name target) : Remarks P build := by
  intro target outlined parents rest stage
  have named : outlined.name = build.name := (passes.coherent.shown build under).named outlined (by rw [stage]; rfl)
  have led := ((passes.traced build under).inheriting stage).1.led
  exact told outlined.name target ⟨build.written, named ▸ (passes.accounted.sound build under).begun, led⟩

theorem Passes.items (passes : Passes project k) (permits : Diagnostic.Permits P)
    (grave : ∀ item, item.code.severity = .error → P item)
    (told : ∀ name target, project.Composes name target → Diagnostic.Remarks P name target) :
    ∀ item ∈ k.session.diagnostics.items, P item := by
  refine passes.induction (P := fun k => ∀ item ∈ k.session.diagnostics.items, P item) (fun _ listed => nomatch listed) ?_
  intro k next before _ step holds
  rcases step.adds permits fun _ under => before.remarks under told with
    adds | ⟨build, below, e, after, top, fault, same⟩
  · exact adds.all holds
  · have adds := fault.adds permits (before.remarks (top ▸ List.mem_cons_self) told)
    intro item listed
    rw [same] at listed
    rcases List.mem_append.mp listed with warned | failed
    · exact adds.all holds item warned
    · cases List.mem_singleton.mp failed
      exact grave _ (by cases e <;> rfl)

end Progress

namespace Project
variable {project : Project} {P : Diagnostic → Prop} {m : Model} {written target : Schema} {outlined : Model}
  {parents : List Model}

theorem run_items_all (permits : Diagnostic.Permits P) (grave : ∀ item, item.code.severity = .error → P item)
    (told : ∀ name target, project.Composes name target → Diagnostic.Remarks P name target) :
    ∀ item ∈ project.run.diagnostics.items, P item := by
  intro item listed
  rw [run_items] at listed
  rcases List.mem_append.mp listed with built | checked
  · exact (Progress.passes_done project).items permits grave told item built
  · obtain ⟨m, -, among⟩ := List.mem_flatMap.mp checked
    obtain ⟨code, message, rfl, error⟩ := Cache.modelIssues_made among
    exact grave _ error

theorem settles_of_model (known : m ∈ project.run.models) (gathers : project.Gathers m.name written target outlined parents) :
    ∃ session after, Drafting.groundwork project target parents ⟨session, outlined⟩ = .ok () after ∧
      after.session.diagnostics.items <+: project.run.diagnostics.items := by
  obtain ⟨k, below, passes, top⟩ := gathers
  rcases Relation.ReflTransGen.cases_head passes.2 with rfl | ⟨next, step, rest⟩
  · cases top
  have further : Progress.Passes project next := ⟨passes.1.tail step, rest⟩
  rcases step.settles top with ⟨after, settled, same, -⟩ | ⟨e, failed⟩
  · refine ⟨k.session, after, settled, ?_⟩
    have kept := further.onward (P := fun k => after.session.diagnostics.items <+: k.session.diagnostics.items)
      (same ▸ List.prefix_rfl) fun _ _ _ _ step kept => kept.trans step.log
    exact kept.trans (run_items project ▸ List.prefix_append _ _)
  · have ready := project.mem_run_models.mp known
    cases ready.symm.trans (further.failed_done failed)

end Project
end ApiModels
