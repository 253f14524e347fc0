import ApiModels.Proofs.Report.Failures
import ApiModels.Proofs.Report.MutualLinks
import ApiModels.Proofs.Resolution.Sequence
import ApiModels.Proofs.Resolution.Warnings

namespace ApiModels

namespace Diagnostic

theorem ofError_severity (schema : String) (e : ModelError) : (ofError schema e).severity = .error := by
  cases e <;> rfl

end Diagnostic

namespace Diagnostics
variable {d : Diagnostics}

theorem errors_failure (schema : String) (e : ModelError) :
    (d.failure schema e).errors = d.errors ++ [Diagnostic.ofError schema e] := by
  unfold errors failure push
  rw [List.filter_append, List.filter_singleton, Diagnostic.ofError_severity]
  rfl

theorem not_hasErrors : d.hasErrors = false ↔ d.errors = [] := by
  simp [hasErrors]

end Diagnostics

namespace Cache
variable {cache : Cache} {name : String} {m : Model} {issue : Diagnostic}

theorem modelIssues_made (listed : issue ∈ cache.modelIssues m) :
    ∃ code message, issue = .new m.name code message ∧ code.severity = .error := by
  rcases List.mem_append.mp listed with link | parent
  · rcases List.mem_append.mp link with member | interface
    · obtain ⟨name, -, found⟩ := List.mem_filterMap.mp member
      obtain ⟨child, -, -, rfl⟩ := reported found
      exact ⟨_, _, rfl, rfl⟩
    · obtain ⟨name, -, found⟩ := List.mem_filterMap.mp interface
      obtain ⟨union, -, -, rfl⟩ := reported found
      exact ⟨_, _, rfl, rfl⟩
  · obtain ⟨parent, -, -, rfl⟩ := reported (Option.mem_toList.mp parent)
    exact ⟨_, _, rfl, rfl⟩

theorem modelIssues_error (listed : issue ∈ cache.modelIssues m) : issue.schema = m.name ∧ issue.severity = .error := by
  obtain ⟨code, message, rfl, grave⟩ := modelIssues_made listed
  exact ⟨rfl, grave⟩

end Cache

namespace Session
variable {session after next : Session} {name : String} {e : ModelError}

-- The errors to be reported of a name: the one that its build has ended with.
def charges (session : Session) (name : String) : List Diagnostic :=
  (session.cache.fault? name).toList.map (Diagnostic.ofError name)

def Mirrored (session : Session) : Prop :=
  ∀ name, session.diagnostics.errors.filter (·.schema = name) = session.charges name

theorem Mirrored.warned (mirrored : session.Mirrored) (warned : session.Warned next)
    (kept : ∀ name e, next.cache.entries.get? name = some (.failed e) ↔ session.cache.entries.get? name = some (.failed e)) :
    next.Mirrored := by
  intro name
  have same : next.cache.fault? name = session.cache.fault? name := by
    ext e
    rw [Cache.fault?_eq_some, Cache.fault?_eq_some]
    exact kept name e
  unfold charges
  rw [warned.errors, same]
  exact mirrored name

theorem Mirrored.failed (mirrored : session.Mirrored) (warned : session.Warned after) (same : after.cache = session.cache)
    (open_ : session.cache.fault? name = none) : (after.failed name e).Mirrored := by
  intro other
  have errors : (after.failed name e).diagnostics.errors = session.diagnostics.errors ++ [Diagnostic.ofError name e] := by
    rw [← warned.errors]
    exact Diagnostics.errors_failure name e
  have faults : (after.failed name e).cache.fault? other = if name = other then some e else session.cache.fault? other := by
    change Cache.fault? (after.cache.fail name e) other = _
    unfold Cache.fault?
    rw [same, Cache.get?_fail]
    by_cases here : name = other
    · simp [here]
    · simp [here]
  have before := mirrored other
  unfold charges at before ⊢
  rw [errors, faults, List.filter_append, before]
  by_cases here : name = other
  · subst here
    simp [open_, Diagnostic.ofError, Diagnostic.new]
  · simp [here, Diagnostic.ofError, Diagnostic.new]

end Session

namespace Progress
variable {project : Project} {k next : Progress}

theorem Coherent.not_faulty (valid : Coherent k) {build : Build} (under : build ∈ k.builds) :
    k.cache.fault? build.name = none := by
  rw [Option.eq_none_iff_forall_not_mem]
  intro e failed
  exact valid.apart under (Cache.fault?_eq_some.mp failed) rfl rfl

theorem Coherent.mirrored (valid : Coherent k) (mirrored : k.session.Mirrored) (step : Step project k next) :
    next.session.Mirrored := by
  by_cases fails : ∃ build below e after, k.builds = build :: below ∧ Fault project k.session build e after
  · obtain ⟨build, below, e, after, top, fault⟩ := fails
    obtain ⟨session, builds, waiting⟩ := k
    cases top
    obtain rfl := step.fail_unique fault
    exact mirrored.failed fault.warned fault.cache (valid.not_faulty List.mem_cons_self)
  · have warned : k.session.Warned next.session := by
      rcases step.warned with warned | ⟨build, below, e, after, top, fault, -⟩
      · exact warned
      · exact (fails ⟨build, below, e, after, top, fault⟩).elim
    refine mirrored.warned warned fun name e => ⟨fun failed => ?_, valid.keeps_failure step⟩
    rcases valid.failed step failed with old | ⟨build, below, after, top, -, fault⟩
    · exact old
    · exact (fails ⟨build, below, e, after, top, fault⟩).elim

theorem Passes.mirrored (passes : Passes project k) : k.session.Mirrored :=
  passes.induction (P := fun k => k.session.Mirrored) (fun _ => rfl)
    fun _ _ before _ step mirrored => before.coherent.mirrored mirrored step

end Progress

namespace Project
variable (project : Project)

theorem run_items :
    project.run.diagnostics.items = project.resolveAll.diagnostics.items ++ project.resolveAll.cache.issues :=
  Diagnostics.foldl_push _ _

theorem run_errors_eq :
    project.run.diagnostics.errors = project.resolveAll.diagnostics.errors ++ project.resolveAll.cache.issues := by
  have errors : project.resolveAll.cache.issues.filter (·.severity = .error) = project.resolveAll.cache.issues := by
    rw [List.filter_eq_self]
    intro issue listed
    obtain ⟨m, -, among⟩ := List.mem_flatMap.mp listed
    simpa using (Cache.modelIssues_error among).2
  unfold Diagnostics.errors
  rw [run_items, List.filter_append, errors]

theorem resolveAll_mirrored : project.resolveAll.Mirrored := (Progress.passes_done project).mirrored

theorem issues_of_failed {name : String} {e : ModelError} (failed : (name, e) ∈ project.run.failures) :
    project.resolveAll.cache.issues.filter (·.schema = name) = [] := by
  rw [List.filter_eq_nil_iff]
  intro issue listed
  obtain ⟨m, known, among⟩ := List.mem_flatMap.mp listed
  have ready := project.mem_run_models.mp known
  have failure := project.mem_run_failures.mp failed
  have apart : issue.schema ≠ name := by
    rw [(Cache.modelIssues_error among).1]
    rintro rfl
    cases ready.symm.trans failure
  simpa using apart

theorem errors_of_failed {name : String} {e : ModelError} (failed : (name, e) ∈ project.run.failures) :
    project.run.diagnostics.errors.filter (·.schema = name) = [Diagnostic.ofError name e] := by
  have fault := Cache.fault?_eq_some.mpr (project.mem_run_failures.mp failed)
  have charged := project.resolveAll_mirrored name
  unfold Session.charges at charged
  rw [run_errors_eq, List.filter_append, charged, fault, project.issues_of_failed failed]
  rfl

theorem failed_of_error {item : Diagnostic} (listed : item ∈ project.resolveAll.diagnostics.errors) :
    ∃ e, (item.schema, e) ∈ project.run.failures ∧ item = Diagnostic.ofError item.schema e := by
  have charged : item ∈ project.resolveAll.charges item.schema := by
    rw [← project.resolveAll_mirrored item.schema, List.mem_filter]
    exact ⟨listed, by simp⟩
  obtain ⟨e, fault, made⟩ := List.mem_map.mp charged
  exact ⟨e, project.mem_run_failures.mpr (Cache.fault?_eq_some.mp (Option.mem_toList.mp fault)), made.symm⟩

-- Failures and errors mirror each other: each failure is one error with its code and its text, and every other
-- error has been found by the check of a finished model.
theorem run_errors :
    (∀ failure ∈ project.run.failures, ∃ item,
      project.run.diagnostics.errors.filter (·.schema = failure.1) = [item] ∧
        item.code = DiagnosticCode.ofError failure.2 ∧ item.message = failure.2.message) ∧
      (∀ item ∈ project.run.diagnostics.errors,
        (∃ e, (item.schema, e) ∈ project.run.failures ∧ item = Diagnostic.ofError item.schema e) ∨
          ∃ m ∈ project.run.models, m.name = item.schema ∧ item ∈ project.resolveAll.cache.modelIssues m) ∧
      (project.run.isClean ↔ project.run.diagnostics.errors = []) := by
  refine ⟨?_, ?_, ?_⟩
  · rintro ⟨name, e⟩ failed
    exact ⟨_, project.errors_of_failed failed, rfl, rfl⟩
  · intro item listed
    rw [run_errors_eq] at listed
    rcases List.mem_append.mp listed with built | checked
    · exact .inl (project.failed_of_error built)
    · obtain ⟨m, known, among⟩ := List.mem_flatMap.mp checked
      exact .inr ⟨m, known, (Cache.modelIssues_error among).1.symm, among⟩
  · have clean : project.run.isClean ↔ project.run.failures = [] ∧ project.run.diagnostics.errors = [] := by
      simp [Report.isClean, Diagnostics.not_hasErrors]
    rw [clean]
    refine ⟨And.right, fun silent => ⟨List.eq_nil_iff_forall_not_mem.mpr ?_, silent⟩⟩
    rintro ⟨name, e⟩ failed
    have reported := project.errors_of_failed failed
    rw [silent] at reported
    cases reported

end Project
end ApiModels
