import ApiModels.Proofs.Document.Ancestry
import ApiModels.Proofs.Report.Failures

namespace ApiModels

theorem Resolution.opening_cyclic {project : Project} {name : String} {written : Schema} {cycle : List String}
    (found : project.inheritance.cycleOf? name = some cycle) (s : Session) :
    opening project name written s = .error (.cyclicInheritance name cycle) s := by
  have refused : refuseCycle project name s = .error (.cyclicInheritance name cycle) s := by
    rw [refuseCycle_run, found]
  exact bind_error.mpr (.inl refused)

theorem RefFault.not_cyclic {project : Project} {owner schema : String} {cycle : List String} :
    ¬ RefFault project owner (.cyclicInheritance schema cycle) := by
  rintro ⟨issue, -, same⟩
  cases issue <;> cases same

namespace Progress
variable {project : Project} {k next : Progress} {name schema : String} {cycle : List String}

def Barred (k : Progress) (project : Project) : Prop :=
  ∀ build ∈ k.builds, project.inheritance.isCyclic build.name → build.stage = .opening

theorem Barred.step (barred : k.Barred project) (step : Step project k next) : next.Barred project := by
  intro build under cyclic
  have top {inner : Build} {below : List Build} (same : k.builds = inner :: below)
      (cyclic : project.inheritance.isCyclic inner.name) : inner.stage = .opening :=
    barred inner (same ▸ List.mem_cons_self) cyclic
  cases step.moved under with
  | stayed before => exact barred build before cyclic
  | begun asks shape => rfl
  | opened same opened =>
      obtain ⟨cycle, found⟩ := Option.isSome_iff_exists.mp cyclic
      cases opened.symm.trans (Resolution.opening_cyclic found k.session)
  | inherited same => cases top same cyclic
  | settled same => cases top same cyclic
  | linked same => cases top same cyclic

theorem Passes.barred (passes : Passes project k) : k.Barred project :=
  passes.induction (P := (·.Barred project)) (fun _ under => nomatch under) fun _ _ _ _ step barred => barred.step step

theorem Fault.cyclic_iff {session after : Session} {build : Build} {below : List Build}
    {waiting : List (String × Schema)} {e : ModelError}
    (barred : Barred ⟨session, build :: below, waiting⟩ project) (fault : Fault project session build e after) :
    e = .cyclicInheritance schema cycle ↔ schema = build.name ∧ project.inheritance.cycleOf? build.name = some cycle := by
  constructor
  · rintro rfl
    generalize same : ModelError.cyclicInheritance schema cycle = e at fault
    cases fault with
    | opening stage failed =>
        subst same
        rcases (Resolution.opening_error failed).2 with ⟨other, found, same⟩ | fault
        · cases same
          exact ⟨rfl, found⟩
        · exact absurd fault RefFault.not_cyclic
    | missing => cases same
    | refused =>
        unfold Request.blame at same
        split at same <;> cases same
    | settling stage failed =>
        subst same
        exact absurd (Drafting.groundwork_error failed).2 RefFault.not_cyclic
  · rintro ⟨rfl, found⟩
    have stage := barred build List.mem_cons_self (Option.isSome_iff_exists.mpr ⟨cycle, found⟩)
    cases fault with
    | opening _ failed =>
        cases failed.symm.trans (Resolution.opening_cyclic found session)
        rfl
    | missing head => simp [stage, Stage.requests] at head
    | refused head => simp [stage, Stage.requests] at head
    | settling later => cases stage.symm.trans later

structure Refused (project : Project) (k : Progress) : Prop where
  models : ∀ name m, k.cache.entries.get? name = some (.ready m) → ¬ project.inheritance.isCyclic name
  failures : ∀ name e, k.cache.entries.get? name = some (.failed e) → ∀ schema cycle,
    e = .cyclicInheritance schema cycle ↔ schema = name ∧ project.inheritance.cycleOf? name = some cycle

theorem Refused.step (before : Passes project k) (refused : Refused project k) (step : Step project k next) :
    Refused project next where
  models name m ready := by
    rcases before.coherent.ready step ready with old | ⟨m', link, old, -⟩ | ⟨written, draft, below, top, -⟩
    · exact refused.models name m old
    · exact refused.models name m' old
    · intro cyclic
      cases before.barred ⟨name, written, .linking draft []⟩ (top ▸ List.mem_cons_self) cyclic
  failures name e failed schema cycle := by
    rcases before.coherent.failed step failed with old | ⟨build, below, after, top, rfl, fault⟩
    · exact refused.failures name e old schema cycle
    · obtain ⟨session, builds, waiting⟩ := k
      cases top
      exact fault.cyclic_iff before.barred

theorem Passes.refused (passes : Passes project k) : Refused project k :=
  passes.induction (P := Refused project) ⟨fun _ _ found => (nomatch found), fun _ _ found => (nomatch found)⟩
    fun _ _ before _ step refused => refused.step before step

end Progress

namespace Project

theorem mem_failures_cyclic (settings : GeneratorSettings) (document : Document) {name schema : String}
    {cycle : List String} : (name, .cyclicInheritance schema cycle) ∈ (of settings document).run.failures ↔
      schema = name ∧ (Inheritance.ofDocument document).cycleOf? name = some cycle := by
  have refused := (Progress.passes_done (of settings document)).refused
  rw [mem_run_failures]
  constructor
  · exact fun failed => (refused.failures name _ failed schema cycle).mp rfl
  · rintro ⟨rfl, found⟩
    have listed : schema ∈ document.names := (Inheritance.cycleOf?_eq_some.mp found).2.left
    obtain ⟨entry, stored, final⟩ := (of settings document).concluded listed
    cases entry with
    | ready m => exact absurd (Option.isSome_iff_exists.mpr ⟨cycle, found⟩) (refused.models schema m stored)
    | failed e => rw [(refused.failures schema e stored schema cycle).mpr ⟨rfl, found⟩] at stored; exact stored
    | _ => cases final

-- The analysis of a document finds the circles of descent, in document order, and counts every edge.
-- The failures of a run for this reason are the names on them.
theorem inheritance_cycles (document : Document) :
    let found := Inheritance.ofDocument document
    (∀ name, found.isCyclic name ↔ document.Descends name name) ∧
      (∀ name other, found.isCyclic name → found.isCyclic other →
        (found.cycleOf? name = found.cycleOf? other ↔ document.Descends name other ∧ document.Descends other name)) ∧
      (∀ name cycle, found.cycleOf? name = some cycle ↔ cycle ∈ found.cycles ∧ name ∈ cycle) ∧
      (∀ cycle ∈ found.cycles, cycle ≠ [] ∧ cycle.Nodup ∧ cycle.Sublist document.names) ∧
      (found.cycles.filterMap List.head?).Sublist document.names ∧
      found.edgeCount = (document.schemas.values.map document.parentCount).sum ∧
      ∀ settings name schema cycle, (name, .cyclicInheritance schema cycle) ∈ (of settings document).run.failures ↔
        schema = name ∧ found.cycleOf? name = some cycle := by
  refine ⟨fun _ => Inheritance.isCyclic_iff, ?_, ?_, ?_, Inheritance.heads_sublist document,
    Inheritance.edgeCount_eq document, fun settings name schema cycle => mem_failures_cyclic settings document⟩
  · intro name other one two
    exact Inheritance.cycleOf?_eq_iff (Inheritance.isCyclic_iff.mp one) (Inheritance.isCyclic_iff.mp two)
  · exact fun name cycle => Inheritance.cycleOf?_iff
  · intro cycle listed
    obtain ⟨first, rfl, head⟩ := Inheritance.mem_cycles.mp listed
    have ordered := document.circle_sublist first
    exact ⟨List.ne_nil_of_mem (List.mem_of_mem_head? head), ordered.nodup document.schemas.distinct, ordered⟩

end Project
end ApiModels
