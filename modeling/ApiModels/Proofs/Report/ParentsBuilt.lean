import ApiModels.Proofs.Resolution.Courses

namespace ApiModels

-- Every parent of a model, collapsed or kept, is a model.
def Report.Backed (report : Report) : Prop :=
  ∀ m ∈ report.models, ∀ parent ∈ m.lineage, parent ∈ report.models.map (·.name)

instance (report : Report) : Decidable report.Backed := inferInstanceAs (Decidable (∀ m ∈ report.models, _))

namespace Project
variable {project : Project} {child parent : String}

-- What the name is built from lists the parent among its referenced allOf members.
def Extends (project : Project) (child parent : String) : Prop :=
  ∃ target, project.Composes child target ∧ parent ∈ target.parentRequests.map Request.name

theorem mem_models_names {name : String} : name ∈ project.run.models.map (·.name) ↔
    ∃ m, project.resolveAll.cache.entries.get? name = some (.ready m) := by
  constructor
  · intro listed
    obtain ⟨m, known, rfl⟩ := List.mem_map.mp listed
    exact ⟨m, project.mem_run_models.mp known⟩
  · rintro ⟨m, ready⟩
    exact List.mem_map.mpr ⟨m, Cache.mem_models.mpr ⟨name, ready⟩, project.coherent_done.named name _ m ready rfl⟩

theorem lineage_of_model {m : Model} (known : m ∈ project.run.models) :
    ∃ target, project.Composes m.name target ∧ m.lineage = target.parentRequests.map Request.name := by
  obtain ⟨written, target, begun, led, lineage, -⟩ :=
    ((Progress.passes_done project).finishes (project.mem_run_models.mp known)).described
  exact ⟨target, ⟨written, begun, led⟩, lineage⟩

theorem gathers_of_model {m : Model} (known : m ∈ project.run.models) :
    ∃ written target outlined parents, project.Begins m.name written ∧
      project.Gathers m.name written target outlined parents ∧
      m.parentName = target.parentRequests.getLast?.map Request.name := by
  have finishes := (Progress.passes_done project).finishes (project.mem_run_models.mp known)
  obtain ⟨written, target, begun, led, -, -, parentName⟩ := finishes.described
  obtain ⟨written', target', parents, settled, begun', settles, -⟩ := finishes
  cases Composes.unique ⟨written, begun, led⟩ ⟨written', begun', settles.described.1⟩
  obtain ⟨outlined, gathers, -⟩ := settles
  exact ⟨written', target, outlined, parents, begun', gathers, parentName⟩

theorem mem_lineage_iff {m : Model} (known : m ∈ project.run.models) :
    parent ∈ m.lineage ↔ project.Extends m.name parent := by
  obtain ⟨target, composes, lineage⟩ := lineage_of_model known
  rw [lineage]
  constructor
  · exact fun listed => ⟨target, composes, listed⟩
  · rintro ⟨other, composes', listed⟩
    cases composes.unique composes'
    exact listed

theorem Extends.backed_or_borrows {m : Model} (known : m ∈ project.run.models)
    (extends_ : project.Extends m.name parent) :
    parent ∈ project.run.models.map (·.name) ∨ project.Borrows m.name (.reference parent) := by
  obtain ⟨written, target, outlined, parents, begun, gathers, -⟩ := gathers_of_model known
  obtain ⟨other, composes, listed⟩ := extends_
  cases composes.unique ⟨written, begun, gathers.opens.led⟩
  obtain ⟨request, asked, rfl⟩ := List.mem_map.mp listed
  obtain ⟨reference, -, rfl⟩ := List.mem_map.mp asked
  obtain ⟨answer, bequeaths⟩ := gathers.bequeaths asked
  rcases bequeaths.hands.ready_or_borrows with ready | borrows
  · exact .inl (mem_models_names.mpr ready)
  · exact .inr borrows

theorem Borrows.concluded {asker : String} {request : Request} (borrows : project.Borrows asker request) :
    request.name ∈ project.run.models.map (·.name) ∨ request.name ∈ project.run.failed := by
  obtain ⟨k, passes, -, under⟩ := borrows
  obtain ⟨entry, found, final⟩ := passes.concluded under
  cases entry with
  | ready m => exact .inl (mem_models_names.mpr ⟨m, found⟩)
  | failed e => exact .inr (project.mem_run_failed.mpr ⟨e, found⟩)
  | _ => cases final

variable (project)

theorem not_failed_of_model {name : String} (listed : name ∈ project.run.models.map (·.name)) :
    name ∉ project.run.failed := by
  intro failed
  obtain ⟨m, ready⟩ := mem_models_names.mp listed
  obtain ⟨e, stored⟩ := project.mem_run_failed.mp failed
  cases ready.symm.trans stored

-- The parents of a model are the referenced allOf members of its schema, in their order. One of them is
-- missing from the models when it is handed over under construction and fails later, and only then.
theorem run_backed_iff :
    (∀ m ∈ project.run.models, ∃ target,
      project.Composes m.name target ∧ m.lineage = target.parentRequests.map Request.name) ∧
    (project.run.Backed ↔ ∀ child parent, project.Extends child parent →
      project.Borrows child (.reference parent) → parent ∈ project.run.failed → child ∈ project.run.failed) := by
  refine ⟨fun m => lineage_of_model, fun backed child parent extends_ borrows failed => ?_,
    fun spreads m known parent listed => ?_⟩
  · obtain ⟨target, ⟨written, begun, led⟩, listed⟩ := extends_
    obtain ⟨entry, found, final⟩ := begun.concluded
    cases entry with
    | ready m =>
        have known := Cache.mem_models.mpr ⟨child, found⟩
        obtain rfl : m.name = child := project.coherent_done.named child _ m found rfl
        have shown := (mem_lineage_iff known).mpr ⟨target, ⟨written, begun, led⟩, listed⟩
        have built := backed m known parent shown
        exact absurd failed (project.not_failed_of_model built)
    | failed e => exact project.mem_run_failed.mpr ⟨e, found⟩
    | _ => cases final
  · have extends_ := (mem_lineage_iff known).mp listed
    rcases extends_.backed_or_borrows known with built | borrows
    · exact built
    · refine borrows.concluded.resolve_right fun failed => ?_
      have child := spreads m.name parent extends_ borrows failed
      exact project.not_failed_of_model (List.mem_map_of_mem known) child

-- A union that fails at its second arm, after the first has taken it in as its parent.
def forsaking : Document where
  schemas := Table.ofEntries [
    ("P", { oneOf := some [Schema.referenceTo "C", Schema.referenceTo "Ghost"] }),
    ("C", { allOf := some [Schema.referenceTo "P"] })]
  fingerprint := ""

theorem run_not_backed_forsaking : ¬ (Project.of GeneratorSettings.defaults forsaking).run.Backed := by
  decide +kernel

end Project
end ApiModels
