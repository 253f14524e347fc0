import ApiModels.Proofs.Resolution.Askers
import ApiModels.Proofs.Report.ParentsBuilt

namespace ApiModels

namespace Project
variable {project : Project}

structure Clash (project : Project) (parent : String) (index : Nat) (arm own : Schema) : Prop where
  holds : project.Holds parent index arm
  taken : project.document.get? (Drafting.armName parent index) = some own

-- A model that has the name of a schema is built from this schema. What a union lists for an inline
-- arm is a model that is built from the arm.
structure Unmixed (project : Project) : Prop where
  own : ∀ m ∈ project.run.models, ∀ s, project.document.get? m.name = some s →
    project.Begins m.name s ∧ m.modelJson = s.prettyText
  arms : ∀ m ∈ project.run.models, ∀ index arm, project.Holds m.name index arm →
    Drafting.armName m.name index ∈ m.unionMembers ∧ ∃ child ∈ project.run.models,
      child.name = Drafting.armName m.name index ∧ project.Begins child.name arm ∧ child.modelJson = arm.prettyText

theorem modelJson_of_begins {m : Model} {s : Schema} (known : m ∈ project.run.models)
    (begins : project.Begins m.name s) : m.modelJson = s.prettyText := by
  obtain ⟨written, target, begun, -, -, json, -⟩ :=
    ((Progress.passes_done project).finishes (project.mem_run_models.mp known)).described
  cases begun.unique begins
  exact json

theorem Holds.handed {m : Model} {index : Nat} {arm : Schema} (known : m ∈ project.run.models)
    (holds : project.Holds m.name index arm) : Drafting.armName m.name index ∈ m.unionMembers ∧
      ∃ child, project.Hands m.name (.arm (Drafting.armName m.name index) arm) child := by
  have finishes := (Progress.passes_done project).finishes (project.mem_run_models.mp known)
  obtain ⟨target, composes, found⟩ := holds.listed
  have asked : .arm (Drafting.armName m.name index) arm ∈ target.armRequests m.name :=
    Schema.mem_armRequests.mpr ⟨index, arm, found, (Request.ofArm_inline holds.inline).symm⟩
  refine ⟨(finishes.mem_members composes).mpr (List.mem_map_of_mem asked), ?_⟩
  obtain ⟨written, other, parents, settled, begun, settles, handed, -⟩ := finishes
  cases composes.unique ⟨written, begun, settles.described.1⟩
  exact (handed _ asked).handed

theorem Holds.begins {parent : String} {index : Nat} {arm s : Schema} (holds : project.Holds parent index arm)
    (free : project.document.get? (Drafting.armName parent index) = none)
    (begins : project.Begins (Drafting.armName parent index) s) : s = arm := by
  cases begins.origin with
  | document found => cases free.symm.trans found
  | arm other named =>
      obtain ⟨rfl, rfl⟩ := Drafting.armName_inj named
      exact other.unique holds

theorem begun_of_listed {name : String} (listed : name ∈ project.document.names) : ∃ s, project.Begins name s :=
  (Progress.passes_done project).begun (project.known_of_listed listed)

theorem ready_of_not_failed {name : String} {s : Schema} (begins : project.Begins name s)
    (lives : name ∉ project.run.failed) : ∃ m ∈ project.run.models, m.name = name := by
  obtain ⟨entry, found, final⟩ := begins.concluded
  cases entry with
  | ready m => exact ⟨m, Cache.mem_models.mpr ⟨name, found⟩, project.coherent_done.named name _ m found rfl⟩
  | failed e => exact absurd (project.mem_run_failed.mpr ⟨e, found⟩) lives
  | _ => cases final

variable (project)

-- Schemas are mixed up only where the name of an inline arm is taken by the document. This does no harm
-- when the model of the name is built from both, or when the one that goes without has no model anyway.
theorem run_unmixed_iff : project.Unmixed ↔ ∀ parent index arm own, project.Clash parent index arm own →
    (Drafting.armName parent index ∉ project.run.failed → project.Begins (Drafting.armName parent index) own) ∧
      (parent ∉ project.run.failed → Drafting.armName parent index ∉ project.run.failed ∧
        project.Begins (Drafting.armName parent index) arm) := by
  constructor
  · intro unmixed parent index arm own clash
    have named := Table.mem_names_of_get? clash.taken
    refine ⟨fun lives => ?_, fun lives => ?_⟩
    · obtain ⟨s, begins⟩ := begun_of_listed named
      obtain ⟨m, known, same⟩ := ready_of_not_failed begins lives
      exact same ▸ (unmixed.own m known own (same ▸ clash.taken)).1
    · obtain ⟨target, ⟨written, begins, -⟩, -⟩ := clash.holds.listed
      obtain ⟨m, known, rfl⟩ := ready_of_not_failed begins lives
      obtain ⟨-, child, listed, same, built, -⟩ := unmixed.arms m known index arm clash.holds
      rw [same] at built
      exact ⟨same ▸ project.not_failed_of_model (List.mem_map_of_mem listed), built⟩
  · intro harmless
    refine ⟨fun m known s found => ?_, fun m known index arm holds => ?_⟩
    · have lives := project.not_failed_of_model (List.mem_map_of_mem known)
      obtain ⟨written, begins⟩ := begun_of_found (project.mem_run_models.mp known)
      have own : project.Begins m.name s := by
        cases begins.origin with
        | document found' =>
            cases found.symm.trans found'
            exact begins
        | arm holds named =>
            rw [named] at found lives ⊢
            exact (harmless _ _ _ s ⟨holds, found⟩).1 lives
      exact ⟨own, modelJson_of_begins known own⟩
    · have lives := project.not_failed_of_model (List.mem_map_of_mem known)
      obtain ⟨listed, answer, hands⟩ := holds.handed known
      have built : Drafting.armName m.name index ∉ project.run.failed ∧
          project.Begins (Drafting.armName m.name index) arm := by
        cases taken : project.document.get? (Drafting.armName m.name index) with
        | some own => exact (harmless _ _ _ own ⟨holds, taken⟩).2 lives
        | none =>
            obtain ⟨entry, found, -⟩ := hands.known
            obtain ⟨s, begins⟩ := begun_of_found found
            cases holds.begins taken begins
            refine ⟨?_, begins⟩
            rcases hands.ready_or_borrows with ready | borrows
            · exact project.not_failed_of_model (mem_models_names.mpr ready)
            · exact absurd borrows.shadowed (Table.get?_eq_none.mp taken)
      obtain ⟨child, shown, same⟩ := ready_of_not_failed built.2 built.1
      have begins : project.Begins child.name arm := same ▸ built.2
      exact ⟨listed, child, shown, same, begins, modelJson_of_begins shown begins⟩

-- A schema that is named like the inline arm of a union before it.
def clashing : Document where
  schemas := Table.ofEntries [
    ("P", { oneOf := some [{ properties := [("p", { type := some (.single "string") })] }, Schema.referenceTo "Ghost"] }),
    ("POneOf0", { allOf := some [Schema.referenceTo "Q"] }),
    ("Q", { properties := [("q", { type := some (.single "string") })] })]
  fingerprint := ""

-- The model of that schema is made of the arm: it does not have the parent of the schema.
theorem run_not_unmixed_clashing : ¬ (Project.of GeneratorSettings.defaults clashing).Unmixed := by
  intro unmixed
  have orphan : ∃ m ∈ (Project.of GeneratorSettings.defaults clashing).run.models,
      m.name = "POneOf0" ∧ m.lineage = [] := by decide +kernel
  obtain ⟨m, known, named, parentless⟩ := orphan
  have found : clashing.get? m.name = some { allOf := some [Schema.referenceTo "Q"] } := by
    rw [named]
    rfl
  have led : clashing.unalias { allOf := some [Schema.referenceTo "Q"] } =
      .ok { allOf := some [Schema.referenceTo "Q"] } := by
    rw [Document.unalias, Document.follow_eq]
    rfl
  obtain ⟨target, composes, lineage⟩ := lineage_of_model known
  cases composes.unique ⟨_, (unmixed.own m known _ found).1, led⟩
  rw [parentless] at lineage
  cases lineage

end Project
end ApiModels
