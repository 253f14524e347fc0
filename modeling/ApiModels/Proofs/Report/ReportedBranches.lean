import ApiModels.Proofs.Report.BareAliases
import ApiModels.Proofs.Report.Remarks
import ApiModels.Proofs.Resolution.Rounds

namespace ApiModels

namespace Schema
variable {s : Schema}

-- The schema, or an inline allOf member of it, lists branches.
def Branches (s : Schema) : Prop := s.anyOfBranches ≠ [] ∨ ∃ member ∈ s.inlineMembers, member.anyOfBranches ≠ []

theorem isComposed_of_branches (branched : s.anyOfBranches ≠ []) : s.isComposed := by simp [isComposed, branched]

theorem branchCode_eq : s.branchCode = .unsupportedComposition ∧ s.oneOfArms = [] ∨
    s.branchCode = .ignoredAnyOf ∧ s.oneOfArms ≠ [] := by
  unfold branchCode
  by_cases armless : s.oneOfArms = []
  · exact .inl ⟨by simp [armless], armless⟩
  · exact .inr ⟨by simp [armless], armless⟩

theorem armRequests_eq_nil {name : String} : s.armRequests name = [] ↔ s.oneOfArms = [] := by
  simp [armRequests]

end Schema

namespace Document
variable {document : Document} {s target : Schema}

theorem branches_led (led : document.unalias s = .ok target) :
    target.anyOfBranches ≠ [] ↔ s.anyOfBranches ≠ [] ∧ document.unalias s = .ok s := by
  constructor
  · intro branched
    obtain rfl := unalias_composed led (Schema.isComposed_of_branches branched)
    exact ⟨branched, led⟩
  · intro ⟨branched, led'⟩
    cases led.symm.trans led'
    exact branched

theorem arms_led (led : document.unalias s = .ok target) (name : String) :
    (∀ child, child ∈ (target.armRequests name).map Request.name ↔ child ∈ (s.armRequests name).map Request.name) ↔
      (s.oneOfArms ≠ [] → document.unalias s = .ok s) := by
  constructor
  · intro same arms
    obtain ⟨request, asked⟩ := List.exists_mem_of_ne_nil _ (mt Schema.armRequests_eq_nil.mp arms)
    obtain ⟨other, linked, -⟩ := List.mem_map.mp ((same request.name).mpr (List.mem_map_of_mem asked))
    have armed := mt Schema.armRequests_eq_nil.mpr (List.ne_nil_of_mem linked)
    obtain rfl := unalias_composed led (Drafting.isComposed_of_arms (by simpa using armed))
    exact led
  · intro whole child
    rcases follow_origin led with rfl | ⟨-, bare⟩
    · rfl
    · have armless := Schema.armRequests_plain (Schema.plain_of_bare bare) name
      have same : s.oneOfArms = [] := by
        by_contra arms
        cases led.symm.trans (whole arms)
        exact arms (Schema.armRequests_eq_nil.mp armless)
      rw [armless, Schema.armRequests_eq_nil.mpr same]

end Document

namespace Drafting
variable {project : Project} {d next : Draft}

theorem reportBranches_says {s : Schema} (branched : s.anyOfBranches ≠ []) (ran : reportBranches s d = .ok () next) :
    ∃ message, .new d.model.name s.branchCode message ∈ next.session.diagnostics.items := by
  unfold reportBranches at ran
  unfold Schema.branchCode
  rw [if_neg (by simpa using branched)] at ran
  split at ran <;> rename_i arms <;> cases ran
  · rw [if_pos arms]
    exact ⟨_, List.mem_concat_self⟩
  · rw [if_neg arms]
    exact ⟨_, List.mem_concat_self⟩

theorem groundwork_says {target : Schema} {parents : List Model} (branched : target.anyOfBranches ≠ [])
    (ran : groundwork project target parents d = .ok () next) :
    ∃ message, .new d.model.name target.branchCode message ∈ next.session.diagnostics.items := by
  unfold groundwork at ran
  rw [if_pos (Schema.isComposed_of_branches branched)] at ran
  obtain ⟨_, inherited, inherits, ran⟩ := bind_ok.mp ran
  obtain ⟨_, declared, declares, ran⟩ := bind_ok.mp ran
  obtain ⟨_, reported, reports, announces⟩ := bind_ok.mp ran
  have named : declared.model.name = d.model.name :=
    ((declaration.declare _ _ inherited).ok declares).grows.name.trans ((inheritFrom_steady _ _ d).ok inherits).name
  obtain ⟨message, said⟩ := reportBranches_says branched reports
  obtain ⟨-, added, more, -⟩ := ((announce_adds Diagnostic.permits_mild target) reported).ok announces rfl
  exact ⟨message, named ▸ more ▸ List.mem_append_left _ said⟩

end Drafting

namespace Project
variable {project : Project} {m : Model} {s target : Schema} {name : String} {code : DiagnosticCode}

def Raises (project : Project) (name : String) (code : DiagnosticCode) : Prop :=
  ∃ item ∈ project.run.diagnostics.items, item.schema = name ∧ item.code = code

theorem Raises.branches (raises : project.Raises name code)
    (special : code = .unsupportedComposition ∨ code = .ignoredAnyOf) :
    ∃ target, project.Composes name target ∧ target.anyOfBranches ≠ [] ∧ code = target.branchCode := by
  obtain ⟨item, listed, rfl, rfl⟩ := raises
  refine run_items_all (P := fun item => (item.code = .unsupportedComposition ∨ item.code = .ignoredAnyOf) →
    ∃ target, project.Composes item.schema target ∧ target.anyOfBranches ≠ [] ∧ item.code = target.branchCode)
    ?_ ?_ ?_ item listed special
  · intro _ code _ _ common special
    rcases special with same | same <;> rw [show code = _ from same] at common <;> cases common
  · intro item grave special
    rcases special with same | same <;> rw [same] at grave <;> cases grave
  · intro name target composes
    refine ⟨fun _ _ _ special => ?_, fun branched _ _ => ⟨target, composes, branched, rfl⟩⟩
    rcases special with same | same <;> cases same

theorem raises_branches (known : m ∈ project.run.models) (composes : project.Composes m.name target)
    (branched : target.anyOfBranches ≠ []) : project.Raises m.name target.branchCode := by
  obtain ⟨written, target', outlined, parents, begun, gathers, -⟩ := gathers_of_model known
  cases composes.unique ⟨written, begun, gathers.opens.led⟩
  obtain ⟨session, after, settled, kept⟩ := settles_of_model known gathers
  obtain ⟨message, said⟩ := Drafting.groundwork_says branched settled
  exact ⟨_, kept.subset said, gathers.opens.fresh.name, rfl⟩

-- The report says of the model that its anyOf is left out, and its members are the arms of the schema.
def Forthright (project : Project) : Prop :=
  ∀ m ∈ project.run.models, ∀ s, project.Begins m.name s →
    (s.Branches → project.Raises m.name .unsupportedComposition ∨ project.Raises m.name .ignoredAnyOf) ∧
    ∀ child, child ∈ m.unionMembers ↔ child ∈ (s.armRequests m.name).map Request.name

structure Discloses (project : Project) (m : Model) (target : Schema) : Prop where
  unsupported : project.Raises m.name .unsupportedComposition ↔ target.anyOfBranches ≠ [] ∧ target.oneOfArms = []
  ignored : project.Raises m.name .ignoredAnyOf ↔ target.anyOfBranches ≠ [] ∧ target.oneOfArms ≠ []
  members : ∀ child, child ∈ m.unionMembers ↔ child ∈ (target.armRequests m.name).map Request.name

theorem discloses (known : m ∈ project.run.models) (composes : project.Composes m.name target) :
    project.Discloses m target := by
  have raised {code : DiagnosticCode} (special : code = .unsupportedComposition ∨ code = .ignoredAnyOf) :
      project.Raises m.name code ↔ target.anyOfBranches ≠ [] ∧ code = target.branchCode := by
    constructor
    · intro raises
      obtain ⟨other, composes', branched, same⟩ := raises.branches special
      cases composes.unique composes'
      exact ⟨branched, same⟩
    · intro ⟨branched, same⟩
      exact same ▸ raises_branches known composes branched
  have finishes := (Progress.passes_done project).finishes (project.mem_run_models.mp known)
  refine ⟨(raised (.inl rfl)).trans (and_congr_right fun _ => ?_), (raised (.inr rfl)).trans (and_congr_right fun _ => ?_),
    fun child => finishes.mem_members composes⟩
  · rcases target.branchCode_eq with ⟨same, armless⟩ | ⟨same, arms⟩ <;> simp [*]
  · rcases target.branchCode_eq with ⟨same, armless⟩ | ⟨same, arms⟩ <;> simp [*]

theorem Discloses.raises (discloses : project.Discloses m target) :
    project.Raises m.name .unsupportedComposition ∨ project.Raises m.name .ignoredAnyOf ↔ target.anyOfBranches ≠ [] := by
  rw [discloses.unsupported, discloses.ignored, ← and_or_left]
  exact and_iff_left (Classical.em _)

-- So the report is silent about branches exactly where they are not those of the schema that the model is
-- made of, and no arm is lost but with such a schema.
theorem run_branches_iff (project : Project) :
    (∀ m ∈ project.run.models, ∀ target, project.Composes m.name target → project.Discloses m target) ∧
    (project.Forthright ↔ ∀ m ∈ project.run.models, ∀ s, project.Begins m.name s →
      (s.Branches → s.anyOfBranches ≠ [] ∧ project.document.unalias s = .ok s) ∧
      (s.oneOfArms ≠ [] → project.document.unalias s = .ok s)) := by
  refine ⟨fun m known target composes => discloses known composes,
    forall₂_congr fun m known => forall₂_congr fun s begins => ?_⟩
  have finishes := (Progress.passes_done project).finishes (project.mem_run_models.mp known)
  obtain ⟨written, target, begun, led, -⟩ := finishes.described
  obtain rfl := begins.unique begun
  have discloses := discloses known ⟨s, begins, led⟩
  refine and_congr (imp_congr_right fun _ => ?_) ?_
  · exact discloses.raises.trans (Document.branches_led led)
  · simp only [discloses.members]
    exact Document.arms_led led m.name

-- A schema whose only allOf member lists a branch.
def branching : Document where
  schemas := Table.ofEntries [
    ("Pet", { allOf := some [{ anyOf := some [Schema.referenceTo "Dog"] }] }),
    ("Dog", { properties := [("name", { type := some (.single "string") })] })]
  fingerprint := ""

theorem not_forthright_branching : ¬ (of GeneratorSettings.defaults branching).Forthright := by
  intro forthright
  have built : ∃ m ∈ (of GeneratorSettings.defaults branching).run.models, m.name = "Pet" := by decide +kernel
  have silent : (of GeneratorSettings.defaults branching).run.diagnostics.items = [] := by decide +kernel
  obtain ⟨m, known, named⟩ := built
  have begins : (of GeneratorSettings.defaults branching).Begins "Pet"
      { allOf := some [{ anyOf := some [Schema.referenceTo "Dog"] }] } := begins_of_digitless rfl (by decide)
  rw [← named] at begins
  have branches : Schema.Branches { allOf := some [{ anyOf := some [Schema.referenceTo "Dog"] }] } :=
    .inr ⟨_, List.mem_cons_self, List.cons_ne_nil _ _⟩
  rcases (forthright m known _ begins).1 branches with ⟨item, listed, -⟩ | ⟨item, listed, -⟩ <;>
    rw [silent] at listed <;> cases listed

end Project
end ApiModels
