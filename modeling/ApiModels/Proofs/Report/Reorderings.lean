import ApiModels.Proofs.Report.SteadyModels

namespace ApiModels

-- What two models of a name share, whatever the order of their properties and links.
structure Model.Resembles (m other : Model) : Prop where
  parentName : other.parentName = m.parentName
  own : ∀ p, p ∈ other.ownProperties ↔ p ∈ m.ownProperties
  all : ∀ p, p ∈ other.allProperties ↔ p ∈ m.allProperties
  allRequired : other.allRequiredNames = m.allRequiredNames
  members : ∀ name, name ∈ other.unionMembers ↔ name ∈ m.unionMembers
  interfaces : ∀ name, name ∈ other.interfaces ↔ name ∈ m.interfaces

structure Report.Agrees (one two : Report) : Prop where
  ready : ∀ name, name ∈ two.models.map (·.name) ↔ name ∈ one.models.map (·.name)
  failed : ∀ name, name ∈ two.failed ↔ name ∈ one.failed
  models : ∀ m ∈ one.models, ∀ other ∈ two.models, other.name = m.name → m.Resembles other

theorem Model.mem_of_lookup {ps qs : List Property} (one : (ps.map (·.baseName)).Nodup)
    (two : (qs.map (·.baseName)).Nodup) (same : ∀ name, named name qs = named name ps) (p : Property) :
    p ∈ qs ↔ p ∈ ps := by
  have lookup (rs : List Property) (distinct : (rs.map (·.baseName)).Nodup) :
      p ∈ rs ↔ named p.baseName rs = some p := by
    rw [named_eq_some distinct]
    exact (and_iff_left rfl).symm
  rw [lookup qs two, lookup ps one, same]

namespace Project
variable {one two : Project} {m other : Model}

variable (alike : one.Alike two) (steady : one.Steady) (steady' : two.Steady)
include alike steady steady'

theorem resembles_of_alike (analysed : one.inheritance = .ofDocument one.document)
    (analysed' : two.inheritance = .ofDocument two.document) (known : m ∈ one.run.models)
    (known' : other ∈ two.run.models) (named : other.name = m.name) : m.Resembles other := by
  have ready := one.mem_run_models.mp known
  have ready' := two.mem_run_models.mp known'
  obtain ⟨written, begins⟩ := begun_of_found ready
  have begins' : two.Begins other.name written := named.symm ▸ ((begins.reached steady).transfer alike).begins steady'
  obtain ⟨settled, amounts, kept⟩ :=
    ((Progress.passes_done one).foretold steady analysed).models m.name m ready written begins
  obtain ⟨settled', amounts', kept'⟩ :=
    ((Progress.passes_done two).foretold steady' analysed').models other.name other ready' written begins'
  have twins : m.Twins other :=
    (kept.twins.symm.trans (amounts.twins alike (named ▸ amounts'))).trans kept'.twins
  refine ⟨twins.parentName, Model.mem_of_lookup kept.settled.own kept'.settled.own twins.own,
    Model.mem_of_lookup kept.settled.all kept'.settled.all twins.all, twins.allRequired, fun child => ?_, fun union => ?_⟩
  · have finishes := (Progress.passes_done one).finishes ready
    have finishes' := (Progress.passes_done two).finishes ready'
    obtain ⟨_, target, begun, led, -⟩ := finishes.described
    cases begun.unique begins
    rw [finishes.mem_members ⟨written, begins, led⟩,
      finishes'.mem_members ⟨written, begins', (alike.schemas.unalias written).trans led⟩, named]
  · rw [mem_interfaces_iff known, mem_interfaces_iff known', links_iff_joins steady, links_iff_joins steady', named]
    exact ⟨fun joins => joins.transfer alike.symm, fun joins => joins.transfer alike⟩

theorem agrees_of_alike (analysed : one.inheritance = .ofDocument one.document)
    (analysed' : two.inheritance = .ofDocument two.document) : one.run.Agrees two.run where
  ready name := by
    rw [mem_models_iff steady, mem_models_iff steady']
    constructor
    · rintro ⟨s, reached, fit⟩
      exact ⟨s, reached.transfer alike.symm, fun unfit => fit (unfit.transfer alike)⟩
    · rintro ⟨s, reached, fit⟩
      exact ⟨s, reached.transfer alike, fun unfit => fit (unfit.transfer alike.symm)⟩
  failed name := by
    rw [mem_failed_iff steady, mem_failed_iff steady']
    constructor
    · rintro ⟨s, reached, unfit⟩
      exact ⟨s, reached.transfer alike.symm, unfit.transfer alike.symm⟩
    · rintro ⟨s, reached, unfit⟩
      exact ⟨s, reached.transfer alike, unfit.transfer alike⟩
  models _ known _ known' named := resembles_of_alike alike steady steady' analysed analysed' known known' named

omit alike steady steady'

-- Two orders of a document give the same report, if no placeholder and no name does harm in either of them.
theorem run_reordered (settings : GeneratorSettings) {document reordered : Document}
    (reorders : document.Reorders reordered) (steady : (of settings document).Steady)
    (steady' : (of settings reordered).Steady) : (of settings document).run.Agrees (of settings reordered).run :=
  agrees_of_alike (.of_reorders settings reorders) steady steady' rfl rfl

-- A union and its arm, which refer to each other.
def pets : Document where
  schemas := Table.ofEntries [
    ("Pet", { properties := [("name", { type := some (.single "string") })], oneOf := some [Schema.referenceTo "Cat"] }),
    ("Cat", { allOf := some [Schema.referenceTo "Pet"], properties := [("meow", { type := some (.single "string") })] })]
  fingerprint := ""

def petsLast : Document where
  schemas := Table.ofEntries [
    ("Cat", { allOf := some [Schema.referenceTo "Pet"], properties := [("meow", { type := some (.single "string") })] }),
    ("Pet", { properties := [("name", { type := some (.single "string") })], oneOf := some [Schema.referenceTo "Cat"] })]
  fingerprint := ""

theorem run_reordered_pets : pets.Reorders petsLast ∧ (of GeneratorSettings.defaults pets).Steady ∧
    (of GeneratorSettings.defaults petsLast).Steady ∧
    (of GeneratorSettings.defaults pets).run.Agrees (of GeneratorSettings.defaults petsLast).run := by
  have reorders : pets.Reorders petsLast := List.Perm.swap _ _ _
  have steady : (of GeneratorSettings.defaults pets).Steady :=
    steady_of_report (by decide +kernel) (by decide +kernel) (by decide +kernel)
  have steady' : (of GeneratorSettings.defaults petsLast).Steady :=
    steady_of_report (by decide +kernel) (by decide +kernel) (by decide +kernel)
  exact ⟨reorders, steady, steady', run_reordered GeneratorSettings.defaults reorders steady steady'⟩

def forsakingLast : Document where
  schemas := Table.ofEntries [
    ("C", { allOf := some [Schema.referenceTo "P"] }),
    ("P", { oneOf := some [Schema.referenceTo "C", Schema.referenceTo "Ghost"] })]
  fingerprint := ""

-- There the child fails.
theorem run_not_agrees_forsaking : forsaking.Reorders forsakingLast ∧
    ¬ (Project.of GeneratorSettings.defaults forsaking).run.Agrees
      (Project.of GeneratorSettings.defaults forsakingLast).run := by
  refine ⟨List.Perm.swap _ _ _, fun agrees => ?_⟩
  have first : "C" ∈ (Project.of GeneratorSettings.defaults forsaking).run.models.map (·.name) := by decide +kernel
  have last : "C" ∉ (Project.of GeneratorSettings.defaults forsakingLast).run.models.map (·.name) := by decide +kernel
  exact last ((agrees.ready "C").mpr first)

end Project
end ApiModels
