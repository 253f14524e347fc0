import ApiModels.Proofs.Document.Extensions
import ApiModels.Proofs.Report.InheritedViews
import ApiModels.Proofs.Report.NameClashes
import ApiModels.Proofs.Report.ParentLines

namespace ApiModels

-- Nothing but the name of a type.
structure Model.Hollow (m : Model) : Prop where
  own : m.ownProperties = []
  all : m.allProperties = []
  required : m.requiredNames = NameSet.empty
  allRequired : m.allRequiredNames = NameSet.empty
  parentName : m.parentName = none
  collapsedParents : m.collapsedParents = []
  unionMembers : m.unionMembers = []

namespace Model
variable {m next : Model}

theorem Hollow.of_fresh {name : String} (fresh : m.Fresh name) (alone : m.lineage = []) : m.Hollow where
  own := fresh.own
  all := fresh.all
  required := fresh.required
  allRequired := fresh.allRequired
  parentName := fresh.parentName
  collapsedParents := (List.append_eq_nil_iff.mp alone).1
  unionMembers := fresh.unionMembers

theorem Hollow.agrees (hollow : m.Hollow) (same : m.Agrees next) (kept : m.Retains next)
    (arms : next.unionMembers = m.unionMembers) : next.Hollow where
  own := by
    have nameless : next.ownNames = [] := by
      refine List.eq_nil_iff_forall_not_mem.mpr fun name listed => ?_
      have before := (same.own name).mp listed
      simp [ownNames, hollow.own] at before
    exact List.map_eq_nil_iff.mp nameless
  all := by
    have nameless : next.propertyNames = [] := by
      refine List.eq_nil_iff_forall_not_mem.mpr fun name listed => ?_
      have before := (same.properties name).mp listed
      simp [propertyNames, hollow.all] at before
    exact List.map_eq_nil_iff.mp nameless
  required := same.required.trans hollow.required
  allRequired := same.allRequired.trans hollow.allRequired
  parentName := same.parentName.trans hollow.parentName
  collapsedParents := kept.collapsedParents.trans hollow.collapsedParents
  unionMembers := arms.trans hollow.unionMembers

theorem Hollow.complete (hollow : m.Hollow) (settings : GeneratorSettings) : (m.complete settings).Hollow :=
  hollow.agrees (complete_rearranges settings m).toAgrees (complete_retains settings m)
    (complete_rearranges settings m).unionMembers

theorem Hollow.implement (hollow : m.Hollow) (links : List PendingLink) : (links.foldl Cache.implement m).Hollow :=
  hollow.agrees (Cache.foldl_implement_agrees links m) (implement_retains m links) (Cache.foldl_implement links m).1

end Model

namespace Schema
variable {s : Schema}

theorem isAliasEligible_plain (eligible : s.isAliasEligible) : ¬ s.isComposed := by
  intro composed
  simp [isAliasEligible, composed] at eligible

theorem armRequests_plain (plain : ¬ s.isComposed) (name : String) : s.armRequests name = [] := by
  have armless : s.oneOfArms = [] := by
    by_contra arms
    exact plain (by simp [isComposed, arms])
  rw [armRequests, armless]
  rfl

end Schema

namespace Document
variable {document : Document} {name : String} {s target : Schema}

theorem eligible_of_aliases {mappings : TypeMappings} (listed : ((document.aliases mappings).get? name).isSome)
    (own : document.get? name = some s) : s.isAliasEligible := by
  obtain ⟨tag, found⟩ := Option.isSome_iff_exists.mp listed
  obtain ⟨other, held, eligible, -⟩ := aliases_get?.mp found
  cases own.symm.trans held
  exact eligible

theorem plain_of_alias {mappings : TypeMappings} (own : document.get? name = some s)
    (led : document.unalias s = .ok target)
    (renames : ((document.aliases mappings).get? name).isSome || target.isAliasEligible) : ¬ target.isComposed := by
  intro composed
  rcases Bool.or_eq_true_iff.mp renames with listed | eligible
  · obtain rfl := unalias_composed led composed
    exact Schema.isAliasEligible_plain (eligible_of_aliases listed own) composed
  · exact Schema.isAliasEligible_plain eligible composed

end Document

namespace Drafting
variable {project : Project} {target : Schema} {parents : List Model} {d next : Draft}

theorem groundwork_alias (plain : ¬ target.isComposed) (renames : d.model.isAlias)
    (ran : groundwork project target parents d = .ok () next) : next.model = d.model := by
  unfold groundwork at ran
  rw [if_neg plain] at ran
  change (if d.model.isAlias then _ else declare project target.properties target.required) d = _ at ran
  rw [if_pos renames] at ran
  split at ran <;> cases ran <;> rfl

end Drafting

namespace Project
variable {project : Project} {name : String} {written target : Schema} {parents : List Model} {settled : Model}

theorem Settles.renames (settles : project.Settles name written target parents settled) (renames : settled.isAlias) :
    ((project.aliases.get? name).isSome || target.isAliasEligible) = true := by
  obtain ⟨outlined, gathers, ⟨t, last, ran, rfl⟩⟩ := settles
  obtain ⟨s, next, opened⟩ := gathers.opens
  have kept : (outlined.adopt parents).Retains last.model :=
    Drafting.groundwork_moves (Model.retains.admitting project) gathers.alone ran
  rw [← (Resolution.opening_described opened).isAlias, ← (Model.adopt_sameOutline outlined parents).isAlias, ← kept.isAlias]
  exact renames

theorem Settles.hollow (settles : project.Settles name written target parents settled) (renames : settled.isAlias)
    (plain : ¬ target.isComposed) : settled.Hollow := by
  have told := settles.renames renames
  obtain ⟨outlined, gathers, ⟨t, last, ran, rfl⟩⟩ := settles
  obtain ⟨s, next, opened⟩ := gathers.opens
  have outlines := Resolution.opening_described opened
  rw [Drafting.groundwork_alias plain (outlines.isAlias.trans told) ran]
  exact .of_fresh (Resolution.opening_ok opened).2.1 outlines.lineage

theorem Finishes.hollow (analysed : project.aliases = project.document.aliases project.settings.typeMappings)
    {m : Model} (finishes : project.Finishes name m) {s : Schema} (own : project.document.get? name = some s)
    (begins : project.Begins name s) (renames : m.isAlias) : m.Hollow := by
  obtain ⟨written, target, parents, settled, begun, settles, -, links, rfl⟩ := finishes
  cases begins.unique begun
  have kept := Model.retains.trans (Model.addMembers_retains settled (target.armRequests name)) <|
    Model.retains.trans (Model.complete_retains project.settings _) (Model.implement_retains _ links)
  have settledRenames : settled.isAlias := kept.isAlias.symm.trans renames
  have told := settles.renames settledRenames
  rw [analysed] at told
  have plain : ¬ target.isComposed := Document.plain_of_alias own settles.described.1 told
  rw [Schema.armRequests_plain plain]
  exact ((settles.hollow settledRenames plain).complete project.settings).implement links

-- An alias that is built from the document's own schema of its name is hollow.
theorem run_aliases_hollow (settings : GeneratorSettings) (document : Document) (m : Model)
    (native : (of settings document).Native m) (renames : m.isAlias) : m.Hollow := by
  obtain ⟨s, own, begins⟩ := native.own
  have finishes := (Progress.passes_done _).finishes ((of settings document).mem_run_models.mp native.known)
  exact finishes.hollow rfl own begins renames

-- Where the name does not end like that of an arm, only the document's own schema can be built.
theorem Begins.own_of_digitless {name : String} {s : Schema} (begins : project.Begins name s)
    (digitless : ¬ (name.toList.getLast?).any Char.isDigit) : project.document.get? name = some s := by
  cases begins.origin with
  | document found => exact found
  | arm holds named => exact absurd (named ▸ Drafting.armName_last _ _) digitless

theorem begins_of_digitless {name : String} {s : Schema} (own : project.document.get? name = some s)
    (digitless : ¬ (name.toList.getLast?).any Char.isDigit) : project.Begins name s := by
  obtain ⟨written, begins⟩ := begun_of_listed (Table.mem_names_of_get? own)
  cases own.symm.trans (begins.own_of_digitless digitless)
  exact begins

theorem native_of_digitless {m : Model} {s : Schema} (known : m ∈ project.run.models)
    (own : project.document.get? m.name = some s) (digitless : ¬ (m.name.toList.getLast?).any Char.isDigit) :
    project.Native m :=
  ⟨known, s, own, begins_of_digitless own digitless⟩

def lengths : Document where
  schemas := Table.ofEntries [
    ("Size", { oneOf := some [Schema.referenceTo "Distance"] }),
    ("Distance", { Schema.referenceTo "Meters" with
      properties := [("unit", { type := some (.single "string") })], required := ["unit"] }),
    ("Meters", { type := some (.single "number") })]
  fingerprint := ""

theorem run_aliases_hollow_distance : ∃ m ∈ (of GeneratorSettings.defaults lengths).run.models,
    m.name = "Distance" ∧ m.isAlias ∧ m.interfaces = ["Size"] ∧ m.Hollow := by
  have listed : ∃ m ∈ (of GeneratorSettings.defaults lengths).run.models,
      m.name = "Distance" ∧ m.isAlias ∧ m.interfaces = ["Size"] := by decide +kernel
  obtain ⟨m, known, named, renames, shown⟩ := listed
  have own : ∃ s, lengths.get? m.name = some s := by
    rw [named]
    exact ⟨_, rfl⟩
  obtain ⟨s, found⟩ := own
  have native := native_of_digitless known found (by rw [named]; decide)
  exact ⟨m, known, named, renames, shown, run_aliases_hollow _ _ m native renames⟩

end Project
end ApiModels
