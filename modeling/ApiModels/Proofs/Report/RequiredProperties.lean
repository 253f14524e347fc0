import ApiModels.Proofs.Report.BareAliases
import ApiModels.Proofs.Resolution.Rounds
import ApiModels.Proofs.Resolution.Sequence

namespace ApiModels

namespace Schema
variable {known : String → Prop} {rounds done : List Schema} {name : String}

-- The name is known in time for a round that requires it.
def InTime (known : String → Prop) (rounds : List Schema) (name : String) : Prop :=
  ∃ before round, before ++ [round] <+: rounds ∧ name ∈ round.required ∧
    (known name ∨ ∃ earlier ∈ before ++ [round], earlier.Declares name)

theorem not_inTime_nil : ¬ InTime known [] name := by
  rintro ⟨before, round, starts, -⟩
  have empty := List.prefix_nil.mp starts
  exact List.append_ne_nil_of_right_ne_nil before (List.cons_ne_nil _ _) empty

theorem inTime_concat (s : Schema) : InTime known (done ++ [s]) name ↔
    InTime known done name ∨ name ∈ s.required ∧ (known name ∨ ∃ earlier ∈ done ++ [s], earlier.Declares name) := by
  constructor
  · rintro ⟨before, round, starts, required, seen⟩
    rcases List.prefix_concat_iff.mp starts with whole | earlier
    · obtain ⟨rfl, same⟩ := List.append_inj' whole rfl
      cases same
      exact .inr ⟨required, seen⟩
    · exact .inl ⟨before, round, earlier, required, seen⟩
  · rintro (⟨before, round, starts, rest⟩ | ⟨required, seen⟩)
    · exact ⟨before, round, starts.trans (List.prefix_append _ _), rest⟩
    · exact ⟨done, s, List.prefix_rfl, required, seen⟩

end Schema

namespace Model

-- What a model has and requires after some rounds, given what it started with.
structure Tallied (base : Model) (done : List Schema) (m : Model) : Prop where
  names : ∀ name, name ∈ m.propertyNames ↔ name ∈ base.propertyNames ∨ ∃ round ∈ done, round.Declares name
  required : ∀ name, name ∈ m.allRequiredNames ↔
    name ∈ base.allRequiredNames ∨ Schema.InTime (· ∈ base.propertyNames) done name

theorem Tallied.start (base : Model) : base.Tallied [] base where
  names name := by simp
  required name := by simp [Schema.not_inTime_nil]

theorem Tallied.rounded (project : Project) (base : Model) : Rounded project base.Tallied where
  round {done m ps} s describe tallied := by
    have seen (name : String) : name ∈ ps.map (·.baseName) ∨ name ∈ m.propertyNames ↔
        name ∈ base.propertyNames ∨ ∃ round ∈ done ++ [s], round.Declares name := by
      rw [Project.Describes.names describe, tallied.names]
      simp only [List.mem_append, List.mem_singleton, or_and_right, exists_or, exists_eq_left]
      exact or_comm.trans or_assoc
    refine ⟨fun name => mem_propertyNames_takeIn.trans (seen name), fun name => ?_⟩
    rw [mem_allRequiredNames_takeIn, seen, tallied.required, Schema.inTime_concat]
    exact or_comm.trans or_assoc
  refresh {done m} tallied := by
    have same := m.refresh_rearranges.toAgrees
    refine ⟨fun name => (same.properties name).trans (tallied.names name), fun name => ?_⟩
    rw [same.allRequired]
    exact tallied.required name

end Model

namespace Progress
variable {project : Project} {k next : Progress} {name : String}

def Past (k : Progress) (name : String) : Prop :=
  (∃ build ∈ k.builds, build.name = name ∧ ∃ m rest, build.stage = .linking m rest) ∨
    ∃ entry, k.cache.entries.get? name = some entry ∧ entry.isFinal

theorem Past.step (valid : Coherent k) (past : k.Past name) (step : Step project k next) : next.Past name := by
  rcases past with ⟨build, under, rfl, m, rest, stage⟩ | ended
  · rcases valid.linking step under stage with ⟨later, inNext, same, m', rest', stage', -⟩ | ⟨e, failed⟩ | ⟨links, ready⟩
    · exact .inl ⟨later, inNext, same, m', rest', stage'⟩
    · exact .inr ⟨_, failed, rfl⟩
    · exact .inr ⟨_, ready, rfl⟩
  · exact .inr (valid.keeps_final step ended)

theorem Step.past (step : Step project k next) {written target : Schema} {outlined : Model} {parents : List Model}
    {below : List Build} (top : k.builds = ⟨name, written, .inheriting target outlined parents []⟩ :: below) :
    next.Past name := by
  rcases step.settles top with ⟨draft, -, -, builds⟩ | ⟨e, failed⟩
  · exact .inl ⟨_, builds ▸ List.mem_cons_self, rfl, _, _, rfl⟩
  · exact .inr ⟨_, failed, rfl⟩

end Progress

namespace Project
variable {project : Project} {name : String} {written other target end_ : Schema} {outlined draft parent m : Model}
  {parents elders : List Model}

theorem Gathers.unique (one : project.Gathers name written target outlined parents)
    (two : project.Gathers name other end_ draft elders) : parents = elders := by
  have ordered {k l : Progress} {written other target end_ : Schema} {outlined draft : Model} {parents elders : List Model}
      {below under : List Build} (before : Progress.Passes project k) (after : Progress.Passes project l)
      (run : Progress.Run project k l)
      (first : k.builds = ⟨name, written, .inheriting target outlined parents []⟩ :: below)
      (second : l.builds = ⟨name, other, .inheriting end_ draft elders []⟩ :: under) : parents = elders := by
    rcases Relation.ReflTransGen.cases_head run with rfl | ⟨next, step, rest⟩
    · cases first.symm.trans second
      rfl
    · have further : Progress.Passes project next := ⟨before.1.tail step, rest.trans after.2⟩
      have past := further.carries (P := (·.Past name)) after rest (step.past first)
        fun _ _ before _ step past => past.step before.coherent step
      have inL : ⟨name, other, .inheriting end_ draft elders []⟩ ∈ l.builds := second ▸ List.mem_cons_self
      rcases past with ⟨build, listed, same, m, requests, stage⟩ | ⟨entry, found, final⟩
      · cases after.coherent.same_build listed inL same
        cases stage
      · exact absurd rfl (after.coherent.apart inL found final)
  obtain ⟨k, below, before, first⟩ := one
  obtain ⟨l, under, after, second⟩ := two
  rcases before.total after with run | run
  · exact ordered before after run first second
  · exact (ordered after before run second first).symm

def Adopts (project : Project) (name : String) (parent : Model) : Prop :=
  ∃ written target outlined parents, project.Gathers name written target outlined parents ∧
    parents.getLast? = some parent

theorem Gathers.adopts_iff (gathers : project.Gathers name written target outlined parents) :
    project.Adopts name parent ↔ parents.getLast? = some parent := by
  constructor
  · rintro ⟨_, _, _, elders, others, last⟩
    rwa [gathers.unique others]
  · exact fun last => ⟨_, _, _, _, gathers, last⟩

def ParentHas (project : Project) (child name : String) : Prop :=
  ∃ parent, project.Adopts child parent ∧ name ∈ parent.propertyNames

def ParentRequires (project : Project) (child name : String) : Prop :=
  ∃ parent, project.Adopts child parent ∧ name ∈ parent.allRequiredNames

theorem required_iff {s : Schema} (known : m ∈ project.run.models) (begins : project.Begins m.name s) {p : Property}
    (listed : p ∈ m.allProperties) : p.required ↔ project.ParentRequires m.name p.baseName ∨
      Schema.InTime (project.ParentHas m.name) s.rounds p.baseName := by
  have finishes := (Progress.passes_done project).finishes (project.mem_run_models.mp known)
  obtain ⟨target, parents, settled, settles, keeps⟩ := finishes.keeps begins
  obtain ⟨outlined, gathers, ⟨t, last, ran, rfl⟩⟩ := settles
  have fresh := gathers.opens.fresh
  have named : p.baseName ∈ last.model.propertyNames :=
    keeps.twins.mem_propertyNames.mp (List.mem_map_of_mem listed)
  have marked : decide (p.baseName ∈ m.allRequiredNames) = p.required :=
    congrArg (fun p : Property => p.required) (keeps.settled.marked p (List.mem_append_right _ listed))
  have has : (· ∈ (outlined.adopt parents).propertyNames) = project.ParentHas m.name := by
    funext name
    exact propext (fresh.mem_propertyNames_adopt.trans (by simp only [ParentHas, gathers.adopts_iff]))
  have requires (name : String) : name ∈ (outlined.adopt parents).allRequiredNames ↔ project.ParentRequires m.name name :=
    fresh.mem_allRequiredNames_adopt.trans (by simp only [ParentRequires, gathers.adopts_iff])
  rw [← marked, decide_eq_true_eq, keeps.twins.allRequired]
  rcases Drafting.groundwork_rounds (Model.Tallied.rounded project _) gathers.alone (.start _) ran with tallied | ⟨-, -, same⟩
  · rcases Document.follow_origin gathers.opens.led with rfl | ⟨-, bare⟩
    · rw [tallied.required, requires, has]
    · have parentless := gathers.alone (Schema.memberless_of_plain (Schema.plain_of_bare bare))
      have known := (tallied.names p.baseName).mp named
      rw [parentless] at known
      rcases known with inherited | declared
      · exact absurd (fresh.mem_propertyNames_adopt.mp inherited) (by simp)
      · exact absurd declared (Schema.not_declares_of_bare bare p.baseName)
  · rw [same, fresh.bare.1] at named
    cases named

-- The required properties are those that the parent requires and those that the schema or one of its
-- inline allOf members requires.
def Exacting (project : Project) : Prop :=
  ∀ m ∈ project.run.models, ∀ s, project.Begins m.name s → s.allOfMembers ≠ [] → ∀ p ∈ m.allProperties,
    (p.required ↔ project.ParentRequires m.name p.baseName ∨ p.baseName ∈ s.required ∨
      ∃ member ∈ s.inlineMembers, p.baseName ∈ member.required)

-- This holds unless some name is required too early: before a later round declares it, and never after.
theorem run_required_iff (project : Project) :
    (∀ m ∈ project.run.models, ∀ s, project.Begins m.name s → ∀ p ∈ m.allProperties,
      (p.required ↔ project.ParentRequires m.name p.baseName ∨
        Schema.InTime (project.ParentHas m.name) s.rounds p.baseName)) ∧
    (project.Exacting ↔ ∀ m ∈ project.run.models, ∀ s, project.Begins m.name s → s.allOfMembers ≠ [] →
      ∀ p ∈ m.allProperties, (∃ round ∈ s.rounds, p.baseName ∈ round.required) →
        project.ParentRequires m.name p.baseName ∨ Schema.InTime (project.ParentHas m.name) s.rounds p.baseName) := by
  have rounds (s : Schema) (name : String) : (∃ round ∈ s.rounds, name ∈ round.required) ↔
      name ∈ s.required ∨ ∃ member ∈ s.inlineMembers, name ∈ member.required := by
    simp only [Schema.rounds, List.mem_append, List.mem_singleton, or_and_right, exists_or, exists_eq_left]
    exact or_comm
  refine ⟨fun m known s begins p listed => required_iff known begins listed, fun exacting => ?_, fun timely => ?_⟩
  · intro m known s begins members p listed demanded
    refine (required_iff known begins listed).mp ?_
    exact (exacting m known s begins members p listed).mpr (.inr ((rounds s p.baseName).mp demanded))
  · intro m known s begins members p listed
    rw [required_iff known begins listed, ← rounds]
    refine ⟨Or.imp_right ?_, fun either => either.elim .inl (timely m known s begins members p listed)⟩
    rintro ⟨before, round, starts, required, -⟩
    exact ⟨round, starts.subset (List.mem_append_right _ List.mem_cons_self), required⟩

-- A schema whose first allOf member requires what the second declares.
def belated : Document where
  schemas := Table.ofEntries [
    ("Trip", { allOf := some [{ required := ["start"] }, { properties := [("start", { type := some (.single "string") })] }] })]
  fingerprint := ""

theorem not_exacting_belated : ¬ (of GeneratorSettings.defaults belated).Exacting := by
  intro exacting
  have optional : ∃ m ∈ (of GeneratorSettings.defaults belated).run.models, m.name = "Trip" ∧
      ∃ p ∈ m.allProperties, p.baseName = "start" ∧ p.required = false := by decide +kernel
  obtain ⟨m, known, named, p, listed, same, unmarked⟩ := optional
  have begins : (of GeneratorSettings.defaults belated).Begins "Trip" { allOf := some [{ required := ["start"] },
      { properties := [("start", { type := some (.single "string") })] }] } := begins_of_digitless rfl (by decide)
  rw [← named] at begins
  have required := (exacting m known _ begins (List.cons_ne_nil _ _) p listed).mpr
    (.inr (.inr ⟨_, List.mem_cons_self, by rw [same]; exact List.mem_cons_self⟩))
  rw [unmarked] at required
  cases required

end Project
end ApiModels
