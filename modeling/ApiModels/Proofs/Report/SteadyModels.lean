import ApiModels.Proofs.Report.ParentLines
import ApiModels.Proofs.Report.SteadyRuns

namespace ApiModels
namespace Project
variable {project : Project}

theorem parentName_apart (steady : project.Steady) (analysed : project.inheritance = .ofDocument project.document)
    {m : Model} (known : m ∈ project.run.models) : m.parentName ≠ some m.name := by
  intro self
  obtain ⟨written, target, outlined, parents, begun, gathers, asked⟩ := asks_parent known self
  have needs : project.Needs m.name written (.reference m.name) :=
    ⟨target, outlined, gathers.opens, List.mem_append_left _ asked⟩
  obtain ⟨answer, k, passes, -, ⟨s, held⟩, -⟩ := gathers.bequeaths asked
  obtain rfl := needs.schema steady begun held begun
  exact not_descends_of_model analysed known (.single (gathers.inherits held asked))

end Project

namespace Progress
variable {project : Project} {k next : Progress} {name : String} {written : Schema} {m : Model}

-- The model has the properties that the schema amounts to.
def Carries (project : Project) (name : String) (written : Schema) (m : Model) : Prop :=
  ∃ settled, project.Amounts name written settled ∧ settled.Keeps m

structure Foretold (project : Project) (k : Progress) : Prop where
  drafts : ∀ build ∈ k.builds, ∀ m rest, build.stage = .linking m rest → build.name ∉ project.run.failed →
    Carries project build.name build.written m
  models : ∀ name m, k.cache.entries.get? name = some (.ready m) → ∀ written, project.Begins name written →
    Carries project name written m

theorem Supplied.amounts (foretold : Foretold project k) (passes : Passes project k)
    (supplied : k.Supplied Model.Keeps m name) (begins : project.Begins name written)
    (lives : name ∉ project.run.failed) : ∃ elder, project.Amounts name written elder ∧ m.Twins elder := by
  rcases supplied with ⟨other, ready, kept⟩ | ⟨e, failed⟩ | ⟨build, under, rfl, other, rest, stage, kept⟩
  · obtain ⟨elder, amounts, carried⟩ := foretold.models name other ready written begins
    exact ⟨elder, amounts, kept.twins.trans carried.twins.symm⟩
  · exact absurd (project.mem_run_failed.mpr ⟨e, passes.failed_done failed⟩) lives
  · cases (passes.accounted.sound build under).begun.unique begins
    obtain ⟨elder, amounts, carried⟩ := foretold.drafts build under other rest stage lives
    exact ⟨elder, amounts, kept.twins.trans carried.twins.symm⟩

variable (steady : project.Steady) (analysed : project.inheritance = .ofDocument project.document)
include steady analysed

theorem supplied_last {session : Session} {target : Schema} {outlined parent : Model} {parents : List Model}
    {below : List Build} {waiting : List (String × Schema)} {request : Request}
    (passes : Passes project ⟨session, ⟨name, written, .inheriting target outlined parents []⟩ :: below, waiting⟩)
    (lives : name ∉ project.run.failed) (last : target.parentRequests.getLast? = some request)
    (youngest : parents.getLast? = some parent) (named : parent.name = request.name) :
    Supplied Model.Keeps ⟨session, ⟨name, written, .inheriting target outlined parents []⟩ :: below, waiting⟩
      parent request.name := by
  have gathers : project.Gathers name written target outlined parents := ⟨_, _, passes, rfl⟩
  have begun : project.Begins name written := (passes.accounted.sound _ List.mem_cons_self).begun
  obtain ⟨m, listed, rfl, finishes⟩ := begun.finishes lives
  obtain ⟨other, reached, begun', led, -, -, parentName⟩ := finishes.described
  cases begun.unique begun'
  cases gathers.opens.led.symm.trans led
  rw [last, Option.map_some, ← named] at parentName
  have apart : parent.name ≠ m.name := fun same =>
    Project.parentName_apart steady analysed listed (parentName.trans (congrArg some same))
  rcases passes.gathered (.keeps project) _ _ _ _ _ _ _ (List.suffix_refl _) parent (List.mem_of_getLast? youngest)
    apart with supplied | ⟨-, resolving⟩
  · exact named ▸ supplied
  · exact absurd ⟨_, passes, _, _, _, _, _, rfl, resolving⟩ (steady.timely m listed parent.name parentName)

theorem settled_amounts {session : Session} {target : Schema} {outlined : Model} {parents : List Model}
    {below : List Build} {waiting : List (String × Schema)} {after : Draft}
    (passes : Passes project ⟨session, ⟨name, written, .inheriting target outlined parents []⟩ :: below, waiting⟩)
    (foretold : Foretold project ⟨session, ⟨name, written, .inheriting target outlined parents []⟩ :: below, waiting⟩)
    (lives : name ∉ project.run.failed)
    (ran : Drafting.groundwork project target parents ⟨session, outlined⟩ = .ok () after) :
    project.Amounts name written after.model := by
  have gathers : project.Gathers name written target outlined parents := ⟨_, _, passes, rfl⟩
  have grounds : project.Grounds target outlined parents after.model := ⟨session, after, ran, rfl⟩
  rcases gathers.last with ⟨last, rfl⟩ | ⟨request, parent, last, youngest, bequeaths⟩
  · exact .root gathers.opens last grounds
  · have begun : project.Begins name written := (passes.accounted.sound _ List.mem_cons_self).begun
    have needs : project.Needs name written request :=
      ⟨target, outlined, gathers.opens, List.mem_append_left _ (List.mem_of_getLast? last)⟩
    obtain ⟨final, ready⟩ := bequeaths.hands.ready steady
    obtain ⟨s, begins⟩ := Project.begun_of_found ready
    have named := bequeaths.hands.name
    obtain ⟨k, -, -, ⟨t, known⟩, -⟩ := bequeaths
    cases needs.schema steady begun known begins
    have supplied := supplied_last steady analysed passes lives last youngest named
    obtain ⟨elder, amounts, twins⟩ := supplied.amounts foretold passes begins
      (project.not_failed_of_model (Project.mem_models_names.mpr ⟨final, ready⟩))
    exact .child gathers.opens last known amounts youngest twins grounds

theorem Foretold.step (before : Passes project k) (after : Passes project next) (foretold : Foretold project k)
    (step : Step project k next) : Foretold project next where
  drafts build under m rest stage lives := by
    rcases step.linking_origin under stage with old | ⟨target, outlined, parents, below, settled, top, ground, rfl⟩ |
      ⟨draft, request, answer, linking, rfl, -, -⟩
    · exact foretold.drafts build old m rest stage lives
    · obtain ⟨session, builds, waiting⟩ := k
      cases top
      have orderly := after.orderly.builds build under
      rw [stage] at orderly
      exact ⟨settled.model, settled_amounts steady analysed before foretold lives ground, .refl _, orderly⟩
    · obtain ⟨settled, amounts, kept⟩ := foretold.drafts _ linking draft _ rfl lives
      exact ⟨settled, amounts, kept.trans (kept.settled.addMember _)⟩
  models name m ready written begins := by
    rcases before.coherent.ready step ready with old | ⟨m', link, old, rfl, -⟩ | ⟨other, draft, below, top, rfl⟩
    · exact foretold.models name m old written begins
    · obtain ⟨settled, amounts, kept⟩ := foretold.models name m' old written begins
      exact ⟨settled, amounts, kept.trans (kept.settled.implement link)⟩
    · have under : ⟨name, other, .linking draft []⟩ ∈ k.builds := top ▸ List.mem_cons_self
      cases (before.accounted.sound _ under).begun.unique begins
      obtain ⟨links, final⟩ := after.ready_done ready
      have lives := project.not_failed_of_model (Project.mem_models_names.mpr ⟨_, final⟩)
      obtain ⟨settled, amounts, kept⟩ := foretold.drafts _ under draft [] rfl lives
      exact ⟨settled, amounts, (Model.Keeps.lasting project.settings).finished _ kept⟩

theorem Passes.foretold (passes : Passes project k) : Foretold project k :=
  passes.induction (P := Foretold project) ⟨fun _ under => (nomatch under), fun _ _ found => (nomatch found)⟩
    fun _ _ before after step foretold => foretold.step steady analysed before after step

end Progress
end ApiModels
