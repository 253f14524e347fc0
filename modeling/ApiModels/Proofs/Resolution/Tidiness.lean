import ApiModels.Proofs.Model.Twins
import ApiModels.Proofs.Report.InheritedViews
import ApiModels.Proofs.Resolution.Standards

namespace ApiModels
namespace Model

theorem Fresh.settled {name : String} {m : Model} (fresh : m.Fresh name) : m.Settled where
  own := by simp [ownNames, fresh.own]
  all := by simp [propertyNames, fresh.all]
  marked p listed := by simp [fresh.own, fresh.all] at listed

theorem tidies : Declaring fun m next => m.Tidy → next.Tidy where
  refl _ tidy := tidy
  trans first second tidy := second (first tidy)
  declare _ _ tidy := ⟨upsert_nodup tidy.own, upsert_nodup tidy.all⟩
  requireName _ _ _ tidy := ⟨tidy.own, tidy.all⟩
  refresh _ tidy := refresh_tidy tidy

theorem adopt_tidy {m : Model} {parents : List Model} (tidy : m.Tidy) (elders : ∀ parent ∈ parents, parent.Tidy) :
    (m.adopt parents).Tidy :=
  adopt_keeps (fun _ tidy => ⟨tidy.own, tidy.all⟩) extend_tidy tidy elders

theorem Settled.addMember {m : Model} (settled : m.Settled) (child : String) : m.Keeps (m.addMember child) :=
  ⟨.of_addMember m child, ⟨settled.own, settled.all⟩, settled.marked⟩

theorem Settled.addInterface {m : Model} (settled : m.Settled) (union : String) : m.Keeps (m.addInterface union) :=
  ⟨.of_addInterface m union, ⟨settled.own, settled.all⟩, settled.marked⟩

theorem Settled.implement {m : Model} (settled : m.Settled) (link : PendingLink) : m.Keeps (Cache.implement m link) :=
  (settled.addInterface link.parent).trans ((settled.addInterface link.parent).settled.addImports [link.parentClass])

theorem Keeps.lasting (settings : GeneratorSettings) : Lasting settings Keeps where
  member child kept := kept.trans (kept.settled.addMember child)
  linked link kept := kept.trans (kept.settled.implement link)
  completed kept := kept.trans (kept.settled.complete settings)
  shown union kept := ⟨(Twins.of_addInterface _ union).symm.trans kept.twins, kept.settled⟩

end Model

namespace Drafting
variable {project : Project}

theorem declare_marked {properties : List (String × Schema)} {required : List String} {d next : Draft}
    (ran : declare project properties required d = .ok () next) : next.model.Marked := by
  obtain ⟨_, _, _, ran⟩ := bind_ok.mp ran
  obtain ⟨_, declared, _, ran⟩ := bind_ok.mp ran
  cases ran
  exact Model.refresh_marked declared.model

theorem reportBranches_model {s : Schema} {d next : Draft} (ran : reportBranches s d = .ok () next) :
    next.model = d.model := by
  unfold reportBranches at ran
  split at ran
  · cases ran
    rfl
  · split at ran <;> cases ran <;> rfl

theorem groundwork_marked {target : Schema} {parents : List Model} {d next : Draft} (marked : d.model.Marked)
    (ran : groundwork project target parents d = .ok () next) : next.model.Marked := by
  unfold groundwork at ran
  split at ran
  · obtain ⟨_, _, _, ran⟩ := bind_ok.mp ran
    obtain ⟨_, _, declared, ran⟩ := bind_ok.mp ran
    obtain ⟨_, reported, reports, ran⟩ := bind_ok.mp ran
    obtain ⟨session, announced, -⟩ := announce_run target reported
    cases announced.symm.trans ran
    exact (reportBranches_model reports).symm ▸ declare_marked declared
  · change (if d.model.isAlias then _ else declare project target.properties target.required) d = _ at ran
    split at ran
    · split at ran <;> cases ran <;> exact marked
    · exact declare_marked ran

theorem groundwork_settled {name : String} {target : Schema} {parents : List Model} {d next : Draft}
    (fresh : d.model.Fresh name) (alone : target.allOfMembers = [] → parents = [])
    (elders : ∀ parent ∈ parents, parent.Tidy) (ran : groundwork project target parents d = .ok () next) :
    next.model.Settled :=
  ⟨groundwork_moves (Model.tidies.admitting project) alone ran (Model.adopt_tidy fresh.settled.toTidy elders),
    groundwork_marked fresh.settled.marked ran⟩

end Drafting

theorem Model.Settled.standard (project : Project) : Standard project Settled where
  fresh fresh := fresh.settled
  ground fresh alone elders ran :=
    Drafting.groundwork_settled fresh alone (fun parent listed => (elders parent listed).toTidy) ran
  member child settled := (settled.addMember child).settled
  shown union settled := (settled.addInterface union).settled
  linked link settled := (settled.implement link).settled
  completed settled := (settled.complete project.settings).settled

namespace Progress
variable {project : Project} {k : Progress}

theorem Passes.orderly (passes : Passes project k) : Upholds Model.Settled k :=
  passes.upholds (Model.Settled.standard project).criterion

theorem Endures.keeps (project : Project) : Endures project Model.Keeps where
  toLasting := Model.Keeps.lasting project.settings
  drafts passes build under m rest stage := by
    have orderly := passes.orderly.builds build under
    rw [stage] at orderly
    exact ⟨.refl m, orderly⟩
  models passes name m ready := ⟨.refl m, passes.orderly.models name _ m ready rfl⟩

end Progress
end ApiModels
