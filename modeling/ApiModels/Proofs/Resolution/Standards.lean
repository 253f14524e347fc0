import ApiModels.Proofs.Resolution.Courses

namespace ApiModels

structure PendingLink.Genuine (project : Project) (link : PendingLink) : Prop where
  parentClass : link.parentClass = project.naming.modelName link.parent
  begun : ∃ written, project.Begins link.parent written

-- What the run asks of a standard for its models.
structure Model.Criterion (project : Project) (P : Model → Prop) : Prop where
  opened : ∀ {name : String} {written target : Schema} {m : Model}, project.Begins name written →
    project.Opens name written target m → P m
  ground : ∀ {name : String} {written target : Schema} {outlined : Model} {parents : List Model} {s : Session} {next : Draft},
    project.Opens name written target outlined → P outlined → (target.allOfMembers = [] → parents = []) →
    (∀ parent ∈ parents, P parent) → Drafting.groundwork project target parents ⟨s, outlined⟩ = .ok () next → P next.model
  member : ∀ {m : Model} (child : String), P m → P (m.addMember child)
  shown : ∀ {m : Model} (union : String), P m → P (m.addInterface union)
  linked : ∀ {m : Model} (link : PendingLink), link.Genuine project → P m → P (Cache.implement m link)
  completed : ∀ {m : Model}, P m → P (m.complete project.settings)

structure Model.Invariant (project : Project) (P : Model → Prop) : Prop where
  opened : ∀ {name : String} {written target : Schema} {m : Model}, project.Begins name written →
    project.Opens name written target m → P m
  collapsed : ∀ {m : Model} (names : List String), P m → P { m with collapsedParents := names }
  extended : ∀ {m parent : Model}, P m → P parent → P (m.extend parent)
  declared : ∀ {m : Model} (p : Property), project.Makes p → P m → P (m.declare p)
  required : ∀ {m : Model} (name : String), (m.property? name).isSome → P m → P (m.requireName name)
  refreshed : ∀ {m : Model}, P m → P m.refresh
  member : ∀ {m : Model} (child : String), P m → P (m.addMember child)
  shown : ∀ {m : Model} (union : String), P m → P (m.addInterface union)
  linked : ∀ {m : Model} (link : PendingLink), link.Genuine project → P m → P (Cache.implement m link)
  completed : ∀ {m : Model}, P m → P (m.complete project.settings)

theorem Model.Invariant.criterion {project : Project} {P : Model → Prop} (law : Invariant project P) :
    Criterion project P where
  opened := law.opened
  ground _ holds alone elders ran := by
    have moves : Admitting project fun m next => P m → P next := {
      refl := fun _ => id
      trans := fun first second holds => second (first holds)
      declare := fun _ p makes => law.declared p makes
      requireName := fun _ name known => law.required name known
      refresh := fun _ => law.refreshed }
    exact Drafting.groundwork_moves moves alone ran (Model.adopt_keeps law.collapsed law.extended holds elders)
  member := law.member
  shown := law.shown
  linked := law.linked
  completed := law.completed

-- What asks nothing of the schemas and of the links.
structure Model.Standard (project : Project) (P : Model → Prop) : Prop where
  fresh : ∀ {name : String} {m : Model}, m.Fresh name → P m
  ground : ∀ {name : String} {target : Schema} {parents : List Model} {d next : Draft}, d.model.Fresh name →
    (target.allOfMembers = [] → parents = []) → (∀ parent ∈ parents, P parent) →
    Drafting.groundwork project target parents d = .ok () next → P next.model
  member : ∀ {m : Model} (child : String), P m → P (m.addMember child)
  shown : ∀ {m : Model} (union : String), P m → P (m.addInterface union)
  linked : ∀ {m : Model} (link : PendingLink), P m → P (Cache.implement m link)
  completed : ∀ {m : Model}, P m → P (m.complete project.settings)

theorem Project.Opens.fresh {project : Project} {name : String} {written target : Schema} {outlined : Model}
    (opens : project.Opens name written target outlined) : outlined.Fresh name := by
  obtain ⟨s, next, opened⟩ := opens
  exact (Resolution.opening_ok opened).2.1

theorem Model.Standard.criterion {project : Project} {P : Model → Prop} (law : Standard project P) :
    Criterion project P where
  opened _ opens := law.fresh opens.fresh
  ground opens _ alone elders ran := law.ground opens.fresh alone elders ran
  member := law.member
  shown := law.shown
  linked link _ := law.linked link
  completed := law.completed

def Stage.Meets (P : Model → Prop) : Stage → Prop
  | .opening => True
  | .inheriting _ _ parents _ => ∀ parent ∈ parents, P parent
  | .linking m _ => P m

namespace Progress
variable {project : Project} {P : Model → Prop} {k next : Progress}

theorem Linked.begun (after : Passes project next) {parent child : String} (linked : next.Linked parent child) :
    ∃ written, project.Begins parent written := by
  obtain ⟨build, under, rfl, -⟩ := linked
  exact ⟨_, (after.accounted.sound build under).begun⟩

theorem Passes.genuine (passes : Passes project k) {child : String} {link : PendingLink}
    (waits : link ∈ k.cache.linksOf child) : link.Genuine project := by
  refine passes.induction (P := fun k => ∀ child, ∀ link ∈ k.cache.linksOf child, link.Genuine project)
    (fun _ _ none => nomatch none) ?_ child link waits
  intro k next before after step genuine child link waits
  rcases step.waits before.coherent waits with old | ⟨linked, named⟩
  · exact genuine child link old
  · exact ⟨named, linked.begun after⟩

structure Upholds (P : Model → Prop) (k : Progress) : Prop where
  models : k.cache.Each fun _ m => P m
  builds : ∀ build ∈ k.builds, build.stage.Meets P

theorem Upholds.grounds {session : Session} {name : String} {written target : Schema} {outlined : Model}
    {parents : List Model} {below : List Build} {waiting : List (String × Schema)} {after : Draft}
    (law : Model.Criterion project P)
    (upholds : Upholds P ⟨session, ⟨name, written, .inheriting target outlined parents []⟩ :: below, waiting⟩)
    (passes : Passes project ⟨session, ⟨name, written, .inheriting target outlined parents []⟩ :: below, waiting⟩)
    (settled : Drafting.groundwork project target parents ⟨session, outlined⟩ = .ok () after) : P after.model := by
  have gathers : project.Gathers name written target outlined parents := ⟨_, _, passes, rfl⟩
  have met : P outlined := law.opened (passes.accounted.sound _ List.mem_cons_self).begun gathers.opens
  exact law.ground gathers.opens met gathers.alone (upholds.builds _ List.mem_cons_self) settled

theorem Upholds.step (law : Model.Criterion project P) (before : Passes project k) (upholds : Upholds P k)
    (step : Step project k next) : Upholds P next where
  builds build under := by
    have top {build : Build} {below : List Build} (same : k.builds = build :: below) : build.stage.Meets P :=
      upholds.builds build (same ▸ List.mem_cons_self)
    cases step.moved under with
    | stayed old => exact upholds.builds build old
    | begun => trivial
    | opened => exact fun _ none => absurd none List.not_mem_nil
    | @inherited name written target s outlined parent parents request rest below same known answered =>
        intro elder listed
        rcases List.mem_append.mp listed with old | new
        · exact top same elder old
        · exact List.mem_singleton.mp new ▸ upholds.models.lookup answered
    | settled same ground =>
        obtain ⟨session, builds, waiting⟩ := k
        cases same
        exact upholds.grounds law before ground
    | linked same => exact law.member _ (top same)
  models := by
    cases step with
    | begin => exact upholds.models.begin _
    | reuse => exact upholds.models
    | opened opened =>
        have begun := (before.accounted.sound _ List.mem_cons_self).begun
        rw [cache, (Resolution.opening_ok opened).2.2]
        exact upholds.models.publish (law.opened begun ⟨_, _, opened⟩)
    | inherit => exact upholds.models
    | settle settled =>
        rw [cache, (Drafting.groundwork_ok settled).2]
        split
        · exact upholds.models
        · exact upholds.models.publish (upholds.grounds law before settled)
    | @link session name =>
        have genuine : PendingLink.Genuine project ⟨name, project.naming.modelName name⟩ :=
          ⟨rfl, _, (before.accounted.sound _ List.mem_cons_self).begun⟩
        exact upholds.models.registerInterface (law.shown _) (law.linked _ genuine)
    | @close session name written m =>
        have draft : P m := upholds.builds _ List.mem_cons_self
        exact upholds.models.finish (law.completed draft) fun link waits => law.linked link (before.genuine waits)
    | @fail session after build below waiting e fault =>
        change Cache.Each _ (after.cache.fail build.name e)
        rw [fault.cache]
        exact upholds.models.fail build.name e

theorem Passes.upholds (passes : Passes project k) (law : Model.Criterion project P) : Upholds P k :=
  passes.induction (P := Upholds P) ⟨fun _ _ _ found => (nomatch found), fun _ under => (nomatch under)⟩
    fun _ _ before _ step upholds => upholds.step law before step

end Progress

theorem Model.Criterion.of_model {project : Project} {P : Model → Prop} (law : Criterion project P) {m : Model}
    (known : m ∈ project.run.models) : P m :=
  ((Progress.passes_done project).upholds law).models m.name _ m (project.mem_run_models.mp known) rfl

end ApiModels
