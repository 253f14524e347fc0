import ApiModels.Proofs.Report.Failures
import ApiModels.Proofs.Report.UnionLinks
import ApiModels.Proofs.Resolution.Drafts
import ApiModels.Proofs.Resolution.Origins

namespace ApiModels
namespace Project

-- The run answers a request of the build of `asker` with a model.
def Hands (project : Project) (asker : String) (request : Request) (m : Model) : Prop :=
  ∃ k, Progress.Passes project k ∧ (∃ build below rest, k.builds = build :: below ∧ build.name = asker ∧
    build.stage.requests = request :: rest) ∧ (∃ s, request.schema? project.document = some s) ∧
    k.cache.lookup request.name = some (.ok m)

-- The run answers a build that still gathers its parents.
def Bequeaths (project : Project) (heir : String) (request : Request) (m : Model) : Prop :=
  ∃ k, Progress.Passes project k ∧ (∃ written target outlined parents rest below,
      k.builds = ⟨heir, written, .inheriting target outlined parents (request :: rest)⟩ :: below) ∧
    (∃ s, request.schema? project.document = some s) ∧ k.cache.lookup request.name = some (.ok m)

-- The run answers the request for an arm, and links the arm.
structure Takes (project : Project) (union : String) (request : Request) : Prop where
  handed : ∃ m, project.Hands union request m
  linked : project.Links union request.name

def Opens (project : Project) (name : String) (written target : Schema) (outlined : Model) : Prop :=
  ∃ s next, Resolution.opening project name written s = .ok (target, outlined) next

def Grounds (project : Project) (target : Schema) (outlined : Model) (parents : List Model) (settled : Model) : Prop :=
  ∃ s next, Drafting.groundwork project target parents ⟨s, outlined⟩ = .ok () next ∧ next.model = settled

-- The run comes to the moment at which the name takes over what it has gathered of its parents.
def Gathers (project : Project) (name : String) (written target : Schema) (outlined : Model)
    (parents : List Model) : Prop :=
  ∃ k below, Progress.Passes project k ∧ k.builds = ⟨name, written, .inheriting target outlined parents []⟩ :: below

def Settles (project : Project) (name : String) (written target : Schema) (parents : List Model)
    (settled : Model) : Prop :=
  ∃ outlined, project.Gathers name written target outlined parents ∧ project.Grounds target outlined parents settled

-- The ways in which the build of a name comes to nothing, when these requests are denied.
inductive Halts (project : Project) (denied : Request → Prop) (name : String) (written : Schema) : Prop where
  | opening {s next : Session} {e : ModelError} : Resolution.opening project name written s = .error e next →
      Halts project denied name written
  | parent {target : Schema} {outlined : Model} {request : Request} :
      project.Opens name written target outlined → request ∈ target.parentRequests → denied request →
      Halts project denied name written
  | ground {target : Schema} {outlined : Model} {parents : List Model} {s : Session} {next : Draft} {e : ModelError} :
      project.Opens name written target outlined →
      Drafting.groundwork project target parents ⟨s, outlined⟩ = .error e next → Halts project denied name written
  | arm {target : Schema} {parents : List Model} {settled : Model} {done rest : List Request} {request : Request} :
      project.Settles name written target parents settled → target.armRequests name = done ++ request :: rest →
      (∀ r ∈ done, project.Takes name r) → denied request → Halts project denied name written

theorem Halts.mono {project : Project} {denied more : Request → Prop} {name : String} {written : Schema}
    (halts : project.Halts denied name written) (grows : ∀ request, denied request → more request) :
    project.Halts more name written := by
  cases halts with
  | opening failed => exact .opening failed
  | parent opens listed refused => exact .parent opens listed (grows _ refused)
  | ground opens failed => exact .ground opens failed
  | arm settles split taken refused => exact .arm settles split taken (grows _ refused)

end Project

def Model.addMembers (m : Model) (requests : List Request) : Model :=
  requests.foldl (fun m request => m.addMember request.name) m

theorem Model.addMembers_retains (m : Model) (requests : List Request) : m.Retains (m.addMembers requests) := by
  induction requests generalizing m with
  | nil => exact retains.refl m
  | cons request rest ih =>
      have linked : m.Retains (m.addMember request.name) := ⟨⟨rfl, rfl, rfl, rfl⟩, rfl, rfl⟩
      exact retains.trans linked (ih (m.addMember request.name))

theorem Model.mem_addMembers {m : Model} {requests : List Request} {child : String} :
    child ∈ (m.addMembers requests).unionMembers ↔ child ∈ requests.map Request.name ∨ child ∈ m.unionMembers := by
  induction requests generalizing m with
  | nil => simp [addMembers]
  | cons request rest ih =>
      change child ∈ ((m.addMember request.name).addMembers rest).unionMembers ↔ _
      rw [ih, addMember, mem_link, List.map_cons, List.mem_cons]
      tauto

-- What the stage of a build rests on.
def Build.Traced (project : Project) (build : Build) : Prop :=
  match build.stage with
  | .opening => True
  | .inheriting target outlined parents rest => project.Opens build.name build.written target outlined ∧
      ∃ done, target.parentRequests = done ++ rest ∧ List.Forall₂ (project.Bequeaths build.name) done parents
  | .linking m rest => ∃ target parents settled, project.Settles build.name build.written target parents settled ∧
      ∃ done, target.armRequests build.name = done ++ rest ∧
        (∀ r ∈ done, project.Takes build.name r) ∧ m = settled.addMembers done

theorem Build.Traced.inheriting {project : Project} {build : Build} {target : Schema} {outlined : Model}
    {parents : List Model} {rest : List Request} (traced : build.Traced project)
    (stage : build.stage = .inheriting target outlined parents rest) :
    project.Opens build.name build.written target outlined ∧
      ∃ done, target.parentRequests = done ++ rest ∧ List.Forall₂ (project.Bequeaths build.name) done parents := by
  unfold Build.Traced at traced
  rw [stage] at traced
  exact traced

theorem Build.Traced.linking {project : Project} {build : Build} {m : Model} {rest : List Request}
    (traced : build.Traced project) (stage : build.stage = .linking m rest) :
    ∃ target parents settled, project.Settles build.name build.written target parents settled ∧
      ∃ done, target.armRequests build.name = done ++ rest ∧
        (∀ r ∈ done, project.Takes build.name r) ∧ m = settled.addMembers done := by
  unfold Build.Traced at traced
  rw [stage] at traced
  exact traced

-- What a finished model was made of.
def Project.Finishes (project : Project) (name : String) (m : Model) : Prop :=
  ∃ written target parents settled, project.Begins name written ∧
    project.Settles name written target parents settled ∧
    (∀ r ∈ target.armRequests name, project.Takes name r) ∧
    ∃ links : List PendingLink, m =
      links.foldl Cache.implement ((settled.addMembers (target.armRequests name)).complete project.settings)

namespace Progress
variable {project : Project} {k next : Progress}

theorem Traced.step (before : Passes project k) (after : Passes project next) (traced : ∀ build ∈ k.builds, build.Traced project)
    (step : Step project k next) : ∀ build ∈ next.builds, build.Traced project := by
  intro build under
  have top {inner : Build} {below : List Build} (same : k.builds = inner :: below) : inner.Traced project :=
    traced inner (same ▸ List.mem_cons_self)
  cases step.moved under with
  | stayed old => exact traced build old
  | begun asks shape => trivial
  | opened same opened => exact ⟨⟨_, _, opened⟩, [], rfl, .nil⟩
  | @inherited name written target s outlined parent parents request rest below same known answered =>
      obtain ⟨opens, done, split, handed⟩ := (top same).inheriting rfl
      refine ⟨opens, done ++ [request], by simp [split], List.rel_append handed ?_⟩
      exact .cons ⟨k, before, ⟨_, _, _, _, _, _, same⟩, ⟨s, known⟩, answered⟩ .nil
  | @settled name written target outlined parents draft below same settled =>
      refine ⟨target, parents, draft.model, ⟨outlined, ⟨k, below, before, same⟩, _, _, settled, rfl⟩, [], rfl, ?_, rfl⟩
      exact fun _ none => absurd none List.not_mem_nil
  | @linked name written s m child request rest below same known answered kept =>
      obtain ⟨target, parents, settled, settles, done, split, handed, rfl⟩ := (top same).linking rfl
      refine ⟨target, parents, settled, settles, done ++ [request], by simp [split], ?_, by simp [Model.addMembers]⟩
      intro r listed
      rcases List.mem_append.mp listed with old | new
      · exact handed r old
      · cases List.mem_singleton.mp new
        refine ⟨⟨child, k, before, ⟨_, _, _, same, rfl, rfl⟩, ⟨s, known⟩, answered⟩, next, after, _, under, rfl, _, _, rfl, ?_⟩
        exact (Model.mem_link _ _ _).mpr (.inl rfl)

theorem Passes.traced (passes : Passes project k) : ∀ build ∈ k.builds, build.Traced project :=
  passes.induction (P := fun k => ∀ build ∈ k.builds, build.Traced project) (fun _ under => nomatch under)
    fun _ _ before after step traced => Traced.step before after traced step

theorem Passes.ready_done {name : String} {m : Model} (passes : Passes project k)
    (ready : k.cache.entries.get? name = some (.ready m)) :
    ∃ links : List PendingLink, project.resolveAll.cache.entries.get? name = some (.ready (links.foldl Cache.implement m)) := by
  refine passes.onward (P := fun k => ∃ links : List PendingLink,
    k.cache.entries.get? name = some (.ready (links.foldl Cache.implement m))) ⟨[], ready⟩ ?_
  rintro k next before - step ⟨links, found⟩
  rcases before.coherent.keeps step found rfl with kept | ⟨link, -, kept⟩
  · exact ⟨links, kept⟩
  · exact ⟨links ++ [link], by simpa [CacheEntry.linked] using kept⟩

theorem Passes.failed_done {name : String} {e : ModelError} (passes : Passes project k)
    (failed : k.cache.entries.get? name = some (.failed e)) :
    project.resolveAll.cache.entries.get? name = some (.failed e) :=
  passes.onward (P := fun k => k.cache.entries.get? name = some (.failed e)) failed
    fun _ _ before _ step failed => before.coherent.keeps_failure step failed

theorem Passes.finishes (passes : Passes project k) {name : String} {m : Model}
    (ready : k.cache.entries.get? name = some (.ready m)) : project.Finishes name m := by
  refine passes.induction (P := fun k => ∀ name m, k.cache.entries.get? name = some (.ready m) →
    project.Finishes name m) (fun _ _ found => nomatch found) ?_ name m ready
  intro k next before _ step finishes name m ready
  rcases before.coherent.ready step ready with old | ⟨m', link, old, rfl, -⟩ | ⟨written, draft, below, top, rfl⟩
  · exact finishes name m old
  · obtain ⟨written, target, parents, settled, begun, settles, handed, links, rfl⟩ := finishes name m' old
    exact ⟨written, target, parents, settled, begun, settles, handed, links ++ [link], by simp⟩
  · have under : ⟨name, written, .linking draft []⟩ ∈ k.builds := top ▸ List.mem_cons_self
    obtain ⟨target, parents, settled, settles, done, split, handed, rfl⟩ := before.traced _ under
    rw [List.append_nil] at split
    exact ⟨written, target, parents, settled, (before.accounted.sound _ under).begun, settles, split ▸ handed, _,
      by rw [split]⟩

def Denied (project : Project) (k : Progress) (request : Request) : Prop :=
  request.schema? project.document = none ∨ ∃ e, k.cache.entries.get? request.name = some (.failed e)

theorem Fault.halts {session after : Session} {build : Build} {below : List Build} {waiting : List (String × Schema)}
    {e : ModelError} (passes : Passes project ⟨session, build :: below, waiting⟩)
    (fault : Fault project session build e after) :
    project.Halts (Denied project ⟨session, build :: below, waiting⟩) build.name build.written := by
  have traced := passes.traced build List.mem_cons_self
  have denied {request : Request} {rest : List Request} (head : build.stage.requests = request :: rest)
      (denies : Denied project ⟨session, build :: below, waiting⟩ request) :
      project.Halts (Denied project ⟨session, build :: below, waiting⟩) build.name build.written := by
    cases stage : build.stage with
    | opening => simp [stage, Stage.requests] at head
    | inheriting target outlined parents rest =>
        obtain ⟨opens, done, split, -⟩ := traced.inheriting stage
        rw [stage] at head
        cases head
        exact .parent opens (split ▸ List.mem_append_right _ List.mem_cons_self) denies
    | linking m rest =>
        obtain ⟨target, parents, settled, settles, done, split, handed, -⟩ := traced.linking stage
        rw [stage] at head
        cases head
        exact .arm settles split handed denies
  cases fault with
  | opening _ failed => exact .opening failed
  | missing head absent => exact denied head (.inl absent)
  | refused head known answered =>
      rcases Cache.lookup_error.mp answered with failed | ⟨pending, -⟩
      · exact denied head (.inr ⟨_, failed⟩)
      · exact absurd (Cache.phase?_of_get? pending) (passes.coherent.not_pending (head ▸ List.cons_ne_nil _ _) _)
  | settling stage failed => exact .ground (traced.inheriting stage).1 failed

theorem Passes.halts (passes : Passes project k) {name : String} {e : ModelError}
    (failed : k.cache.entries.get? name = some (.failed e)) :
    ∃ written, project.Begins name written ∧ project.Halts (Denied project (done project)) name written := by
  refine passes.induction (P := fun k => ∀ name e, k.cache.entries.get? name = some (.failed e) →
    ∃ written, project.Begins name written ∧ project.Halts (Denied project (done project)) name written)
    (fun _ _ found => nomatch found) ?_ name e failed
  intro k next before _ step halts name e failed
  rcases before.coherent.failed step failed with old | ⟨build, below, after, top, rfl, fault⟩
  · exact halts name e old
  · obtain ⟨session, builds, waiting⟩ := k
    cases top
    refine ⟨build.written, (before.accounted.sound build List.mem_cons_self).begun, (fault.halts before).mono ?_⟩
    exact fun request denied => denied.imp id fun ⟨e, failed⟩ => ⟨e, before.failed_done failed⟩

def Borrowed (k : Progress) (asker : String) (request : Request) : Prop :=
  (∃ build below rest, k.builds = build :: below ∧ build.name = asker ∧ build.stage.requests = request :: rest) ∧
    request.name ∈ k.buildNames

end Progress

namespace Project
variable {project : Project} {asker : String} {request : Request} {m : Model}

-- The run hands a placeholder to the build of `asker`.
def Borrows (project : Project) (asker : String) (request : Request) : Prop :=
  ∃ k, Progress.Passes project k ∧ k.Borrowed asker request

theorem Bequeaths.hands (bequeaths : project.Bequeaths asker request m) : project.Hands asker request m := by
  obtain ⟨k, passes, ⟨written, target, outlined, parents, rest, below, top⟩, known, answered⟩ := bequeaths
  exact ⟨k, passes, ⟨_, below, rest, top, rfl, rfl⟩, known, answered⟩

-- What is handed over is the finished model, but for the links that are still to come, or a placeholder.
theorem Hands.kept_or_borrows (hands : project.Hands asker request m) :
    (∃ links : List PendingLink,
      project.resolveAll.cache.entries.get? request.name = some (.ready (links.foldl Cache.implement m))) ∨
      project.Borrows asker request := by
  obtain ⟨k, passes, top, -, answered⟩ := hands
  rcases Cache.lookup_ok.mp answered with ready | building
  · exact .inl (passes.ready_done ready)
  · have under := passes.coherent.ended _ _ (Cache.phase?_of_get? building)
    exact .inr ⟨k, passes, top, under.resolve_right (by simp [CacheEntry.phase])⟩

theorem Hands.ready_or_borrows (hands : project.Hands asker request m) :
    (∃ final, project.resolveAll.cache.entries.get? request.name = some (.ready final)) ∨
      project.Borrows asker request :=
  hands.kept_or_borrows.imp_left fun ⟨_, found⟩ => ⟨_, found⟩

theorem Hands.name (hands : project.Hands asker request m) : m.name = request.name := by
  obtain ⟨k, passes, -, -, answered⟩ := hands
  rcases Cache.lookup_ok.mp answered with found | found <;> exact passes.coherent.named _ _ m found rfl

theorem Hands.known (hands : project.Hands asker request m) :
    ∃ entry, project.resolveAll.cache.entries.get? request.name = some entry ∧ entry.isFinal := by
  obtain ⟨k, passes, -, -, answered⟩ := hands
  obtain ⟨entry, found⟩ := Option.ne_none_iff_exists'.mp
    (Cache.mem_names_iff.mp (passes.2.names (Cache.mem_names_of_lookup answered)))
  exact ⟨entry, found, project.final_done found⟩

theorem Bequeaths.names {requests : List Request} {parents : List Model}
    (handed : List.Forall₂ (project.Bequeaths asker) requests parents) :
    parents.map (·.name) = requests.map Request.name := by
  induction handed with
  | nil => rfl
  | cons bequeaths _ ih => simp only [List.map_cons, bequeaths.hands.name, ih]

theorem Opens.led {name : String} {written target : Schema} {outlined : Model}
    (opens : project.Opens name written target outlined) : project.document.unalias written = .ok target := by
  obtain ⟨_, _, opened⟩ := opens
  exact (Resolution.opening_ok opened).1

theorem Gathers.opens {name : String} {written target : Schema} {outlined : Model} {parents : List Model}
    (gathers : project.Gathers name written target outlined parents) : project.Opens name written target outlined := by
  obtain ⟨k, below, passes, top⟩ := gathers
  have traced := passes.traced ⟨name, written, .inheriting target outlined parents []⟩ (top ▸ List.mem_cons_self)
  exact (traced.inheriting rfl).1

theorem Gathers.handed {name : String} {written target : Schema} {outlined : Model} {parents : List Model}
    (gathers : project.Gathers name written target outlined parents) :
    List.Forall₂ (project.Bequeaths name) target.parentRequests parents := by
  obtain ⟨k, below, passes, top⟩ := gathers
  have traced := passes.traced ⟨name, written, .inheriting target outlined parents []⟩ (top ▸ List.mem_cons_self)
  obtain ⟨-, done, split, handed⟩ := traced.inheriting rfl
  rw [List.append_nil] at split
  exact split ▸ handed

theorem Gathers.bequeaths {name : String} {written target : Schema} {outlined : Model} {parents : List Model}
    (gathers : project.Gathers name written target outlined parents) (listed : request ∈ target.parentRequests) :
    ∃ parent, project.Bequeaths name request parent := by
  have handed := gathers.handed
  obtain ⟨position, bound, here⟩ := List.getElem_of_mem listed
  have bequeaths := handed.get bound (handed.length_eq ▸ bound)
  rw [List.get_eq_getElem, here] at bequeaths
  exact ⟨_, bequeaths⟩

theorem Gathers.last {name : String} {written target : Schema} {outlined : Model} {parents : List Model}
    (gathers : project.Gathers name written target outlined parents) :
    target.parentRequests.getLast? = none ∧ parents = [] ∨
      ∃ request parent, target.parentRequests.getLast? = some request ∧ parents.getLast? = some parent ∧
        project.Bequeaths name request parent := by
  have backwards := List.rel_reverse gathers.handed
  rw [← List.head?_reverse, ← List.head?_reverse, ← List.reverse_eq_nil_iff]
  generalize target.parentRequests.reverse = requests at backwards
  generalize parents.reverse = answers at backwards
  cases backwards with
  | nil => exact .inl ⟨rfl, rfl⟩
  | cons first _ => exact .inr ⟨_, _, rfl, rfl, first⟩

theorem Gathers.alone {name : String} {written target : Schema} {outlined : Model} {parents : List Model}
    (gathers : project.Gathers name written target outlined parents) (memberless : target.allOfMembers = []) :
    parents = [] := by
  have handed := gathers.handed
  rw [Schema.parentRequests, memberless] at handed
  cases handed
  rfl

theorem Settles.described {name : String} {written target : Schema} {parents : List Model} {settled : Model}
    (settles : project.Settles name written target parents settled) :
    project.document.unalias written = .ok target ∧ settled.lineage = target.parentRequests.map Request.name ∧
      settled.modelJson = written.prettyText ∧
      settled.parentName = target.parentRequests.getLast?.map Request.name := by
  obtain ⟨outlined, gathers, ⟨t, last, ran, rfl⟩⟩ := settles
  obtain ⟨s, next, opened⟩ := gathers.opens
  have outlines := Resolution.opening_described opened
  have kept : (outlined.adopt parents).Retains last.model :=
    Drafting.groundwork_moves (Model.retains.admitting project) gathers.alone ran
  refine ⟨(Resolution.opening_ok opened).1, ?_, ?_, ?_⟩
  · rw [kept.lineage, Model.adopt_lineage outlines.lineage, Bequeaths.names gathers.handed]
  · rw [kept.modelJson, (Model.adopt_sameOutline outlined parents).modelJson, outlines.modelJson]
  · rw [kept.parentName, Model.adopt_parentName outlines.lineage, ← List.getLast?_map, Bequeaths.names gathers.handed,
      List.getLast?_map]

theorem Settles.unionMembers {name : String} {written target : Schema} {parents : List Model} {settled : Model}
    (settles : project.Settles name written target parents settled) : settled.unionMembers = [] := by
  obtain ⟨outlined, ⟨k, below, passes, top⟩, ⟨t, last, ran, rfl⟩⟩ := settles
  have sound := passes.accounted.sound ⟨name, written, .inheriting target outlined parents []⟩
    (top ▸ List.mem_cons_self)
  exact (Drafting.groundwork_ok ran).1.unionMembers.trans sound.drafted.unionMembers

def Composes (project : Project) (name : String) (target : Schema) : Prop :=
  ∃ written, project.Begins name written ∧ project.document.unalias written = .ok target

theorem Composes.unique {name : String} {s t : Schema} (one : project.Composes name s)
    (two : project.Composes name t) : s = t := by
  obtain ⟨written, begun, led⟩ := one
  obtain ⟨other, begun', led'⟩ := two
  cases begun.unique begun'
  cases led.symm.trans led'
  rfl

theorem Finishes.described {name : String} (finishes : project.Finishes name m) :
    ∃ written target, project.Begins name written ∧ project.document.unalias written = .ok target ∧
      m.lineage = target.parentRequests.map Request.name ∧ m.modelJson = written.prettyText ∧
      m.parentName = target.parentRequests.getLast?.map Request.name := by
  obtain ⟨written, target, parents, settled, begun, settles, -, links, rfl⟩ := finishes
  obtain ⟨led, lineage, json, parentName⟩ := settles.described
  have kept := Model.retains.trans (Model.addMembers_retains settled (target.armRequests name)) <|
    Model.retains.trans (Model.complete_retains project.settings _) (Model.implement_retains _ links)
  exact ⟨written, target, begun, led, kept.lineage.trans lineage, kept.modelJson.trans json,
    kept.parentName.trans parentName⟩

theorem Finishes.completed {name : String} (finishes : project.Finishes name m) :
    ∃ (draft : Model) (links : List PendingLink), m = links.foldl Cache.implement (draft.complete project.settings) := by
  obtain ⟨written, target, parents, settled, -, -, -, links, made⟩ := finishes
  exact ⟨_, links, made⟩

theorem Finishes.mem_members {name child : String} {target : Schema} (finishes : project.Finishes name m)
    (composes : project.Composes name target) :
    child ∈ m.unionMembers ↔ child ∈ (target.armRequests name).map Request.name := by
  obtain ⟨written, other, parents, settled, begun, settles, -, links, rfl⟩ := finishes
  cases composes.unique ⟨written, begun, settles.described.1⟩
  rw [(Cache.foldl_implement links _).1, (Model.complete_rearranges project.settings _).unionMembers,
    Model.mem_addMembers, settles.unionMembers]
  simp

end Project
end ApiModels
