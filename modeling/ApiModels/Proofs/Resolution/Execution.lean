import ApiModels.Proofs.Resolution.Progress

namespace ApiModels
namespace Schema

theorem armDepth_pos (s : Schema) : 0 < s.armDepth := by
  cases s
  simp [armDepth]

theorem armDepth_le_greatest {arm : Schema} {arms : List Schema} (listed : arm ∈ arms) :
    arm.armDepth ≤ greatestArmDepth arms := by
  induction arms with
  | nil => cases listed
  | cons head rest ih =>
      rcases List.mem_cons.mp listed with same | later
      · exact same ▸ Nat.le_max_left _ _
      · exact Nat.le_trans (ih later) (Nat.le_max_right _ _)

theorem armDepth_arm {s arm : Schema} (listed : arm ∈ s.oneOfArms) : arm.armDepth < s.armDepth := by
  have unfolds : s.armDepth = armDepthOfList s.oneOf + 1 := by
    cases s
    rfl
  rw [unfolds]
  unfold oneOfArms at listed
  cases arms : s.oneOf with
  | none => simp [arms] at listed
  | some arms' => exact Nat.lt_succ_of_le (armDepth_le_greatest (by simpa [arms] using listed))

end Schema

namespace Project

-- What the schemas cost that have not been asked for yet.
def costOf (known : List String) (entries : List (String × Schema)) : Nat :=
  entries.foldr (fun entry cost => (if entry.1 ∈ known then 0 else entry.2.armDepth) + cost) 0

def budget (project : Project) (known : List String) : Nat := costOf known project.document.schemas.entries

theorem costOf_mono {known more : List String} (grows : known ⊆ more) (entries : List (String × Schema)) :
    costOf more entries ≤ costOf known entries := by
  induction entries with
  | nil => exact Nat.le_refl _
  | cons head rest ih =>
      unfold costOf at ih ⊢
      simp only [List.foldr_cons]
      by_cases before : head.1 ∈ known
      · simpa [before, grows before] using ih
      · simp only [before, if_false]
        split <;> omega

theorem costOf_take {known : List String} {name : String} {s : Schema} {entries : List (String × Schema)}
    (listed : (name, s) ∈ entries) (fresh : name ∉ known) :
    s.armDepth + costOf (name :: known) entries ≤ costOf known entries := by
  induction entries with
  | nil => cases listed
  | cons head rest ih =>
      have shrinks := costOf_mono (List.subset_cons_self name known)
      rcases List.mem_cons.mp listed with same | later
      · subst same
        have below := shrinks rest
        unfold costOf at below ⊢
        simp only [List.foldr_cons, List.mem_cons_self, fresh, if_true, if_false]
        omega
      · have below := ih later
        have first := shrinks [head]
        unfold costOf at below first ⊢
        simp only [List.foldr_cons, List.foldr_nil] at first ⊢
        omega

variable {project : Project} {known : List String}

theorem budget_le_depthFor (s : Schema) : s.armDepth + project.budget known ≤ project.depthFor s := by
  unfold budget depthFor Table.values
  generalize project.document.schemas.entries = entries
  induction entries with
  | nil => exact Nat.le_refl _
  | cons head rest ih =>
      unfold costOf at ih ⊢
      simp only [List.map_cons, List.foldr_cons]
      split <;> omega

end Project
namespace Request

def resolve (project : Project) (resolver : Resolver) (requester : String) (request : Request) : Resolution Model :=
  match request.schema? project.document with
  | none => throw (.unresolvedReference requester request.name)
  | some s => (resolver request.name s).adaptExcept (request.blame requester)

theorem reference_eq (project : Project) (resolver : Resolver) (requester reference : String) :
    Resolution.reference project resolver requester reference =
      (Request.reference (refName reference)).resolve project resolver requester := by
  unfold Resolution.reference resolve
  dsimp only [schema?, name]
  cases project.document.get? (refName reference) with
  | none => rfl
  | some s =>
      dsimp only
      congr 1
      funext e
      cases e <;> rfl

theorem resolveArm_eq (project : Project) (resolver : Resolver) (parent : String) (index : Nat) (arm : Schema) :
    Drafting.resolveArm project resolver parent index arm = (do
      let _ ← (ofArm parent arm index).resolve project resolver parent
      return (ofArm parent arm index).name) := by
  unfold Drafting.resolveArm ofArm
  cases arm.reference with
  | none => rfl
  | some reference =>
      dsimp only
      rw [reference_eq]
      rfl

end Request

namespace Resolution

theorem drafted_ok {m settled : Model} {action : Drafting Unit} {session next : Session}
    (ran : drafted m action session = .ok settled next) :
    ∃ draft, action ⟨session, m⟩ = .ok () draft ∧ draft.model = settled ∧ draft.session = next := by
  unfold drafted at ran
  cases done : action ⟨session, m⟩ with
  | ok _ draft =>
      rw [done] at ran
      cases ran
      exact ⟨draft, rfl, rfl, rfl⟩
  | error e draft =>
      rw [done] at ran
      cases ran

theorem drafted_then (m : Model) (first : Drafting Unit) (second : Unit → Drafting Unit) :
    drafted m (first >>= second) = drafted m first >>= fun next => drafted next (second ()) := by
  funext session
  change drafted m (EStateM.bind first second) session = EStateM.bind _ _ session
  unfold drafted EStateM.bind
  dsimp only
  cases first ⟨session, m⟩ <;> rfl

theorem drafted_ofResolution {α : Type} (m : Model) (action : Resolution α) (rest : α → Drafting Unit) :
    drafted m (Drafting.ofResolution action >>= rest) = action >>= fun a => drafted m (rest a) := by
  funext session
  change drafted m (EStateM.bind _ rest) session = EStateM.bind _ _ session
  unfold drafted EStateM.bind Drafting.ofResolution
  cases action session <;> rfl

theorem drafted_model (m : Model) (rest : Model → Drafting Unit) :
    drafted m (Drafting.model >>= rest) = drafted m (rest m) := rfl

theorem drafted_edit (m : Model) (change : Model → Model) (rest : Unit → Drafting Unit) :
    drafted m (Drafting.edit change >>= rest) = drafted (change m) (rest ()) := rfl

theorem drafted_register (m : Model) (action : Resolution Unit) :
    drafted m (Drafting.ofResolution action) = action >>= fun _ => pure m := by
  funext session
  change drafted m _ session = EStateM.bind _ _ session
  unfold drafted EStateM.bind Drafting.ofResolution
  cases action session <;> rfl

theorem drafted_linkArm (project : Project) (resolver : Resolver) (m : Model) (index : Nat) (arm : Schema) :
    drafted m (Drafting.linkArm project resolver index arm) = (do
      let _ ← (Request.ofArm m.name arm index).resolve project resolver m.name
      registerInterface project (Request.ofArm m.name arm index).name m.name
      return m.addMember (Request.ofArm m.name arm index).name) := by
  unfold Drafting.linkArm
  rw [drafted_model, drafted_ofResolution, Request.resolveArm_eq, bind_assoc]
  simp only [pure_bind, drafted_edit, drafted_register]

theorem drafted_arms (project : Project) (resolver : Resolver) (m : Model) (head : Schema × Nat)
    (rest : List (Schema × Nat)) :
    drafted m ((head :: rest).forM fun (arm, index) => Drafting.linkArm project resolver index arm) = (do
      let _ ← (Request.ofArm m.name head.1 head.2).resolve project resolver m.name
      registerInterface project (Request.ofArm m.name head.1 head.2).name m.name
      drafted (m.addMember (Request.ofArm m.name head.1 head.2).name)
        (rest.forM fun (arm, index) => Drafting.linkArm project resolver index arm)) := by
  change drafted m (Drafting.linkArm project resolver head.2 head.1 >>= fun _ =>
    rest.forM fun (arm, index) => Drafting.linkArm project resolver index arm) = _
  rw [drafted_then, drafted_linkArm]
  simp only [bind_assoc, pure_bind]

theorem drafted_fill (project : Project) (resolver : Resolver) (m : Model) (target : Schema) :
    drafted m (fill project resolver target) = (do
      let parents ← (target.allOfMembers.filterMap (·.reference)).mapM (reference project resolver m.name)
      let settled ← drafted m (Drafting.groundwork project target parents)
      drafted settled (Drafting.linkArms project resolver target)) := by
  unfold fill Drafting.groundwork
  by_cases composed : target.isComposed
  · simp only [composed, if_true]
    unfold Drafting.compose Drafting.resolveParents
    rw [bind_assoc, drafted_model, drafted_ofResolution]
    simp only [drafted_then]
  · have memberless : target.allOfMembers = [] := by simp_all [Schema.isComposed]
    have armless : target.oneOfArms = [] := by simp_all [Schema.isComposed]
    have linked (settled : Model) : drafted settled (Drafting.linkArms project resolver target) = pure settled := by
      unfold Drafting.linkArms
      rw [armless]
      rfl
    simp [composed, memberless, linked]

end Resolution

namespace Progress
variable {project : Project}

def leftBy : EStateM.Result ModelError Session Model → Session
  | .ok _ session => session
  | .error _ session => session

-- The request has an answer, and it is what the cache holds from then on.
def Answered (project : Project) (k : Progress) (name : String) :
    EStateM.Result ModelError Session Model → Prop
  | .ok m next => next.cache.lookup name = some (.ok m) ∧ Run project k ⟨next, k.builds, k.waiting⟩
  | .error e next => next.cache.lookup name = some (.error e) ∧ Run project k ⟨next, k.builds, k.waiting⟩

def Kept (project : Project) (Valid : Progress → Prop) : Prop :=
  ∀ {k next : Progress}, Step project k next → Valid k → Valid next

theorem Kept.run {Valid : Progress → Prop} {k next : Progress} (kept : Kept project Valid)
    (run : Run project k next) (valid : Valid k) : Valid next := by
  induction run with
  | refl => exact valid
  | tail _ step ih => exact kept step ih

-- The resolver takes the steps of the run from the states that are met, if the depth lasts for what
-- may still be asked for.
def Serves (project : Project) (Valid : Progress → Prop) (resolver : Resolver) (depth : Nat) : Prop :=
  ∀ {k : Progress} {name : String} {s : Schema}, Valid k → Asks project.document k.builds k.waiting name s →
    (k.cache.lookup name = none → s.armDepth + project.budget (name :: k.cache.entries.names) ≤ depth) →
    Answered project k name (resolver name s k.session)

-- The requests of a build leave the depth to the builds that they start.
structure Lasts (project : Project) (depth : Nat) (written : Schema) (cache : Cache) : Prop where
  enough : written.armDepth + project.budget cache.entries.names ≤ depth + 1

theorem Lasts.later {depth : Nat} {written : Schema} {k next : Progress}
    (lasts : Lasts project depth written k.cache) (run : Run project k next) :
    Lasts project depth written next.cache := by
  refine ⟨Nat.le_trans (Nat.add_le_add_left ?_ _) lasts.enough⟩
  exact Project.costOf_mono (fun _ listed => run.names listed) _

def Smaller (written : Schema) : Request → Prop
  | .reference _ => True
  | .arm _ s => s.armDepth < written.armDepth

theorem Lasts.request {depth : Nat} {written s : Schema} {cache : Cache} {request : Request}
    (lasts : Lasts project depth written cache) (smaller : Smaller written request)
    (known : request.schema? project.document = some s) (fresh : cache.lookup request.name = none) :
    s.armDepth + project.budget (request.name :: cache.entries.names) ≤ depth := by
  have enough := lasts.enough
  cases request with
  | reference target =>
      have absent := Table.get?_eq_none.mp (Cache.lookup_eq_none.mp fresh)
      have taken := Project.costOf_take (Table.get?_eq_some.mp known) absent
      have pos := written.armDepth_pos
      unfold Project.budget at enough ⊢
      dsimp only [Request.name] at taken ⊢
      omega
  | arm name arm =>
      cases known
      have fewer := Project.costOf_mono (List.subset_cons_self name cache.entries.names)
        project.document.schemas.entries
      unfold Project.budget at enough ⊢
      dsimp only [Request.name, Smaller] at smaller ⊢
      omega

section Parts
variable {Valid : Progress → Prop} {resolver : Resolver} {depth : Nat} {name : String} {written : Schema} {below : List Build}
  {waiting : List (String × Schema)}

-- What a part of the build of `name` comes to: a session and a value that pass `Q`, or the end
-- of the build.
def Comes {α : Type} (project : Project) (k : Progress) (name : String) (below : List Build)
    (waiting : List (String × Schema)) (Q : α → Session → Prop) : EStateM.Result ModelError Session α → Prop
  | .ok a next => Q a next
  | .error e next => Run project k ⟨next.failed name e, below, waiting⟩

theorem Comes.bind {α β : Type} {k : Progress} {Q : α → Session → Prop} {Q' : β → Session → Prop}
    {x : Resolution α} {f : α → Resolution β} {session : Session} (first : Comes project k name below waiting Q (x session))
    (rest : ∀ a next, Q a next → Comes project k name below waiting Q' (f a next)) :
    Comes project k name below waiting Q' ((x >>= f) session) := by
  change Comes _ _ _ _ _ _ (EStateM.bind x f session)
  unfold EStateM.bind
  cases ran : x session with
  | ok a next =>
      rw [ran] at first
      exact rest a next first
  | error e next =>
      rw [ran] at first
      exact first

theorem Comes.after {α : Type} {k next : Progress} {Q : α → Session → Prop}
    {result : EStateM.Result ModelError Session α} (run : Run project k next)
    (comes : Comes project next name below waiting Q result) : Comes project k name below waiting Q result := by
  cases result with
  | ok a session => exact comes
  | error e session => exact run.trans comes

theorem Comes.imp {α : Type} {k : Progress} {Q Q' : α → Session → Prop}
    {result : EStateM.Result ModelError Session α} (comes : Comes project k name below waiting Q result)
    (implies : ∀ a next, Q a next → Q' a next) : Comes project k name below waiting Q' result := by
  cases result with
  | ok a session => exact implies a session comes
  | error e session => exact comes

theorem resolve_runs (serves : Serves project Valid resolver depth) {session : Session} {stage : Stage}
    {request : Request} {rest : List Request} (valid : Valid ⟨session, ⟨name, written, stage⟩ :: below, waiting⟩)
    (head : stage.requests = request :: rest)
    (smaller : Smaller written request) (lasts : Lasts project depth written session.cache) :
    Comes project ⟨session, ⟨name, written, stage⟩ :: below, waiting⟩ name below waiting
      (fun m next => (∃ s, request.schema? project.document = some s) ∧
        next.cache.lookup request.name = some (.ok m) ∧
        Run project ⟨session, ⟨name, written, stage⟩ :: below, waiting⟩
          ⟨next, ⟨name, written, stage⟩ :: below, waiting⟩)
      (request.resolve project resolver name session) := by
  unfold Request.resolve
  cases known : request.schema? project.document with
  | none => exact .single (.fail (.missing head known))
  | some s =>
      have answered := serves (k := ⟨session, ⟨name, written, stage⟩ :: below, waiting⟩) valid (.build head known)
        (lasts.request smaller known)
      change Comes _ _ _ _ _ _ (EStateM.adaptExcept _ _ _)
      unfold EStateM.adaptExcept
      cases ran : resolver request.name s session with
      | ok m next =>
          rw [ran] at answered
          exact ⟨⟨s, rfl⟩, answered⟩
      | error e next =>
          rw [ran] at answered
          exact answered.2.tail (.fail (.refused head known answered.1))

def heirOf (target : Schema) (outlined : Model) (parents : List Model) (references : List String) : Stage :=
  .inheriting target outlined parents (references.map fun reference => .reference (refName reference))

theorem parents_run (kept : Kept project Valid) (serves : Serves project Valid resolver depth) (target : Schema) (outlined : Model)
    (references : List String) (parents : List Model) (session : Session)
    (valid : Valid ⟨session, ⟨name, written, heirOf target outlined parents references⟩ :: below, waiting⟩)
    (lasts : Lasts project depth written session.cache) :
    Comes project ⟨session, ⟨name, written, heirOf target outlined parents references⟩ :: below, waiting⟩
      name below waiting
      (fun more next => Run project
        ⟨session, ⟨name, written, heirOf target outlined parents references⟩ :: below, waiting⟩
        ⟨next, ⟨name, written, heirOf target outlined (parents ++ more) []⟩ :: below, waiting⟩)
      (references.mapM (Resolution.reference project resolver name) session) := by
  induction references generalizing parents session with
  | nil =>
      rw [List.mapM_nil]
      change Run _ _ _
      rw [List.append_nil]
      exact .refl
  | cons head rest ih =>
      rw [List.mapM_cons, Request.reference_eq]
      refine Comes.bind (resolve_runs serves valid rfl trivial lasts) ?_
      rintro parent next ⟨⟨s, known⟩, answered, run⟩
      have taken := run.tail (.inherit known answered)
      refine Comes.bind ((ih (parents ++ [parent]) next (kept.run taken valid) (lasts.later run)).after taken) ?_
      intro more last runs
      change Run _ _ _
      rw [← List.append_cons] at runs
      exact taken.trans runs

theorem smaller_ofArm {parent : String} {arm : Schema} {index : Nat} (less : arm.armDepth < written.armDepth) :
    Smaller written (.ofArm parent arm index) := by
  unfold Request.ofArm
  cases arm.reference with
  | none => exact less
  | some reference => trivial

def unionOf (m : Model) (arms : List (Schema × Nat)) : Stage :=
  .linking m (arms.map fun (arm, index) => .ofArm m.name arm index)

theorem arms_run (kept : Kept project Valid) (serves : Serves project Valid resolver depth) (arms : List (Schema × Nat))
    (less : ∀ arm ∈ arms, arm.1.armDepth < written.armDepth) (m : Model) (session : Session)
    (valid : Valid ⟨session, ⟨name, written, unionOf m arms⟩ :: below, waiting⟩)
    (lasts : Lasts project depth written session.cache) (named : m.name = name) :
    Comes project ⟨session, ⟨name, written, unionOf m arms⟩ :: below, waiting⟩ name below waiting
      (fun linked next => linked.name = name ∧ Run project
        ⟨session, ⟨name, written, unionOf m arms⟩ :: below, waiting⟩
        ⟨next, ⟨name, written, unionOf linked []⟩ :: below, waiting⟩)
      (Resolution.drafted m (arms.forM fun (arm, index) => Drafting.linkArm project resolver index arm) session) := by
  induction arms generalizing m session with
  | nil => exact ⟨named, .refl⟩
  | cons head rest ih =>
      obtain ⟨arm, index⟩ := head
      subst named
      rw [Resolution.drafted_arms]
      refine Comes.bind (resolve_runs serves valid rfl (smaller_ofArm (less _ List.mem_cons_self)) lasts) ?_
      rintro child next ⟨⟨s, known⟩, answered, run⟩
      have taken := run.tail (.link known answered)
      refine Comes.after taken ?_
      refine (ih (fun arm later => less arm (List.mem_cons_of_mem _ later))
        (m.addMember (Request.ofArm m.name arm index).name) _ (kept.run taken valid) ?_ rfl).imp ?_
      · exact lasts.later taken
      · exact fun linked last ⟨same, runs⟩ => ⟨same, taken.trans runs⟩

theorem armDepth_of_unalias {target : Schema} (led : project.document.unalias written = .ok target)
    {arm : Schema} (listed : arm ∈ target.oneOfArms) : arm.armDepth < written.armDepth := by
  obtain rfl := Document.unalias_composed led (Schema.isComposed_of_arm listed)
  exact Schema.armDepth_arm listed

theorem groundwork_runs {k : Progress} {target : Schema} {outlined : Model} {parents : List Model} {session : Session}
    (inherits : Run project k ⟨session, ⟨name, written, heirOf target outlined parents []⟩ :: below, waiting⟩)
    (named : outlined.name = name) :
    Comes project k name below waiting
      (fun settled next => settled.name = name ∧ Run project k
        ⟨next, ⟨name, written, .linking settled (target.armRequests name)⟩ :: below, waiting⟩)
      (Resolution.drafted outlined (Drafting.groundwork project target parents) session) := by
  unfold Resolution.drafted
  cases ran : Drafting.groundwork project target parents ⟨session, outlined⟩ with
  | ok _ next => exact ⟨((Drafting.groundwork_ok ran).1.name).trans named, inherits.tail (.settle ran)⟩
  | error e next => exact inherits.tail (.fail (.settling rfl ran))

theorem arms_runs (kept : Kept project Valid) (serves : Serves project Valid resolver depth) {target : Schema}
    {m : Model} {session : Session}
    (valid : Valid ⟨session, ⟨name, written, .linking m (target.armRequests name)⟩ :: below, waiting⟩)
    (led : project.document.unalias written = .ok target) (lasts : Lasts project depth written session.cache)
    (named : m.name = name) :
    Comes project ⟨session, ⟨name, written, .linking m (target.armRequests name)⟩ :: below, waiting⟩
      name below waiting
      (fun linked next => linked.name = name ∧ Run project
        ⟨session, ⟨name, written, .linking m (target.armRequests name)⟩ :: below, waiting⟩
        ⟨{ next with cache := (next.cache.finish (linked.complete project.settings)).1 }, below, waiting⟩)
      (Resolution.drafted m (Drafting.linkArms project resolver target) session) := by
  subst named
  have less : ∀ arm ∈ target.oneOfArms.zipIdx, arm.1.armDepth < written.armDepth :=
    fun arm listed => armDepth_of_unalias led (List.fst_mem_of_mem_zipIdx listed)
  unfold Drafting.linkArms
  rw [Resolution.drafted_then]
  refine Comes.bind (arms_run kept serves _ less m session valid lasts rfl) ?_
  rintro linked next ⟨same, runs⟩
  have closes := runs.tail .close
  split
  · refine ⟨same, ?_⟩
    have kept := (Model.complete_rearranges project.settings linked).name
    rw [← Cache.finish_publish kept.symm] at closes
    exact closes
  · exact ⟨same, closes⟩

theorem fill_runs (kept : Kept project Valid) (serves : Serves project Valid resolver depth) {target : Schema}
    {outlined : Model} {session : Session}
    (valid : Valid ⟨session, ⟨name, written, .inheriting target outlined [] target.parentRequests⟩ :: below, waiting⟩)
    (led : project.document.unalias written = .ok target) (named : outlined.name = name)
    (lasts : Lasts project depth written session.cache) :
    Comes project ⟨session, ⟨name, written, .inheriting target outlined [] target.parentRequests⟩ :: below, waiting⟩
      name below waiting
      (fun m next => m.name = name ∧ Run project
        ⟨session, ⟨name, written, .inheriting target outlined [] target.parentRequests⟩ :: below, waiting⟩
        ⟨{ next with cache := (next.cache.finish (m.complete project.settings)).1 }, below, waiting⟩)
      (Resolution.drafted outlined (Resolution.fill project resolver target) session) := by
  rw [Resolution.drafted_fill, named]
  refine Comes.bind (parents_run kept serves target outlined _ [] session valid lasts) ?_
  intro parents inherited inherits
  refine Comes.bind (groundwork_runs inherits named) ?_
  rintro settled session ⟨same, settles⟩
  refine ((arms_runs kept serves (kept.run settles valid) led (lasts.later settles) same).after settles).imp ?_
  exact fun m next ⟨named, closes⟩ => ⟨named, settles.trans closes⟩

theorem build_runs (kept : Kept project Valid) (serves : Serves project Valid resolver depth) (session : Session)
    (valid : Valid ⟨session, ⟨name, written, .opening⟩ :: below, waiting⟩)
    (lasts : Lasts project depth written session.cache) :
    Comes project ⟨session, ⟨name, written, .opening⟩ :: below, waiting⟩ name below waiting
      (fun m next => m.name = name ∧ Run project ⟨session, ⟨name, written, .opening⟩ :: below, waiting⟩
        ⟨{ next with cache := (next.cache.finish m).1 }, below, waiting⟩)
      (Resolution.build project resolver name written session) := by
  refine Comes.bind (Q := fun opened next =>
    project.document.unalias written = .ok opened.1 ∧ opened.2.name = name ∧
      Run project ⟨session, ⟨name, written, .opening⟩ :: below, waiting⟩
        ⟨next, ⟨name, written, .inheriting opened.1 opened.2 [] opened.1.parentRequests⟩ :: below, waiting⟩) ?_ ?_
  · cases ran : Resolution.opening project name written session with
    | ok opened next =>
        obtain ⟨target, outlined⟩ := opened
        obtain ⟨led, fresh, -⟩ := Resolution.opening_ok ran
        exact ⟨led, fresh.name, .single (.opened ran)⟩
    | error e next => exact .single (.fail (.opening rfl ran))
  · rintro ⟨target, outlined⟩ next ⟨led, named, opens⟩
    refine Comes.bind ((fill_runs kept serves (kept.run opens valid) led named (lasts.later opens)).after opens) ?_
    rintro m last ⟨same, closes⟩
    exact ⟨(Model.complete_rearranges project.settings m).name.trans same, opens.trans closes⟩

end Parts

theorem request_known {depth : Nat} {name : String} {s : Schema} {session : Session}
    {answer : Except ModelError Model} (known : session.cache.lookup name = some answer) :
    Resolution.request project depth name s session = Resolution.ofExcept answer session := by
  unfold Resolution.request
  rw [get_bind, known]

theorem store_run (name : String) (action : Resolution Model) (session : Session) :
    Resolution.store name action session = match action { session with cache := session.cache.begin name } with
      | .ok m next => .ok (next.cache.finish m).2 { next with cache := (next.cache.finish m).1 }
      | .error e next => .error e (next.failed name e) := by
  have begun : (Resolution.begin name *> action) session =
      action { session with cache := session.cache.begin name } := rfl
  unfold Resolution.store
  rw [begun]
  cases action { session with cache := session.cache.begin name } <;> rfl

theorem request_fresh {depth : Nat} {name : String} {s : Schema} {session : Session}
    (fresh : session.cache.lookup name = none) :
    Resolution.request project (depth + 1) name s session =
      Resolution.store name (Resolution.build project (Resolution.request project depth) name s) session := by
  rw [Resolution.request, get_bind, fresh]

structure Resolves (project : Project) (Valid : Progress → Prop) (resolver : Nat → Resolver) : Prop where
  known : ∀ {k : Progress} {depth : Nat} {name : String} {s : Schema} {answer : Except ModelError Model},
    Valid k → Asks project.document k.builds k.waiting name s → k.cache.lookup name = some answer →
      resolver depth name s k.session = Resolution.ofExcept answer k.session
  fresh : ∀ {k : Progress} {depth : Nat} {name : String} {s : Schema},
    Valid k → Asks project.document k.builds k.waiting name s → k.cache.lookup name = none →
      resolver (depth + 1) name s k.session =
        Resolution.store name (Resolution.build project (resolver depth) name s) k.session

section Resolvers
variable {Valid : Progress → Prop} {resolver : Nat → Resolver}

theorem Resolves.answered (resolves : Resolves project Valid resolver) {depth : Nat} {k : Progress} {name : String}
    {s : Schema} {answer : Except ModelError Model} (valid : Valid k)
    (asks : Asks project.document k.builds k.waiting name s) (known : k.cache.lookup name = some answer) :
    Answered project k name (resolver depth name s k.session) := by
  rw [resolves.known valid asks known]
  cases answer with
  | ok m => exact ⟨known, .refl⟩
  | error e => exact ⟨known, .refl⟩

theorem Resolves.serves (kept : Kept project Valid) (resolves : Resolves project Valid resolver) (depth : Nat) :
    Serves project Valid (resolver depth) depth := by
  -- The depth lasts for what the unknown names cost, so it is used up only when nothing is left to be built.
  induction depth with
  | zero =>
      intro k name s valid asks enough
      cases known : k.cache.lookup name with
      | some answer => exact resolves.answered valid asks known
      | none =>
          have pos := s.armDepth_pos
          have none_left := enough known
          omega
  | succ depth ih =>
      intro k name s valid asks enough
      cases known : k.cache.lookup name with
      | some answer => exact resolves.answered valid asks known
      | none =>
          have begun : Step project k ⟨{ k.session with cache := k.cache.begin name },
              ⟨name, s, .opening⟩ :: k.builds, k.waiting⟩ := .begin asks known
          have lasts : Lasts project depth s (k.cache.begin name) := by
            refine ⟨Nat.le_trans (Nat.add_le_add_left ?_ _) (enough known)⟩
            refine Project.costOf_mono (fun other listed => ?_) _
            exact Table.mem_names_put.mpr (List.mem_cons.mp listed)
          have built : Comes project ⟨{ k.session with cache := k.cache.begin name },
              ⟨name, s, .opening⟩ :: k.builds, k.waiting⟩ name k.builds k.waiting _ _ :=
            build_runs kept ih _ (kept begun valid) lasts
          rw [resolves.fresh valid asks known, store_run]
          change Answered _ _ _ (match Resolution.build _ _ name s { k.session with cache := k.cache.begin name } with
            | .ok m next => _ | .error e next => _)
          cases ran : Resolution.build project (resolver depth) name s
              { k.session with cache := k.cache.begin name } with
          | ok m next =>
              rw [ran] at built
              obtain ⟨same, closes⟩ := built
              refine ⟨?_, closes.head begun⟩
              exact Cache.lookup_ok.mpr (.inl (by simp [same]))
          | error e next =>
              rw [ran] at built
              refine ⟨?_, Relation.ReflTransGen.head begun built⟩
              exact Cache.lookup_error.mpr (.inl (by simp [Session.failed]))

theorem Resolves.answers (resolves : Resolves project (fun _ => True) resolver) {depth : Nat} {session : Session}
    {name : String} {s : Schema} (rest : List (String × Schema))
    (enough : session.cache.lookup name = none →
      s.armDepth + project.budget (name :: session.cache.entries.names) ≤ depth) :
    Answered project ⟨session, [], (name, s) :: rest⟩ name (resolver depth name s session) :=
  resolves.serves (fun _ _ => trivial) depth (k := ⟨session, [], (name, s) :: rest⟩) trivial .run enough

theorem Answered.onward {session : Session} {name : String} {s : Schema} {rest : List (String × Schema)}
    {result : EStateM.Result ModelError Session Model}
    (answered : Answered project ⟨session, [], (name, s) :: rest⟩ name result) :
    Run project ⟨session, [], (name, s) :: rest⟩ ⟨leftBy result, [], rest⟩ := by
  cases result with
  | ok m next => exact answered.2.tail (.reuse answered.1)
  | error e next => exact answered.2.tail (.reuse answered.1)

end Resolvers

theorem request_resolves (project : Project) (Valid : Progress → Prop) :
    Resolves project Valid (Resolution.request project) :=
  ⟨fun _ _ known => request_known known, fun _ _ fresh => request_fresh fresh⟩

theorem request_onward (session : Session) (name : String) (s : Schema) (rest : List (String × Schema)) :
    Run project ⟨session, [], (name, s) :: rest⟩
      ⟨leftBy (Resolution.request project (project.depthFor s) name s session), [], rest⟩ :=
  ((request_resolves project fun _ => True).answers rest fun _ => Project.budget_le_depthFor s).onward

end Progress

namespace Project
variable {project : Project}

theorem resolve_found {name : String} {s : Schema} (found : project.document.get? name = some s) :
    project.resolve name = Resolution.request project (project.depthFor s) name s := by
  unfold resolve
  rw [found]
  rfl

theorem resolveInto_runs {name : String} {s : Schema} (found : project.document.get? name = some s)
    (session : Session) (rest : List (String × Schema)) :
    Progress.Run project ⟨session, [], (name, s) :: rest⟩ ⟨project.resolveInto session name, [], rest⟩ := by
  have left : project.resolveInto session name = Progress.leftBy (project.resolve name session) := rfl
  rw [left, resolve_found found]
  exact Progress.request_onward session name s rest

theorem resolveInto_onward (session : Session) (rest : List (String × Schema))
    (listed : rest ⊆ project.document.schemas.entries) :
    Progress.Run project ⟨session, [], rest⟩ ⟨(rest.map Prod.fst).foldl project.resolveInto session, [], []⟩ := by
  induction rest generalizing session with
  | nil => exact .refl
  | cons head rest ih =>
      obtain ⟨first, later⟩ := List.cons_subset.mp listed
      exact (resolveInto_runs (Table.get?_eq_some.mpr first) session rest).trans (ih _ later)

theorem resolveAll_runs (project : Project) :
    Progress.Run project (Progress.start project) (Progress.done project) :=
  resolveInto_onward {} _ (List.Subset.refl _)

end Project

namespace Progress

theorem passes_done (project : Project) : Passes project (done project) := ⟨project.resolveAll_runs, .refl⟩

end Progress
end ApiModels
