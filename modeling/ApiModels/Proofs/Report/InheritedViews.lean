import ApiModels.Proofs.Report.Outcomes

namespace ApiModels

theorem Cache.implement_agrees (m : Model) (link : PendingLink) : m.Agrees (implement m link) :=
  (m.addInterface_agrees link.parent).trans (Model.addImport_rearranges _ _).toAgrees

theorem Cache.foldl_implement_agrees (links : List PendingLink) (m : Model) :
    m.Agrees (links.foldl implement m) :=
  List.foldlRecOn links implement (.refl m) fun _ kept link _ => kept.trans (implement_agrees _ link)

-- Between a model that is handed over and what becomes of the original.
structure Model.Lasting (settings : GeneratorSettings) (R : Model → Model → Prop) : Prop where
  member : ∀ {m other : Model} (child : String), R m other → R m (other.addMember child)
  linked : ∀ {m other : Model} (link : PendingLink), R m other → R m (Cache.implement other link)
  completed : ∀ {m other : Model}, R m other → R m (other.complete settings)
  shown : ∀ {m other : Model} (union : String), R m other → R (m.addInterface union) other

theorem Model.Lasting.finished {settings : GeneratorSettings} {R : Model → Model → Prop} (law : Lasting settings R)
    {m other : Model} (links : List PendingLink) (holds : R m other) :
    R m (links.foldl Cache.implement (other.complete settings)) :=
  List.foldlRecOn links Cache.implement (law.completed holds) fun _ kept link _ => law.linked link kept

theorem Model.Covers.lasting (settings : GeneratorSettings) : Model.Lasting settings Model.Covers where
  member child covers := covers.trans (Model.addMember_agrees _ child).symm.covers
  linked link covers := covers.trans (Cache.implement_agrees _ link).symm.covers
  completed covers := covers.trans (Model.complete_rearranges settings _).toAgrees.symm.covers
  shown union covers := (Model.addInterface_agrees _ union).covers.trans covers

def Stage.Inherits : Stage → Prop
  | .inheriting .. => True
  | _ => False

namespace Progress
variable {project : Project} {k next : Progress} {name parent child : String} {R : Model → Model → Prop}

def Resolving (builds : List Build) (name : String) : Prop :=
  ∃ build ∈ builds, build.name = name ∧ build.stage.Inherits

-- What the placeholder of a build shows to those who ask for it.
def Shows (R : Model → Model → Prop) : Stage → Model → Prop
  | .opening, _ => True
  | .inheriting .., placeholder => placeholder.Bare
  | .linking m rest, placeholder => rest = [] ∨ R placeholder m

def Faithful (R : Model → Model → Prop) (k : Progress) : Prop :=
  ∀ build ∈ k.builds, ∀ placeholder, k.cache.entries.get? build.name = some (.building placeholder) →
    Shows R build.stage placeholder

-- The model is so related to the named one, now and when it is finished.
def Supplied (R : Model → Model → Prop) (k : Progress) (m : Model) (name : String) : Prop :=
  (∃ other, k.cache.entries.get? name = some (.ready other) ∧ R m other) ∨
    (∃ e, k.cache.entries.get? name = some (.failed e)) ∨
    ∃ build ∈ k.builds, build.name = name ∧ ∃ other rest, build.stage = .linking other rest ∧ R m other

theorem Supplied.covers {m upper : Model} (supplied : k.Supplied Model.Covers m name) (covers : upper.Covers m) :
    k.Supplied Model.Covers upper name := by
  rcases supplied with ⟨other, ready, lower⟩ | failed | ⟨build, under, same, other, rest, stage, lower⟩
  · exact .inl ⟨other, ready, covers.trans lower⟩
  · exact .inr (.inl failed)
  · exact .inr (.inr ⟨build, under, same, other, rest, stage, covers.trans lower⟩)

theorem Step.supplied (step : Step project k next) (law : Model.Lasting project.settings R) (valid : Coherent k)
    {m : Model} (supplied : k.Supplied R m name) : next.Supplied R m name := by
  rcases supplied with ⟨other, ready, lower⟩ | ⟨e, failed⟩ | ⟨build, under, rfl, other, rest, stage, lower⟩
  · rcases valid.keeps step ready rfl with kept | ⟨link, -, kept⟩
    · exact .inl ⟨other, kept, lower⟩
    · exact .inl ⟨_, kept, law.linked link lower⟩
  · exact .inr (.inl ⟨e, valid.keeps_failure step failed⟩)
  · rcases valid.linking step under stage with ⟨later, inNext, same, m', rest', stage', grows⟩ | failed | ⟨links, ready⟩
    · refine .inr (.inr ⟨later, inNext, same, m', rest', stage', ?_⟩)
      rcases grows with rfl | ⟨new, rfl⟩
      · exact lower
      · exact law.member new lower
    · exact .inr (.inl failed)
    · exact .inl ⟨_, ready, law.finished links lower⟩

theorem placeholder_register {cache : Cache} {other union unionClass : String} {placeholder : Model}
    (found : (cache.registerInterface other union unionClass).entries.get? name = some (.building placeholder)) :
    ∃ before, cache.entries.get? name = some (.building before) ∧
      (placeholder = before ∨ placeholder = before.addInterface union) := by
  rw [Cache.get?_registerInterface] at found
  split at found
  · rename_i same
    subst same
    obtain ⟨entry, old, linked⟩ := Option.map_eq_some_iff.mp found
    cases entry <;> cases linked
    exact ⟨_, old, .inr rfl⟩
  · exact ⟨placeholder, found, .inl rfl⟩

theorem placeholder_below (valid : Coherent k) (step : Step project k next) {build : Build}
    (under : build ∈ k.builds.tail) {placeholder : Model}
    (found : next.cache.entries.get? build.name = some (.building placeholder)) :
    ∃ before, k.cache.entries.get? build.name = some (.building before) ∧
      (placeholder = before ∨ ∃ union, placeholder = before.addInterface union) := by
  cases valid.stores step with
  | same kept => exact ⟨placeholder, kept ▸ found, .inl rfl⟩
  | begin asks fresh kept =>
      rw [kept, Cache.get?_begin] at found
      split at found
      · cases found
      · exact ⟨placeholder, found, .inl rfl⟩
  | @publish m top kept =>
      obtain ⟨session, builds, waiting⟩ := k
      obtain ⟨inner, below, rfl⟩ := List.exists_cons_of_ne_nil (List.ne_nil_of_mem (List.mem_of_mem_tail under))
      have apart : m.name ≠ build.name := Option.some.inj top ▸ valid.foreign under
      rw [kept, Cache.get?_publish, if_neg fun here => apart here.1] at found
      exact ⟨placeholder, found, .inl rfl⟩
  | register answered linked kept =>
      rw [kept] at found
      obtain ⟨before, old, same⟩ := placeholder_register found
      exact ⟨before, old, same.imp id fun linked => ⟨_, linked⟩⟩
  | finish top same kept =>
      rw [kept, Cache.get?_finish] at found
      split at found
      · cases found
      · exact ⟨placeholder, found, .inl rfl⟩
  | fail top fault kept =>
      rw [kept, Cache.get?_fail] at found
      split at found
      · cases found
      · exact ⟨placeholder, found, .inl rfl⟩

structure Endures (project : Project) (R : Model → Model → Prop) : Prop extends Model.Lasting project.settings R where
  drafts : ∀ {k}, Passes project k → ∀ build ∈ k.builds, ∀ m rest, build.stage = .linking m rest → R m m
  models : ∀ {k}, Passes project k → ∀ name m, k.cache.entries.get? name = some (.ready m) → R m m

theorem Endures.covers (project : Project) : Endures project Model.Covers where
  toLasting := Model.Covers.lasting project.settings
  drafts _ _ _ m _ _ := .refl m
  models _ _ m _ := .refl m

theorem Shows.linked {stage : Stage} {shown later : Model} (law : Endures project R) (shows : Shows R stage shown)
    (same : later = shown ∨ ∃ union, later = shown.addInterface union) : Shows R stage later := by
  rcases same with rfl | ⟨union, rfl⟩
  · exact shows
  cases stage with
  | opening => trivial
  | inheriting => exact (shown.addInterface_agrees union).bare shows
  | linking m rest => exact shows.imp id (law.shown union)

theorem Faithful.step (law : Endures project R) (before : Passes project k) (further : Passes project next)
    (faithful : Faithful R k) (step : Step project k next) : Faithful R next := by
  have valid := before.coherent
  intro build under placeholder found
  have others (below : build ∈ k.builds.tail) : Shows R build.stage placeholder := by
    obtain ⟨shown, old, same⟩ := placeholder_below valid step below found
    exact (faithful build (List.mem_of_mem_tail below) shown old).linked law same
  cases step with
  | begin asks fresh =>
      rw [cache, Cache.get?_begin] at found
      split at found
      · cases found
      · rcases List.mem_cons.mp under with rfl | below
        · trivial
        · exact faithful build below placeholder found
  | reuse known => cases under
  | @opened session after name written target outlined below waiting opened =>
      rcases List.mem_cons.mp under with rfl | below
      · obtain ⟨-, fresh, published⟩ := Resolution.opening_ok opened
        have pending : session.cache.phase? name = some .pending := (valid.shown _ List.mem_cons_self).phase
        rw [cache, published, Cache.get?_publish] at found
        split at found
        · cases found
          exact fresh.bare
        · cases pending.symm.trans (Cache.phase?_of_get? found)
      · exact others below
  | inherit known answered =>
      rcases List.mem_cons.mp under with rfl | below
      · exact faithful _ List.mem_cons_self placeholder found
      · exact others below
  | @settle session after name written target outlined parents below waiting settled =>
      rcases List.mem_cons.mp under with rfl | below
      · obtain ⟨extended, settles⟩ := Drafting.groundwork_ok settled
        have named : after.model.name = name :=
          extended.name.trans ((valid.shown _ List.mem_cons_self).named outlined rfl)
        rw [cache, settles] at found
        split at found
        · rename_i armless
          exact .inl (by simp [Schema.armRequests, List.isEmpty_iff.mp armless])
        · rw [Cache.get?_publish] at found
          split at found
          · cases found
            exact .inr (law.drafts further _ List.mem_cons_self _ _ rfl)
          · rename_i unpublished
            exfalso
            refine unpublished ⟨named, ?_⟩
            rw [named, show session.cache.entries.get? name = _ from found]
            rfl
      · exact others below
  | @link session name written s m answer request rest below waiting known answered =>
      rcases List.mem_cons.mp under with rfl | below
      · obtain ⟨shown, old, same⟩ := placeholder_register found
        have shows := faithful _ List.mem_cons_self shown old
        have linked : Shows R (.linking m (request :: rest)) placeholder :=
          Shows.linked law shows (same.imp id fun linked => ⟨_, linked⟩)
        exact .inr (law.member _ (linked.resolve_left (List.cons_ne_nil _ _)))
      · exact others below
  | close => exact others under
  | fail fault => exact others under

theorem Passes.faithful (law : Endures project R) (passes : Passes project k) : Faithful R k :=
  passes.induction (P := Faithful R) (fun _ under => nomatch under) fun _ _ before after step faithful =>
    faithful.step law before after step

-- The view of each parent that a build has gathered so far. Nothing changes below a build while it
-- is under way, so a parent without properties goes on resolving its own parents.
def Gathered (R : Model → Model → Prop) (k : Progress) : Prop :=
  ∀ name written target outlined parents rest below,
    (⟨name, written, .inheriting target outlined parents rest⟩ :: below) <:+ k.builds →
    ∀ parent ∈ parents, parent.name ≠ name →
      k.Supplied R parent parent.name ∨ parent.Bare ∧ Resolving below parent.name

theorem answer_gathered {session : Session} {build : Build} {below : List Build} {waiting : List (String × Schema)}
    {m : Model} (law : Endures project R) (passes : Passes project ⟨session, build :: below, waiting⟩)
    (answered : session.cache.lookup name = some (.ok m)) (apart : m.name ≠ build.name) :
    Supplied R ⟨session, build :: below, waiting⟩ m m.name ∨ m.Bare ∧ Resolving below m.name := by
  have valid := passes.coherent
  rcases Cache.lookup_ok.mp answered with ready | building
  · obtain rfl : m.name = name := valid.named name _ m ready rfl
    exact .inl (.inl ⟨m, ready, law.models passes _ m ready⟩)
  · obtain rfl : m.name = name := valid.named name _ m building rfl
    have listed := (valid.ended _ _ (Cache.phase?_of_get? building)).resolve_right (by simp [CacheEntry.phase])
    obtain ⟨other, under, same⟩ := List.mem_map.mp ((List.mem_cons.mp listed).resolve_left apart)
    have found : session.cache.entries.get? other.name = some (.building m) :=
      (congrArg session.cache.entries.get? same).trans building
    have shows := passes.faithful law other (List.mem_cons_of_mem _ under) m found
    have asks := valid.asking other under
    -- A placeholder shows no property while its build still inherits, and all of them once it links.
    cases stage : other.stage with
    | opening => simp [stage, Stage.requests] at asks
    | inheriting target outlined parents rest =>
        rw [stage] at shows
        exact .inr ⟨shows, other, under, same, by simp [stage, Stage.Inherits]⟩
    | linking draft rest =>
        rw [stage] at shows asks
        have holds := shows.resolve_left asks
        exact .inl (.inr (.inr ⟨other, List.mem_cons_of_mem _ under, same, draft, rest, stage, holds⟩))

theorem Gathered.step (law : Endures project R) (before : Passes project k) (gathered : Gathered R k)
    (step : Step project k next) : Gathered R next := by
  have kept {m : Model} {builds : List Build}
      (known : k.Supplied R m m.name ∨ m.Bare ∧ Resolving builds m.name) :
      next.Supplied R m m.name ∨ m.Bare ∧ Resolving builds m.name :=
    known.imp (step.supplied law.toLasting before.coherent) id
  intro name written target outlined parents rest below stands parent listed apart
  cases step with
  | begin asks fresh =>
      rcases List.suffix_cons_iff.mp stands with same | under
      · cases same
      · exact kept (gathered _ _ _ _ _ _ _ under parent listed apart)
  | reuse known => exact kept (gathered _ _ _ _ _ _ _ stands parent listed apart)
  | opened opened =>
      rcases List.suffix_cons_iff.mp stands with same | under
      · cases same
        cases listed
      · exact kept (gathered _ _ _ _ _ _ _ (under.trans (List.suffix_cons _ _)) parent listed apart)
  | inherit known answered =>
      rcases List.suffix_cons_iff.mp stands with same | under
      · cases same
        rcases List.mem_append.mp listed with old | new
        · exact kept (gathered _ _ _ _ _ _ _ (List.suffix_refl _) parent old apart)
        · cases List.mem_singleton.mp new
          exact kept (answer_gathered law before answered apart)
      · exact kept (gathered _ _ _ _ _ _ _ (under.trans (List.suffix_cons _ _)) parent listed apart)
  | settle settled =>
      rcases List.suffix_cons_iff.mp stands with same | under
      · cases same
      · exact kept (gathered _ _ _ _ _ _ _ (under.trans (List.suffix_cons _ _)) parent listed apart)
  | link known answered =>
      rcases List.suffix_cons_iff.mp stands with same | under
      · cases same
      · exact kept (gathered _ _ _ _ _ _ _ (under.trans (List.suffix_cons _ _)) parent listed apart)
  | close => exact kept (gathered _ _ _ _ _ _ _ (stands.trans (List.suffix_cons _ _)) parent listed apart)
  | fail fault => exact kept (gathered _ _ _ _ _ _ _ (stands.trans (List.suffix_cons _ _)) parent listed apart)

theorem Passes.gathered (law : Endures project R) (passes : Passes project k) : Gathered R k := by
  refine passes.induction (P := Gathered R) ?_ fun _ _ before _ step gathered => gathered.step law before step
  intro name written target outlined parents rest below stands
  simp [start] at stands

-- At the moment at which the child takes over what it has gathered of its parents, this parent still
-- resolves its own.
def TakesEarly (k : Progress) (child parent : String) : Prop :=
  ∃ written target outlined parents below,
    k.builds = ⟨child, written, .inheriting target outlined parents []⟩ :: below ∧ Resolving below parent

end Progress

-- The child takes over the view of its parent before the parent has one.
def Project.Early (project : Project) (child parent : String) : Prop :=
  ∃ k, Progress.Passes project k ∧ k.TakesEarly child parent

namespace Progress
variable {project : Project} {k next : Progress} {name parent child : String}

structure Inherited (project : Project) (k : Progress) (name : String) (m : Model) : Prop where
  merged : m.Merged
  view : ∀ parent, m.parentName = some parent → parent ≠ name →
    k.Supplied Model.Covers m parent ∨ m.SelfMade ∧ project.Early name parent

theorem Inherited.agrees {m later : Model} (inherited : Inherited project k name m) (same : m.Agrees later) :
    Inherited project k name later where
  merged := same.merged inherited.merged
  view parent listed apart := by
    rcases inherited.view parent (same.parentName ▸ listed) apart with supplied | ⟨made, early⟩
    · exact .inl (supplied.covers same.covers)
    · exact .inr ⟨same.selfMade made, early⟩

theorem Step.inherited (step : Step project k next) (valid : Coherent k) {m : Model}
    (inherited : Inherited project k name m) : Inherited project next name m where
  merged := inherited.merged
  view parent listed apart := (inherited.view parent listed apart).imp
    (step.supplied (Model.Covers.lasting project.settings) valid) id

theorem settled_inherited {session : Session} {written target : Schema} {outlined m : Model} {parents : List Model}
    {below : List Build} {waiting : List (String × Schema)}
    (passes : Passes project ⟨session, ⟨name, written, .inheriting target outlined parents []⟩ :: below, waiting⟩)
    (extended : Drafting.Extended outlined parents m) :
    Inherited project ⟨session, ⟨name, written, .inheriting target outlined parents []⟩ :: below, waiting⟩ name m := by
  have fresh : outlined.Fresh name := (passes.accounted.sound _ List.mem_cons_self).drafted
  rcases extended with alone | ⟨parent, listed, base, before, after⟩
  · refine ⟨alone.merged fresh.merged, fun parent known => ?_⟩
    rw [alone.parentName, fresh.parentName] at known
    cases known
  · have whole := before.merged fresh.merged
    refine ⟨after.merged (Model.extend_merged whole parent), fun kept known apart => ?_⟩
    rw [after.parentName, Model.extend_parentName] at known
    cases known
    rcases passes.gathered (.covers project) _ _ _ _ _ _ _ (List.suffix_refl _) parent listed apart with supplied | ⟨bare, resolving⟩
    · exact .inl (supplied.covers (after.covers.trans (Model.extend_covers whole parent)))
    · refine .inr ⟨after.selfMade (Model.extend_selfMade whole (before.selfMade fresh.selfMade) bare), ?_⟩
      exact ⟨_, passes, _, _, _, _, _, rfl, resolving⟩

structure Settled (project : Project) (k : Progress) : Prop where
  drafts : ∀ build ∈ k.builds, ∀ m rest, build.stage = .linking m rest → Inherited project k build.name m
  models : ∀ name m, k.cache.entries.get? name = some (.ready m) → Inherited project k name m

theorem Settled.step (before : Passes project k) (settled : Settled project k) (step : Step project k next) :
    Settled project next where
  drafts build under m rest stage := by
    refine step.inherited before.coherent ?_
    rcases step.linking_origin under stage with old | ⟨target, outlined, parents, below, after, top, ground, rfl⟩ |
      ⟨draft, request, answer, linking, rfl, -, -⟩
    · exact settled.drafts build old m rest stage
    · obtain ⟨session, builds, waiting⟩ := k
      cases top
      exact settled_inherited before (Drafting.groundwork_ok ground).1
    · exact (settled.drafts _ linking draft _ rfl).agrees (Model.addMember_agrees _ _)
  models name m ready := by
    refine step.inherited before.coherent ?_
    rcases before.coherent.ready step ready with old | ⟨m', link, old, rfl, -⟩ | ⟨written, draft, below, top, rfl⟩
    · exact settled.models name m old
    · exact (settled.models name m' old).agrees (Cache.implement_agrees m' link)
    · have inherited := settled.drafts _ (top ▸ List.mem_cons_self) draft [] rfl
      exact inherited.agrees ((Model.complete_rearranges project.settings draft).toAgrees.trans
        (Cache.foldl_implement_agrees _ _))

theorem Passes.settled (passes : Passes project k) : Settled project k :=
  passes.induction (P := Settled project) ⟨fun _ under => (nomatch under), fun _ _ found => (nomatch found)⟩
    fun _ _ before _ step settled => settled.step before step

-- From the early moment on, the child inherits nothing that it does not declare itself.
def Deprived (k : Progress) (child parent : String) : Prop :=
  (∃ written target outlined parents below,
      k.builds = ⟨child, written, .inheriting target outlined parents []⟩ :: below ∧ outlined.Fresh child ∧
        ∀ gathered ∈ parents, gathered.name = parent → gathered.Bare) ∨
    (∃ build ∈ k.builds, build.name = child ∧ ∃ m rest, build.stage = .linking m rest ∧
      (m.parentName = some parent → m.SelfMade)) ∨
    (∃ e, k.cache.entries.get? child = some (.failed e)) ∨
    ∃ m, k.cache.entries.get? child = some (.ready m) ∧ (m.parentName = some parent → m.SelfMade)

theorem TakesEarly.deprived (passes : Passes project k) (early : k.TakesEarly child parent) :
    k.Deprived child parent := by
  obtain ⟨written, target, outlined, parents, below, top, other, under, same, inherits⟩ := early
  have valid := passes.coherent
  have inK : other ∈ k.builds := top ▸ List.mem_cons_of_mem _ under
  have sound := passes.accounted.sound ⟨child, written, .inheriting target outlined parents []⟩
    (top ▸ List.mem_cons_self)
  refine .inl ⟨written, target, outlined, parents, below, top, sound.drafted, fun gathered listed named => ?_⟩
  have apart : gathered.name ≠ child := by
    have distinct := valid.distinct
    rw [buildNames, top] at distinct
    intro eq
    refine (List.nodup_cons.mp distinct).1 (List.mem_map.mpr ⟨other, under, ?_⟩)
    exact same.trans (named.symm.trans eq)
  have stands : (⟨child, written, .inheriting target outlined parents []⟩ :: below) <:+ k.builds := by
    simp only [top, List.suffix_refl]
  rcases passes.gathered (.covers project) _ _ _ _ _ _ _ stands gathered listed apart with supplied | ⟨bare, -⟩
  · exfalso
    rw [named, ← same] at supplied
    rcases supplied with ⟨m, ready, -⟩ | ⟨e, failed⟩ | ⟨build, inK', eq, draft, rest, stage, -⟩
    · exact valid.apart inK ready rfl rfl
    · exact valid.apart inK failed rfl rfl
    · rw [valid.same_build inK' inK eq] at stage
      rw [stage] at inherits
      exact inherits
  · exact bare

theorem Deprived.step (valid : Coherent k) (deprived : k.Deprived child parent) (step : Step project k next) :
    next.Deprived child parent := by
  rcases deprived with ⟨written, target, outlined, parents, below, top, fresh, bare⟩ |
    ⟨build, under, rfl, m, rest, stage, made⟩ | ⟨e, failed⟩ | ⟨m, ready, made⟩
  · rcases step.settles top with ⟨draft, ground, -, builds⟩ | failed
    · refine .inr (.inl ⟨_, builds ▸ List.mem_cons_self, rfl, _, _, rfl, fun kept => ?_⟩)
      rcases (Drafting.groundwork_ok ground).1 with alone | ⟨from_, listed, base, before, after⟩
      · rw [alone.parentName, fresh.parentName] at kept
        cases kept
      · rw [after.parentName, Model.extend_parentName] at kept
        have nothing := bare from_ listed (Option.some.inj kept)
        have whole := before.merged fresh.merged
        exact after.selfMade (Model.extend_selfMade whole (before.selfMade fresh.selfMade) nothing)
    · exact .inr (.inr (.inl failed))
  · have onward {later : Model} (same : m.Agrees later) (kept : later.parentName = some parent) : later.SelfMade :=
      same.selfMade (made (same.parentName ▸ kept))
    rcases valid.linking step under stage with ⟨later, inNext, same, m', rest', stage', grows⟩ | failed | ⟨links, ready⟩
    · refine .inr (.inl ⟨later, inNext, same, m', rest', stage', ?_⟩)
      rcases grows with rfl | ⟨new, rfl⟩
      · exact made
      · exact onward (m.addMember_agrees new)
    · exact .inr (.inr (.inl failed))
    · refine .inr (.inr (.inr ⟨_, ready, onward ?_⟩))
      exact (Model.complete_rearranges project.settings m).toAgrees.trans (Cache.foldl_implement_agrees _ _)
  · exact .inr (.inr (.inl ⟨e, valid.keeps_failure step failed⟩))
  · rcases valid.keeps step ready rfl with kept | ⟨link, -, kept⟩
    · exact .inr (.inr (.inr ⟨m, kept, made⟩))
    · refine .inr (.inr (.inr ⟨_, kept, fun extends_ => ?_⟩))
      have same := Cache.implement_agrees m link
      exact same.selfMade (made (same.parentName ▸ extends_))

end Progress

-- Declares itself whatever the other model has and requires.
def Model.Redeclares (m other : Model) : Prop :=
  other.propertyNames ⊆ m.ownNames ∧ ∀ name ∈ other.allRequiredNames, name ∈ m.requiredNames

-- Every child has the properties of its parent and requires what the parent requires.
def Report.Inherits (report : Report) : Prop :=
  ∀ m ∈ report.models, ∀ parent ∈ report.models, m.parentName = some parent.name → m.Covers parent

instance (report : Report) : Decidable report.Inherits :=
  inferInstanceAs (Decidable (∀ m ∈ report.models, ∀ parent ∈ report.models, _))

namespace Project
variable (project : Project)

theorem selfMade_of_early {m : Model} {parent : String} (known : m ∈ project.run.models)
    (early : project.Early m.name parent) (kept : m.parentName = some parent) : m.SelfMade := by
  have ready := project.mem_run_models.mp known
  obtain ⟨k, passes, takes⟩ := early
  have deprived := passes.onward (P := (·.Deprived m.name parent)) (takes.deprived passes)
    fun _ _ before _ step deprived => deprived.step before.coherent step
  rcases deprived with ⟨_, _, _, _, _, top, -⟩ | ⟨build, under, -⟩ | ⟨e, failed⟩ | ⟨other, found, made⟩
  · cases top
  · cases under
  · cases ready.symm.trans failed
  · cases ready.symm.trans found
    exact made kept

theorem covers_iff {m parent : Model} (known : m ∈ project.run.models) (listed : parent ∈ project.run.models)
    (kept : m.parentName = some parent.name) :
    m.Covers parent ↔ (project.Early m.name parent.name → m.Redeclares parent) := by
  have ready := project.mem_run_models.mp known
  have found := project.mem_run_models.mp listed
  constructor
  · intro covers early
    have made := project.selfMade_of_early known early kept
    exact ⟨fun name has => made.1 (covers.1 has), fun name needs => made.2 name (covers.2 name needs)⟩
  · intro redeclares
    by_cases self : parent.name = m.name
    · rw [self] at found
      cases ready.symm.trans found
      exact .refl m
    have inherited := (Progress.passes_done project).settled.models m.name m ready
    rcases inherited.view parent.name kept self with supplied | ⟨-, early⟩
    · rcases supplied with ⟨other, stands, covers⟩ | ⟨e, failed⟩ | ⟨build, under, -⟩
      · cases found.symm.trans stands
        exact covers
      · cases found.symm.trans failed
      · cases under
    · obtain ⟨properties, required⟩ := redeclares early
      exact ⟨fun name has => inherited.merged.1 (properties has),
        fun name needs => inherited.merged.2 name (required name needs)⟩

-- A child lacks something of its parent when it takes over the view of the parent too early and does
-- not declare the missing part itself, and only then.
theorem run_inherits_iff : project.run.Inherits ↔
    ∀ m ∈ project.run.models, ∀ parent ∈ project.run.models, m.parentName = some parent.name →
      project.Early m.name parent.name → m.Redeclares parent := by
  constructor
  · intro inherits m known parent listed kept
    exact (project.covers_iff known listed kept).mp (inherits m known parent listed kept)
  · intro redeclares m known parent listed kept
    exact (project.covers_iff known listed kept).mpr (redeclares m known parent listed kept)

-- The parent of C leads back to C through a union, before it has published its own property.
def returning : Document where
  schemas := Table.ofEntries [
    ("P", { allOf := some [Schema.referenceTo "Q"], properties := [("p", { type := some (.single "string") })] }),
    ("Q", { oneOf := some [Schema.referenceTo "C"] }),
    ("C", { allOf := some [Schema.referenceTo "P"] })]
  fingerprint := ""

theorem run_not_inherits_returning : ¬ (Project.of GeneratorSettings.defaults returning).run.Inherits := by
  decide +kernel

end Project
end ApiModels
