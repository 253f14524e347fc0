import Mathlib.Data.List.Nodup
import ApiModels.Proofs.Resolution.Execution

namespace ApiModels

def Stage.phase : Stage → CacheEntry.Phase
  | .opening => .pending
  | _ => .building

def Stage.model? : Stage → Option Model
  | .opening => none
  | .inheriting _ outlined _ _ => some outlined
  | .linking m _ => some m

-- The entry of a build shows how far it is, and the model it works on has its name.
structure Build.Shown (cache : Cache) (build : Build) : Prop where
  phase : cache.phase? build.name = some build.stage.phase
  named : ∀ m ∈ build.stage.model?, m.name = build.name

namespace Progress

structure Coherent (k : Progress) : Prop where
  stack : k.cache.stack = k.buildNames.reverse
  distinct : k.buildNames.Nodup
  shown : ∀ build ∈ k.builds, build.Shown k.cache
  -- A build with another one above it has asked for that one.
  asking : ∀ build ∈ k.builds.tail, build.stage.requests ≠ []
  ended : ∀ name phase, k.cache.phase? name = some phase →
    name ∈ k.buildNames ∨ phase = .ready ∨ phase = .failed
  named : k.cache.Named
  waiting : ∀ name ∈ k.cache.pendingLinks.names, name ∈ k.buildNames
  once : ∀ name, k.cache.buildCount name = if (k.cache.phase? name).isSome then 1 else 0

namespace Coherent
variable {project : Project} {session next : Session} {name : String} {written : Schema} {stage later : Stage}
  {below : List Build} {waiting : List (String × Schema)}

theorem initial (waiting : List (String × Schema)) : Coherent ⟨{}, [], waiting⟩ where
  stack := rfl
  distinct := List.nodup_nil
  shown _ listed := by cases listed
  asking _ listed := by cases listed
  ended _ _ found := by cases found
  named _ _ _ found := by cases found
  waiting _ listed := by cases listed
  once _ := rfl

theorem await {builds : List Build} (valid : Coherent ⟨session, builds, waiting⟩) (later : List (String × Schema)) :
    Coherent ⟨session, builds, later⟩ :=
  ⟨valid.stack, valid.distinct, valid.shown, valid.asking, valid.ended, valid.named, valid.waiting, valid.once⟩

theorem foreign (valid : Coherent ⟨session, ⟨name, written, stage⟩ :: below, waiting⟩) {build : Build}
    (listed : build ∈ below) : name ≠ build.name := by
  have fresh := (List.nodup_cons.mp valid.distinct).1
  exact fun same => fresh (List.mem_map.mpr ⟨build, listed, same.symm⟩)

theorem counted {phase : CacheEntry.Phase} (valid : Coherent ⟨session, ⟨name, written, stage⟩ :: below, waiting⟩)
    (counts : next.cache.buildCounts = session.cache.buildCounts)
    (phases : ∀ other, next.cache.phase? other =
      if name = other then some phase else session.cache.phase? other) (other : String) :
    next.cache.buildCount other = if (next.cache.phase? other).isSome then 1 else 0 := by
  have begun := (valid.shown _ List.mem_cons_self).phase
  have before := valid.once other
  unfold Cache.buildCount at before ⊢
  rw [counts, phases]
  refine before.trans ?_
  by_cases same : name = other
  · subst same
    rw [if_pos rfl, begun]
    rfl
  · rw [if_neg same]
    rfl

theorem go_on (valid : Coherent ⟨session, ⟨name, written, stage⟩ :: below, waiting⟩)
    (stack : next.cache.stack = session.cache.stack)
    (counts : next.cache.buildCounts = session.cache.buildCounts)
    (phases : ∀ other, next.cache.phase? other =
      if name = other then some .building else session.cache.phase? other)
    (named : next.cache.Named)
    (links : ∀ other ∈ next.cache.pendingLinks.names, other ∈ name :: below.map (·.name))
    (further : later.phase = .building) (models : ∀ m ∈ later.model?, m.name = name) :
    Coherent ⟨next, ⟨name, written, later⟩ :: below, waiting⟩ where
  stack := stack.trans valid.stack
  distinct := valid.distinct
  shown build listed := by
    rcases List.mem_cons.mp listed with rfl | under
    · exact ⟨by simp [cache, phases, further], models⟩
    · have shown := valid.shown build (List.mem_cons_of_mem _ under)
      refine ⟨?_, shown.named⟩
      change next.cache.phase? build.name = _
      rw [phases, if_neg (valid.foreign under)]
      exact shown.phase
  asking := valid.asking
  ended other phase found := by
    change next.cache.phase? other = some phase at found
    rw [phases] at found
    split at found
    · rename_i same
      exact .inl (same ▸ List.mem_cons_self)
    · exact valid.ended other phase found
  named := named
  waiting := links
  once := valid.counted counts phases

theorem unchanged (valid : Coherent ⟨session, ⟨name, written, stage⟩ :: below, waiting⟩)
    (further : stage.phase = .building) (other : String) :
    session.cache.phase? other = if name = other then some .building else session.cache.phase? other := by
  split
  · rename_i same
    have shown : session.cache.phase? name = some stage.phase := (valid.shown _ List.mem_cons_self).phase
    rw [← same, shown, further]
  · rfl

theorem pop {phase : CacheEntry.Phase} (valid : Coherent ⟨session, ⟨name, written, stage⟩ :: below, waiting⟩)
    (stack : next.cache.stack = Cache.popName name session.cache.stack)
    (counts : next.cache.buildCounts = session.cache.buildCounts)
    (phases : ∀ other, next.cache.phase? other =
      if name = other then some phase else session.cache.phase? other)
    (final : phase = .ready ∨ phase = .failed)
    (named : next.cache.Named)
    (links : next.cache.pendingLinks = session.cache.pendingLinks.erase name) :
    Coherent ⟨next, below, waiting⟩ where
  stack := by
    -- The stack begins with the outermost build, and the builds with the innermost one.
    have before : session.cache.stack = below.reverse.map (·.name) ++ [name] := by
      simpa [cache, buildNames] using valid.stack
    change next.cache.stack = _
    rw [stack, before, Cache.popName_concat]
    simp [buildNames]
  distinct := (List.nodup_cons.mp valid.distinct).2
  shown build listed := by
    have shown := valid.shown build (List.mem_cons_of_mem _ listed)
    refine ⟨?_, shown.named⟩
    change next.cache.phase? build.name = _
    rw [phases, if_neg (valid.foreign listed)]
    exact shown.phase
  asking build listed := valid.asking build (List.mem_of_mem_tail listed)
  ended other phase found := by
    change next.cache.phase? other = some phase at found
    rw [phases] at found
    split at found
    · cases found
      exact .inr final
    · rename_i apart
      rcases valid.ended other phase found with under | final
      · exact .inl ((List.mem_cons.mp under).resolve_left (Ne.symm apart))
      · exact .inr final
  named := named
  waiting other listed := by
    change other ∈ next.cache.pendingLinks.names at listed
    rw [links] at listed
    obtain ⟨apart, listed⟩ := Table.mem_names_erase.mp listed
    exact (List.mem_cons.mp (valid.waiting other listed)).resolve_left apart
  once := valid.counted counts phases

theorem begin {builds : List Build} {s : Schema} (valid : Coherent ⟨session, builds, waiting⟩)
    (asks : Asks project.document builds waiting name s) (fresh : session.cache.entries.get? name = none) :
    Coherent ⟨{ session with cache := session.cache.begin name }, ⟨name, s, .opening⟩ :: builds, waiting⟩ := by
  have unknown : session.cache.phase? name = none := Cache.phase?_eq_none.mpr fresh
  have apart {other : String} (known : session.cache.phase? other ≠ none) : name ≠ other :=
    fun same => known (same ▸ unknown)
  have under {build : Build} (listed : build ∈ builds) : name ≠ build.name := by
    have shown := (valid.shown build listed).phase
    exact apart fun absent => by cases absent.symm.trans shown
  constructor
  case stack =>
    have before : session.cache.stack = (builds.map (·.name)).reverse := valid.stack
    simp [cache, Cache.begin, buildNames, before]
  case distinct =>
    refine List.nodup_cons.mpr ⟨fun listed => ?_, valid.distinct⟩
    obtain ⟨build, listed, same⟩ := List.mem_map.mp listed
    exact under listed same.symm
  case shown =>
    intro build listed
    rcases List.mem_cons.mp listed with rfl | below
    · exact ⟨by simp [cache, Cache.phase?_begin, Stage.phase], fun m listed => by cases listed⟩
    · have shown := valid.shown build below
      refine ⟨?_, shown.named⟩
      change (session.cache.begin name).phase? build.name = _
      rw [Cache.phase?_begin, if_neg (under below)]
      exact shown.phase
  case asking =>
    intro build listed
    cases asks with
    | run => cases listed
    | build head known =>
        rcases List.mem_cons.mp listed with rfl | below
        · exact head ▸ List.cons_ne_nil _ _
        · exact valid.asking build below
  case ended =>
    intro other phase found
    change (session.cache.begin name).phase? other = some phase at found
    rw [Cache.phase?_begin] at found
    split at found
    · rename_i same
      exact .inl (same ▸ List.mem_cons_self)
    · exact (valid.ended other phase found).imp (List.mem_cons_of_mem _) id
  case named => exact valid.named.begin name
  case waiting => exact fun other listed => List.mem_cons_of_mem _ (valid.waiting other listed)
  case once =>
    intro other
    change (session.cache.begin name).buildCount other = if ((session.cache.begin name).phase? other).isSome then 1 else 0
    rw [Cache.buildCount_begin, Cache.phase?_begin]
    have before := valid.once other
    by_cases same : name = other
    · subst same
      change session.cache.buildCount name = if (session.cache.phase? name).isSome then 1 else 0 at before
      simp [before, unknown]
    · rw [if_neg same, if_neg same]
      exact before

theorem step {k next : Progress} (valid : Coherent k) (step : Step project k next) : Coherent next := by
  cases step with
  | begin asks fresh => exact valid.begin asks (Cache.lookup_eq_none.mp fresh)
  | reuse known => exact valid.await _
  | @opened session next name written target outlined below waiting opened =>
      obtain ⟨-, fresh, cache⟩ := Resolution.opening_ok opened
      have pending := (valid.shown _ List.mem_cons_self).phase
      refine valid.go_on ?_ ?_ ?_ ?_ ?_ rfl ?_
      · simp [cache]
      · simp [cache]
      · intro other
        rw [cache, Cache.phase?_publish (.inl (fresh.name ▸ pending)), fresh.name]
      · exact cache ▸ valid.named.publish outlined
      · intro other listed
        rw [cache, Cache.publish_pendingLinks] at listed
        exact valid.waiting other listed
      · intro m listed
        cases listed
        exact fresh.name
  | @inherit session name written target s outlined parent parents request rest below waiting known answered =>
      exact valid.go_on rfl rfl (valid.unchanged rfl) valid.named valid.waiting rfl
        (valid.shown _ List.mem_cons_self).named
  | @settle session next name written target outlined parents below waiting settled =>
      have shown := valid.shown _ List.mem_cons_self
      obtain ⟨extended, cache⟩ := Drafting.groundwork_ok settled
      have named : next.model.name = name := extended.name.trans (shown.named outlined rfl)
      have models (m : Model) (listed : m ∈ (Stage.linking next.model (target.armRequests name)).model?) :
          m.name = name := by
        cases listed
        exact named
      split at cache
      · refine valid.go_on ?_ ?_ ?_ ?_ ?_ rfl models <;> rw [cache]
        · exact valid.unchanged rfl
        · exact valid.named
        · exact valid.waiting
      · refine valid.go_on ?_ ?_ ?_ ?_ ?_ rfl models <;> rw [cache]
        · exact Cache.publish_stack
        · exact Cache.publish_buildCounts
        · intro other
          rw [Cache.phase?_publish (.inr (named ▸ shown.phase)), named]
        · exact valid.named.publish next.model
        · rw [Cache.publish_pendingLinks]
          exact valid.waiting
  | @link session name written s m child request rest below waiting known answered =>
      have shown := valid.shown _ List.mem_cons_self
      refine valid.go_on Cache.registerInterface_stack Cache.registerInterface_buildCounts ?_
        (valid.named.registerInterface _ _ _) ?_ rfl ?_
      · intro other
        rw [Cache.phase?_registerInterface]
        exact valid.unchanged rfl other
      · intro other listed
        change other ∈ (session.cache.registerInterface _ _ _).pendingLinks.names at listed
        rcases Cache.lookup_ok.mp answered with ready | building
        · rw [Cache.registerInterface_ready ready] at listed
          exact valid.waiting other listed
        · rw [Cache.registerInterface_building building] at listed
          rcases Table.mem_names_put.mp listed with rfl | old
          · have under := valid.ended _ _ (Cache.phase?_of_get? building)
            exact under.resolve_right (by simp [CacheEntry.phase])
          · exact valid.waiting other old
      · intro linked listed
        cases listed
        exact shown.named m rfl
  | @close session name written m below waiting =>
      have named : m.name = name := (valid.shown _ List.mem_cons_self).named m rfl
      have kept := (Model.complete_rearranges project.settings m).name.trans named
      refine valid.pop ?_ rfl ?_ (.inl rfl) (valid.named.finish _) ?_
      · exact congrArg (Cache.popName · _) kept
      · intro other
        rw [← kept]
        exact Cache.phase?_finish
      · exact congrArg session.cache.pendingLinks.erase kept
  | @fail session next build below waiting e fault =>
      refine valid.pop ?_ ?_ ?_ (.inr rfl) ?_ ?_
      · exact congrArg (Cache.popName build.name ·.stack) fault.cache
      · exact congrArg (·.buildCounts) fault.cache
      · intro other
        change (next.cache.fail build.name e).phase? other = _
        rw [Cache.phase?_fail, fault.cache]
      · change (next.cache.fail build.name e).Named
        rw [fault.cache]
        exact valid.named.fail build.name e
      · exact congrArg (·.pendingLinks.erase build.name) fault.cache

end Coherent

def Linked (k : Progress) (parent child : String) : Prop :=
  ∃ build ∈ k.builds, build.name = parent ∧
    ∃ m rest, build.stage = .linking m rest ∧ child ∈ m.unionMembers

section Final
variable {project : Project} {k next : Progress} {name : String} {entry : CacheEntry}

theorem Coherent.same_build (valid : Coherent k) {one two : Build} (first : one ∈ k.builds) (second : two ∈ k.builds)
    (same : one.name = two.name) : one = two :=
  List.inj_on_of_nodup_map valid.distinct first second same

theorem Coherent.apart (valid : Coherent k) {build : Build} (under : build ∈ k.builds)
    (found : k.cache.entries.get? name = some entry) (final : entry.isFinal) : build.name ≠ name := by
  rintro rfl
  have shown := (valid.shown build under).phase
  rw [Cache.phase?_of_get? found] at shown
  have same := Option.some.inj shown
  cases entry <;> cases stage : build.stage <;> simp_all [CacheEntry.phase, Stage.phase, CacheEntry.isFinal]

inductive Stores (project : Project) (k next : Progress) : Prop where
  | same : next.cache = k.cache → Stores project k next
  | begin {name : String} {s : Schema} : Asks project.document k.builds k.waiting name s →
      k.cache.entries.get? name = none → next.cache = k.cache.begin name → Stores project k next
  | publish {m : Model} : k.buildNames.head? = some m.name → next.cache = k.cache.publish m → Stores project k next
  | register {parent child : String} {m : Model} : k.cache.lookup child = some (.ok m) → next.Linked parent child →
      next.cache = k.cache.registerInterface child parent (project.naming.modelName parent) →
      Stores project k next
  | finish {written : Schema} {draft m : Model} {below : List Build} :
      k.builds = ⟨m.name, written, .linking draft []⟩ :: below → m = draft.complete project.settings →
      next.cache = (k.cache.finish m).1 → Stores project k next
  | fail {build : Build} {below : List Build} {e : ModelError} {after : Session} :
      k.builds = build :: below → Fault project k.session build e after →
      next.cache = k.cache.fail build.name e → Stores project k next

theorem Coherent.stores (valid : Coherent k) (step : Step project k next) : Stores project k next := by
  cases step with
  | begin asks fresh => exact .begin asks (Cache.lookup_eq_none.mp fresh) rfl
  | reuse known => exact .same rfl
  | opened opened =>
      obtain ⟨-, fresh, stored⟩ := Resolution.opening_ok opened
      exact .publish (congrArg some fresh.name.symm) stored
  | inherit known answered => exact .same rfl
  | @settle session after name written target outlined parents below waiting settled =>
      obtain ⟨extended, stored⟩ := Drafting.groundwork_ok settled
      split at stored
      · exact .same stored
      · have named := (valid.shown _ List.mem_cons_self).named outlined rfl
        exact .publish (congrArg some (extended.name.trans named).symm) stored
  | link known answered =>
      refine .register answered ⟨_, List.mem_cons_self, rfl, _, _, rfl, ?_⟩ rfl
      exact (Model.mem_link _ _ _).mpr (.inl rfl)
  | @close session name written m below waiting =>
      have named : m.name = name := (valid.shown _ List.mem_cons_self).named m rfl
      have kept := (Model.complete_rearranges project.settings m).name.trans named
      exact @Stores.finish _ _ _ written m _ below (by rw [kept]) rfl rfl
  | fail fault =>
      refine .fail rfl fault ?_
      rw [cache, Session.failed, fault.cache]
      rfl

-- What a build came to stays, but for the links of a model.
theorem Coherent.keeps (valid : Coherent k) (step : Step project k next)
    (found : k.cache.entries.get? name = some entry) (final : entry.isFinal) :
    next.cache.entries.get? name = some entry ∨
      ∃ link : PendingLink, next.Linked link.parent name ∧ next.cache.entries.get? name = some (entry.linked link) := by
  cases valid.stores step with
  | same kept => exact .inl (kept ▸ found)
  | @begin other s asks fresh kept =>
      have apart : ¬ other = name := by
        rintro rfl
        cases found.symm.trans fresh
      rw [kept, Cache.get?_begin, if_neg apart]
      exact .inl found
  | publish top kept => exact .inl (kept ▸ Cache.get?_publish_final found final)
  | @register parent child m answered linked kept =>
      rw [kept, Cache.get?_registerInterface]
      by_cases here : child = name
      · subst here
        rw [if_pos rfl, found]
        exact .inr ⟨⟨parent, project.naming.modelName parent⟩, linked, rfl⟩
      · exact .inl ((if_neg here).trans found)
  | finish top same kept =>
      have apart := valid.apart (top ▸ List.mem_cons_self) found final
      rw [kept, Cache.get?_finish]
      exact .inl ((if_neg apart).trans found)
  | fail top fault kept =>
      have apart := valid.apart (top ▸ List.mem_cons_self) found final
      rw [kept, Cache.get?_fail]
      exact .inl ((if_neg apart).trans found)

theorem Coherent.keeps_failure (valid : Coherent k) (step : Step project k next) {e : ModelError}
    (failed : k.cache.entries.get? name = some (.failed e)) : next.cache.entries.get? name = some (.failed e) := by
  rcases valid.keeps step failed rfl with kept | ⟨link, -, kept⟩ <;> exact kept

theorem Coherent.keeps_final (valid : Coherent k) (step : Step project k next)
    (ended : ∃ entry, k.cache.entries.get? name = some entry ∧ entry.isFinal) :
    ∃ entry, next.cache.entries.get? name = some entry ∧ entry.isFinal := by
  obtain ⟨entry, found, final⟩ := ended
  rcases valid.keeps step found final with kept | ⟨link, -, kept⟩
  · exact ⟨entry, kept, final⟩
  · refine ⟨_, kept, ?_⟩
    cases entry <;> exact final

-- A finished model was finished before, perhaps with a link less, or is what the innermost build
-- has come to.
theorem Coherent.ready (valid : Coherent k) (step : Step project k next) {m : Model}
    (ready : next.cache.entries.get? name = some (.ready m)) :
    k.cache.entries.get? name = some (.ready m) ∨
      (∃ (before : Model) (link : PendingLink), k.cache.entries.get? name = some (.ready before) ∧
        m = Cache.implement before link ∧ next.Linked link.parent name ∧
          link.parentClass = project.naming.modelName link.parent) ∨
      ∃ written draft below, k.builds = ⟨name, written, .linking draft []⟩ :: below ∧
        m = (k.cache.linksOf name).foldl Cache.implement (draft.complete project.settings) := by
  cases valid.stores step with
  | same kept => exact .inl (kept ▸ ready)
  | begin asks fresh kept =>
      rw [kept, Cache.get?_begin] at ready
      split at ready
      · cases ready
      · exact .inl ready
  | publish top kept =>
      rw [kept, Cache.get?_publish] at ready
      split at ready
      · cases ready
      · exact .inl ready
  | @register parent child other answered linked kept =>
      rw [kept, Cache.get?_registerInterface] at ready
      split at ready
      · rename_i same
        subst same
        obtain ⟨entry, found, written⟩ := Option.map_eq_some_iff.mp ready
        cases entry <;> cases written
        exact .inr (.inl ⟨_, ⟨parent, project.naming.modelName parent⟩, found, rfl, linked, rfl⟩)
      · exact .inl ready
  | @finish written draft other below top same kept =>
      rw [kept, Cache.get?_finish] at ready
      split at ready
      · rename_i here
        subst here
        cases ready
        exact .inr (.inr ⟨written, draft, below, top, same ▸ rfl⟩)
      · exact .inl ready
  | fail top fault kept =>
      rw [kept, Cache.get?_fail] at ready
      split at ready
      · cases ready
      · exact .inl ready

-- A build that takes in its arms did so before, has just settled its properties, or has taken in one
-- arm more.
theorem Step.linking_origin (step : Step project k next) {build : Build} (under : build ∈ next.builds) {m : Model}
    {rest : List Request} (stage : build.stage = .linking m rest) :
    build ∈ k.builds ∨
      (∃ target outlined parents below after,
        k.builds = ⟨build.name, build.written, .inheriting target outlined parents []⟩ :: below ∧
          Drafting.groundwork project target parents ⟨k.session, outlined⟩ = .ok () after ∧ m = after.model) ∨
      ∃ draft request child, ⟨build.name, build.written, .linking draft (request :: rest)⟩ ∈ k.builds ∧
        m = draft.addMember request.name ∧ k.cache.lookup request.name = some (.ok child) ∧
        next.cache = k.cache.registerInterface request.name build.name (project.naming.modelName build.name) := by
  cases step.moved under with
  | stayed before => exact .inl before
  | settled top settled =>
      cases stage
      exact .inr (.inl ⟨_, _, _, _, _, top, settled, rfl⟩)
  | linked top known answered kept =>
      cases stage
      exact .inr (.inr ⟨_, _, _, top ▸ List.mem_cons_self, rfl, answered, kept⟩)
  | _ => cases stage

theorem Coherent.linking (valid : Coherent k) (step : Step project k next) {build : Build} (under : build ∈ k.builds)
    {m : Model} {rest : List Request} (stage : build.stage = .linking m rest) :
    (∃ later ∈ next.builds, later.name = build.name ∧ ∃ m' rest', later.stage = .linking m' rest' ∧
        (m' = m ∨ ∃ child, m' = m.addMember child)) ∨
      (∃ e, next.cache.entries.get? build.name = some (.failed e)) ∨
      ∃ links : List PendingLink, next.cache.entries.get? build.name =
        some (.ready (links.foldl Cache.implement (m.complete project.settings))) := by
  have stays (inNext : build ∈ next.builds) : ∃ later ∈ next.builds, later.name = build.name ∧
      ∃ m' rest', later.stage = .linking m' rest' ∧ (m' = m ∨ ∃ child, m' = m.addMember child) :=
    ⟨build, inNext, rfl, m, rest, stage, .inl rfl⟩
  rcases step.remains under with inNext | ⟨below, top⟩
  · exact .inl (stays inNext)
  cases step with
  | begin asks fresh => exact .inl (stays (List.mem_cons_of_mem _ under))
  | reuse known => cases under
  | link known answered =>
      cases top
      cases stage
      exact .inl ⟨_, List.mem_cons_self, rfl, _, _, rfl, .inr ⟨_, rfl⟩⟩
  | @close session name written draft below waiting =>
      cases top
      cases stage
      have named : m.name = name := (valid.shown _ List.mem_cons_self).named m rfl
      have kept := (Model.complete_rearranges project.settings m).name.trans named
      exact .inr (.inr ⟨_, Cache.get?_finish.trans (if_pos kept)⟩)
  | fail fault =>
      cases top
      exact .inr (.inl ⟨_, Cache.get?_fail.trans (if_pos rfl)⟩)
  | _ =>
      cases top
      cases stage

theorem Step.settles (step : Step project k next) {written target : Schema} {outlined : Model} {parents : List Model}
    {below : List Build} (top : k.builds = ⟨name, written, .inheriting target outlined parents []⟩ :: below) :
    (∃ draft, Drafting.groundwork project target parents ⟨k.session, outlined⟩ = .ok () draft ∧
      next.session = draft.session ∧
      next.builds = ⟨name, written, .linking draft.model (target.armRequests name)⟩ :: below) ∨
      ∃ e, next.cache.entries.get? name = some (.failed e) := by
  cases step with
  | begin asks fresh =>
      subst top
      cases asks with
      | build head known => cases head
  | settle settled =>
      cases top
      exact .inl ⟨_, settled, rfl, rfl⟩
  | fail fault =>
      cases top
      exact .inr ⟨_, Cache.get?_fail.trans (if_pos rfl)⟩
  | _ => cases top

end Final

theorem Coherent.fresh_name {project : Project} {k next : Progress} (valid : Coherent k) (step : Step project k next)
    {name : String} (listed : name ∈ next.cache.entries.names) :
    name ∈ k.cache.entries.names ∨ ∃ s, Asks project.document k.builds k.waiting name s := by
  cases valid.stores step with
  | same kept => exact .inl (kept ▸ listed)
  | begin asks fresh kept =>
      rw [kept] at listed
      rcases Table.mem_names_put.mp listed with rfl | old
      · exact .inr ⟨_, asks⟩
      · exact .inl old
  | publish top kept =>
      rw [kept] at listed
      exact .inl (Cache.mem_names_publish.mp listed)
  | register answered linked kept =>
      rw [kept] at listed
      exact .inl (Cache.mem_names_registerInterface.mp listed)
  | finish top same kept =>
      rw [kept] at listed
      rcases Table.mem_names_put.mp listed with rfl | old
      · exact .inl (Cache.mem_names_of_phase? (valid.shown _ (top ▸ List.mem_cons_self)).phase)
      · exact .inl old
  | fail top fault kept =>
      rw [kept] at listed
      rcases Table.mem_names_put.mp listed with rfl | old
      · exact .inl (Cache.mem_names_of_phase? (valid.shown _ (top ▸ List.mem_cons_self)).phase)
      · exact .inl old

theorem Passes.coherent {project : Project} {k : Progress} (passes : Passes project k) : Coherent k :=
  passes.induction (Coherent.initial _) fun _ _ _ _ step valid => valid.step step

end Progress
end ApiModels
