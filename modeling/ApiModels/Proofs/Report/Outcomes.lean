import ApiModels.Proofs.Resolution.Coherence

namespace ApiModels
namespace Project

-- A build was started under this name during the run over the document.
def Begins (project : Project) (name : String) (written : Schema) : Prop :=
  ∃ k, Progress.Passes project k ∧ k.builds.head? = some ⟨name, written, .opening⟩

def Generates (project : Project) (name : String) : Prop :=
  ∃ parent written index arm, project.Begins parent written ∧ written.oneOfArms[index]? = some arm ∧
    arm.reference = none ∧ name = Drafting.armName parent index

end Project

namespace Build

def Proper (name : String) (written : Schema) : Request → Prop
  | .reference _ => True
  | .arm child s => ∃ index, written.oneOfArms[index]? = some s ∧ s.reference = none ∧
      child = Drafting.armName name index

def Drafted (name : String) : Stage → Prop
  | .opening => True
  | .inheriting _ outlined _ _ => outlined.Fresh name
  | .linking m _ => m.interfaces = []

structure Sound (project : Project) (build : Build) : Prop where
  begun : project.Begins build.name build.written
  led : ∀ target outlined parents rest, build.stage = .inheriting target outlined parents rest →
    project.document.unalias build.written = .ok target
  proper : ∀ request ∈ build.stage.requests, Proper build.name build.written request
  drafted : Drafted build.name build.stage

theorem proper_parents (name : String) (written target : Schema) :
    ∀ request ∈ target.parentRequests, Proper name written request := by
  intro request listed
  obtain ⟨reference, _, rfl⟩ := List.mem_map.mp listed
  trivial

theorem proper_arms {document : Document} {name : String} {written target : Schema}
    (led : document.unalias written = .ok target) :
    ∀ request ∈ target.armRequests name, Proper name written request := by
  intro request listed
  obtain ⟨⟨arm, index⟩, position, rfl⟩ := List.mem_map.mp listed
  have found : target.oneOfArms[index]? = some arm := List.mk_mem_zipIdx_iff_getElem?.mp position
  dsimp only
  unfold Request.ofArm
  cases inline : arm.reference with
  | some reference => trivial
  | none =>
      obtain rfl := Document.unalias_composed led (Schema.isComposed_of_arm (List.mem_of_getElem? found))
      exact ⟨index, found, inline, rfl⟩

theorem Sound.step {project : Project} {k next : Progress} (passes : Progress.Passes project next)
    (sound : ∀ build ∈ k.builds, build.Sound project) (step : Progress.Step project k next) :
    ∀ build ∈ next.builds, build.Sound project := by
  intro build under
  have top {inner : Build} {below : List Build} (same : k.builds = inner :: below) : inner.Sound project :=
    sound inner (same ▸ List.mem_cons_self)
  cases step.moved under with
  | stayed before => exact sound build before
  | begun asks shape =>
      exact ⟨⟨next, passes, shape ▸ rfl⟩, fun _ _ _ _ stage => Stage.noConfusion stage,
        fun _ none => absurd none List.not_mem_nil, trivial⟩
  | opened same opened =>
      obtain ⟨led, fresh, -⟩ := Resolution.opening_ok opened
      refine ⟨(top same).begun, ?_, proper_parents _ _ _, fresh⟩
      intro _ _ _ _ stage
      cases stage
      exact led
  | inherited same known answered =>
      have before := top same
      refine ⟨before.begun, ?_, fun other later => before.proper other (List.mem_cons_of_mem _ later), before.drafted⟩
      intro _ _ _ _ stage
      cases stage
      exact before.led _ _ _ _ rfl
  | settled same settled =>
      have before := top same
      refine ⟨before.begun, fun _ _ _ _ stage => Stage.noConfusion stage, proper_arms (before.led _ _ _ _ rfl), ?_⟩
      exact (Drafting.groundwork_ok settled).1.interfaces.trans before.drafted.interfaces
  | linked same known answered kept =>
      have before := top same
      exact ⟨before.begun, fun _ _ _ _ stage => Stage.noConfusion stage,
        fun other later => before.proper other (List.mem_cons_of_mem _ later), before.drafted⟩

end Build

namespace Progress

structure Accounted (project : Project) (k : Progress) : Prop where
  sound : ∀ build ∈ k.builds, build.Sound project
  known : ∀ name ∈ k.cache.entries.names, name ∈ project.document.names ∨ project.Generates name
  listed : ∀ entry ∈ k.waiting, entry ∈ project.document.schemas.entries
  covered : ∀ name ∈ project.document.names, name ∈ k.cache.entries.names ∨ name ∈ k.waiting.map Prod.fst

namespace Accounted
variable {project : Project}

theorem initial (project : Project) : Accounted project (start project) where
  sound _ listed := by cases listed
  known _ listed := by cases listed
  listed _ listed := listed
  covered _ listed := .inr listed

theorem asked {k : Progress} {name : String} {s : Schema} (valid : Accounted project k)
    (asks : Asks project.document k.builds k.waiting name s) :
    name ∈ project.document.names ∨ project.Generates name := by
  obtain ⟨session, builds, waiting⟩ := k
  cases asks with
  | run => exact .inl (List.mem_map_of_mem (valid.listed _ List.mem_cons_self))
  | @build build below _ request _ rest head known =>
      have sound := valid.sound build List.mem_cons_self
      have proper := sound.proper request (head ▸ List.mem_cons_self)
      cases request with
      | reference target => exact .inl (Table.mem_names_of_get? known)
      | arm child arm =>
          obtain ⟨index, position, inline, same⟩ := proper
          exact .inr ⟨build.name, build.written, index, arm, sound.begun, position, inline, same⟩

theorem step {k next : Progress} (passes : Passes project next) (coherent : Coherent k) (valid : Accounted project k)
    (step : Step project k next) : Accounted project next where
  sound := Build.Sound.step passes valid.sound step
  known name listed := by
    rcases coherent.fresh_name step listed with old | ⟨s, asks⟩
    · exact valid.known name old
    · exact valid.asked asks
  listed entry listed := by
    refine valid.listed entry ?_
    cases step <;> first | exact listed | exact List.mem_cons_of_mem _ listed
  covered name listed := by
    rcases valid.covered name listed with known | waits
    · exact .inl (step.names known)
    · cases step with
      | reuse known =>
          rcases List.mem_cons.mp waits with rfl | later
          · exact .inl (Cache.mem_names_of_lookup known)
          · exact .inr later
      | _ => exact .inr waits

end Accounted

theorem Passes.accounted {k : Progress} {project : Project} (passes : Passes project k) : Accounted project k :=
  passes.induction (Accounted.initial project) fun _ _ before after step valid =>
    valid.step after before.coherent step

end Progress
namespace Cache
variable {cache : Cache}

def isReady (entry : String × CacheEntry) : Bool := entry.2.phase = .ready

theorem mem_failures {name : String} {e : ModelError} :
    (name, e) ∈ cache.failures ↔ cache.entries.get? name = some (.failed e) := by
  rw [Table.get?_eq_some, failures, List.mem_filterMap]
  constructor
  · rintro ⟨⟨other, entry⟩, listed, failed⟩
    cases entry <;> cases failed
    exact listed
  · exact fun listed => ⟨_, listed, rfl⟩

theorem mem_models {m : Model} : m ∈ cache.models ↔ ∃ name, cache.entries.get? name = some (.ready m) := by
  unfold models Table.values
  rw [List.filterMap_map, List.mem_filterMap]
  constructor
  · rintro ⟨⟨name, entry⟩, listed, ready⟩
    cases entry <;> cases ready
    exact ⟨name, Table.get?_eq_some.mpr listed⟩
  · exact fun ⟨name, found⟩ => ⟨_, Table.get?_eq_some.mp found, rfl⟩

theorem models_names (named : cache.Named) :
    cache.models.map (·.name) = (cache.entries.entries.filter isReady).map Prod.fst := by
  have own : ∀ entry ∈ cache.entries.entries, ∀ m ∈ readyModel? entry.2, m.name = entry.1 := by
    intro ⟨name, entry⟩ listed m ready
    refine named name entry m (Table.get?_eq_some.mpr listed) ?_
    cases entry <;> cases ready
    rfl
  unfold models Table.values
  rw [List.filterMap_map]
  generalize cache.entries.entries = entries at own
  induction entries with
  | nil => rfl
  | cons head rest ih =>
      have later := ih fun entry listed => own entry (List.mem_cons_of_mem _ listed)
      obtain ⟨name, entry⟩ := head
      cases entry with
      | ready m =>
          have here := own _ List.mem_cons_self m rfl
          simpa [readyModel?, isReady, CacheEntry.phase, here] using later
      | _ => simpa [List.filterMap_cons, readyModel?, isReady, CacheEntry.phase] using later

theorem failures_names (final : ∀ entry ∈ cache.entries.entries, entry.2.isFinal) :
    cache.failures.map Prod.fst = (cache.entries.entries.filter (!isReady ·)).map Prod.fst := by
  unfold failures
  generalize cache.entries.entries = entries at final
  induction entries with
  | nil => rfl
  | cons head rest ih =>
      have later := ih fun entry listed => final entry (List.mem_cons_of_mem _ listed)
      have here := final _ List.mem_cons_self
      obtain ⟨name, entry⟩ := head
      cases entry with
      | ready m => simpa [List.filterMap_cons, failure?, isReady, CacheEntry.phase] using later
      | failed e => simpa [failure?, isReady, CacheEntry.phase] using later
      | _ => simp [CacheEntry.isFinal] at here

end Cache

def Report.outcomes (report : Report) : List String := report.models.map (·.name) ++ report.failures.map Prod.fst

def Report.failed (report : Report) : List String := report.failures.map Prod.fst

namespace Project
variable (project : Project)

theorem coherent_done : Progress.Coherent (Progress.done project) := (Progress.passes_done project).coherent

theorem final_done {name : String} {entry : CacheEntry}
    (found : project.resolveAll.cache.entries.get? name = some entry) : entry.isFinal := by
  rcases project.coherent_done.ended name entry.phase (Cache.phase?_of_get? found) with under | final
  · cases under
  · cases entry <;> simp [CacheEntry.phase] at final <;> rfl

theorem known_of_listed {name : String} (listed : name ∈ project.document.names) :
    name ∈ project.resolveAll.cache.entries.names :=
  ((Progress.passes_done project).accounted.covered name listed).resolve_right List.not_mem_nil

theorem concluded {name : String} (listed : name ∈ project.document.names) :
    ∃ entry, project.resolveAll.cache.entries.get? name = some entry ∧ entry.isFinal := by
  obtain ⟨entry, found⟩ := Option.ne_none_iff_exists'.mp (Cache.mem_names_iff.mp (project.known_of_listed listed))
  exact ⟨entry, found, project.final_done found⟩

theorem mem_run_failures {name : String} {e : ModelError} :
    (name, e) ∈ project.run.failures ↔ project.resolveAll.cache.entries.get? name = some (.failed e) :=
  Cache.mem_failures

theorem mem_run_failed {name : String} :
    name ∈ project.run.failed ↔ ∃ e, project.resolveAll.cache.entries.get? name = some (.failed e) := by
  simp [Report.failed, mem_run_failures]

theorem mem_run_models {m : Model} :
    m ∈ project.run.models ↔ project.resolveAll.cache.entries.get? m.name = some (.ready m) := by
  refine Cache.mem_models.trans ⟨?_, fun found => ⟨_, found⟩⟩
  rintro ⟨name, found⟩
  have named : m.name = name := project.coherent_done.named name _ m found rfl
  exact named ▸ found

theorem outcomes_perm : project.run.outcomes.Perm project.resolveAll.cache.entries.names := by
  have named : project.resolveAll.cache.Named := project.coherent_done.named
  change (project.resolveAll.cache.models.map (·.name) ++ project.resolveAll.cache.failures.map Prod.fst).Perm _
  rw [Cache.models_names named,
    Cache.failures_names fun entry listed => project.final_done (Table.get?_eq_some.mpr listed), ← List.map_append]
  exact (List.filter_append_perm _ _).map Prod.fst

-- Every schema of the document is one model or one failure, and nothing of the work on them is left over.
theorem run_outcomes :
    (∀ name ∈ project.document.names, project.run.outcomes.count name = 1) ∧
      (∀ name ∈ project.run.outcomes, name ∈ project.document.names ∨ project.Generates name) ∧
      (∀ name entry, project.resolveAll.cache.entries.get? name = some entry → entry.isFinal) ∧
      project.resolveAll.cache.stack = [] ∧ project.resolveAll.cache.pendingLinks.names = [] ∧
      ∀ name ∈ project.resolveAll.cache.entries.names, project.resolveAll.cache.buildCount name = 1 := by
  have coherent := project.coherent_done
  have accounted := (Progress.passes_done project).accounted
  refine ⟨?_, ?_, fun name entry => project.final_done, coherent.stack, ?_, ?_⟩
  · intro name listed
    have known := (accounted.covered name listed).resolve_right (List.not_mem_nil)
    rw [project.outcomes_perm.count_eq]
    exact List.count_eq_one_of_mem project.resolveAll.cache.entries.distinct known
  · intro name listed
    exact accounted.known name (project.outcomes_perm.mem_iff.mp listed)
  · exact List.eq_nil_iff_forall_not_mem.mpr fun name waits => List.not_mem_nil (coherent.waiting name waits)
  · intro name listed
    obtain ⟨entry, found⟩ := Option.ne_none_iff_exists'.mp (Cache.mem_names_iff.mp listed)
    have built : project.resolveAll.cache.buildCount name =
      if (project.resolveAll.cache.phase? name).isSome then 1 else 0 := coherent.once name
    simpa [Cache.phase?_of_get? found] using built

end Project
end ApiModels
