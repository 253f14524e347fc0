import ApiModels.Proofs.Report.Outcomes

namespace ApiModels
namespace Cache

theorem foldl_implement (links : List PendingLink) (m : Model) :
    (links.foldl implement m).unionMembers = m.unionMembers ∧
      ∀ union, union ∈ (links.foldl implement m).interfaces ↔
        union ∈ m.interfaces ∨ ∃ link ∈ links, link.parent = union := by
  induction links generalizing m with
  | nil => simp
  | cons link rest ih =>
      obtain ⟨members, interfaces⟩ := ih (implement m link)
      refine ⟨members.trans (implement_unionMembers m link), fun union => ?_⟩
      rw [List.foldl_cons, interfaces, mem_interfaces_implement]
      simp only [List.mem_cons, exists_eq_or_imp]
      rw [eq_comm (a := link.parent)]
      exact ⟨fun either => by rcases either with (here | old) | later <;> simp_all,
        fun either => by rcases either with old | here | later <;> simp_all⟩

variable {cache : Cache} {parent child name : String}

-- The child shows the link, or will when it is finished.
def Notes (cache : Cache) (parent child : String) : Prop :=
  (∃ m, cache.entries.get? child = some (.ready m) ∧ parent ∈ m.interfaces) ∨
    (∃ e, cache.entries.get? child = some (.failed e)) ∨
    cache.phase? child = some .building ∧ ∃ link ∈ cache.linksOf child, link.parent = parent

namespace Notes

theorem known (notes : cache.Notes parent child) : cache.entries.get? child ≠ none := by
  rcases notes with ⟨m, ready, -⟩ | ⟨e, failed⟩ | ⟨building, -⟩
  · simp [ready]
  · simp [failed]
  · exact fun absent => by simp [phase?, absent] at building

theorem begin (notes : cache.Notes parent child) (fresh : cache.entries.get? name = none) :
    (cache.begin name).Notes parent child := by
  have apart : ¬ name = child := fun same => notes.known (same ▸ fresh)
  unfold Notes
  rw [get?_begin, phase?_begin, if_neg apart, if_neg apart]
  exact notes

theorem publish (notes : cache.Notes parent child) (m : Model) : (cache.publish m).Notes parent child := by
  rcases notes with ⟨m, ready, listed⟩ | ⟨e, failed⟩ | ⟨building, link, waits, same⟩
  · exact .inl ⟨m, get?_publish_final ready rfl, listed⟩
  · exact .inr (.inl ⟨e, get?_publish_final failed rfl⟩)
  · refine .inr (.inr ⟨?_, link, by simpa using waits, same⟩)
    unfold phase? at building ⊢
    rw [get?_publish]
    split
    · rfl
    · exact building

theorem finish (notes : cache.Notes parent child) {m : Model} (open_ : cache.phase? m.name = some .building) :
    (cache.finish m).1.Notes parent child := by
  by_cases here : m.name = child
  · subst here
    rcases notes with ⟨m', ready, -⟩ | ⟨e, failed⟩ | ⟨-, link, waits, same⟩
    · simp [phase?, ready, CacheEntry.phase] at open_
    · simp [phase?, failed, CacheEntry.phase] at open_
    · refine .inl ⟨(cache.finish m).2, get?_finish.trans (if_pos rfl), ?_⟩
      exact ((foldl_implement _ m).2 parent).mpr (.inr ⟨link, waits, same⟩)
  · unfold Notes
    rw [get?_finish, phase?_finish, linksOf_finish, if_neg here, if_neg here, if_neg here]
    exact notes

theorem fail (notes : cache.Notes parent child) (name : String) (e : ModelError) :
    (cache.fail name e).Notes parent child := by
  by_cases here : name = child
  · exact .inr (.inl ⟨e, get?_fail.trans (if_pos here)⟩)
  · unfold Notes
    rw [get?_fail, phase?_fail, linksOf_fail, if_neg here, if_neg here, if_neg here]
    exact notes

theorem registerInterface (notes : cache.Notes parent child) (other union unionClass : String) :
    (cache.registerInterface other union unionClass).Notes parent child := by
  unfold Notes
  rw [phase?_registerInterface]
  by_cases here : other = child
  · subst here
    rcases notes with ⟨m, ready, listed⟩ | ⟨e, failed⟩ | ⟨building, link, waits, same⟩
    · refine .inl ⟨implement m ⟨union, unionClass⟩, ?_, (mem_interfaces_implement m _ parent).mpr (.inr listed)⟩
      rw [get?_registerInterface, if_pos rfl, ready]
      rfl
    · refine .inr (.inl ⟨e, ?_⟩)
      rw [get?_registerInterface, if_pos rfl, failed]
      rfl
    · exact .inr (.inr ⟨building, link, (mem_linksOf_registerInterface link).mpr (.inr waits), same⟩)
  · rw [get?_registerInterface, if_neg here]
    refine notes.imp id (Or.imp id ?_)
    rintro ⟨building, link, waits, same⟩
    exact ⟨building, link, (mem_linksOf_registerInterface link).mpr (.inr waits), same⟩

theorem written (union unionClass : String) {m : Model} (answered : cache.lookup child = some (.ok m)) :
    (cache.registerInterface child union unionClass).Notes union child := by
  rcases lookup_ok.mp answered with ready | building
  · refine .inl ⟨implement m ⟨union, unionClass⟩, ?_, (mem_interfaces_implement m _ union).mpr (.inl rfl)⟩
    rw [get?_registerInterface, if_pos rfl, ready]
    rfl
  · have phase := phase?_of_get? building
    refine .inr (.inr ⟨by rwa [phase?_registerInterface], ⟨union, unionClass⟩, ?_, rfl⟩)
    refine (mem_linksOf_registerInterface _).mpr (.inl ⟨rfl, rfl, ?_⟩)
    rw [phase]
    exact fun same => by cases same

end Notes
end Cache

namespace Progress
variable {project : Project} {k next : Progress} {parent child name : String}

theorem Step.notes (step : Step project k next) (valid : Coherent k) (notes : k.cache.Notes parent child) :
    next.cache.Notes parent child := by
  cases valid.stores step with
  | same kept => exact kept ▸ notes
  | begin asks fresh kept => exact kept ▸ notes.begin fresh
  | publish top kept => exact kept ▸ notes.publish _
  | register answered linked kept => exact kept ▸ notes.registerInterface _ _ _
  | finish top same kept => exact kept ▸ notes.finish (valid.shown _ (top ▸ List.mem_cons_self)).phase
  | fail top fault kept => exact kept ▸ notes.fail _ _

-- The parent shows the link for as long as it does not fail.
def Lists (k : Progress) (parent child : String) : Prop :=
  k.Linked parent child ∨ (∃ e, k.cache.entries.get? parent = some (.failed e)) ∨
    ∃ m, k.cache.entries.get? parent = some (.ready m) ∧ child ∈ m.unionMembers

theorem Step.lists (step : Step project k next) (valid : Coherent k) (lists : k.Lists parent child) :
    next.Lists parent child := by
  rcases lists with ⟨build, under, rfl, m, rest, stage, listed⟩ | ⟨e, failed⟩ | ⟨m, ready, listed⟩
  · rcases valid.linking step under stage with ⟨later, inNext, same, m', rest', stage', grows⟩ | failed | ⟨links, ready⟩
    · refine .inl ⟨later, inNext, same, m', rest', stage', ?_⟩
      rcases grows with rfl | ⟨new, rfl⟩
      · exact listed
      · exact (Model.mem_link _ _ _).mpr (.inr listed)
    · exact .inr (.inl failed)
    · refine .inr (.inr ⟨_, ready, ?_⟩)
      rw [(Cache.foldl_implement _ _).1, (Model.complete_rearranges project.settings m).unionMembers]
      exact listed
  · exact .inr (.inl ⟨e, valid.keeps_failure step failed⟩)
  · rcases valid.keeps step ready rfl with kept | ⟨link, -, kept⟩
    · exact .inr (.inr ⟨m, kept, listed⟩)
    · exact .inr (.inr ⟨_, kept, by rwa [Cache.implement_unionMembers]⟩)

theorem Step.new_link (step : Step project k next) (sound : ∀ build ∈ k.builds, build.Sound project)
    (linked : next.Linked parent child) : k.Linked parent child ∨ next.cache.Notes parent child := by
  obtain ⟨build, under, rfl, m, rest, stage, listed⟩ := linked
  rcases step.linking_origin under stage with old | ⟨target, outlined, parents, below, after, top, settled, rfl⟩ |
    ⟨draft, request, answer, before, rfl, answered, written⟩
  · exact .inl ⟨build, old, rfl, m, rest, stage, listed⟩
  · have fresh := sound ⟨build.name, build.written, .inheriting target outlined parents []⟩ (top ▸ List.mem_cons_self)
    rw [(Drafting.groundwork_ok settled).1.unionMembers, fresh.drafted.unionMembers] at listed
    cases listed
  · rcases (Model.mem_link _ _ _).mp listed with rfl | old
    · exact .inr (written ▸ Cache.Notes.written _ _ answered)
    · exact .inl ⟨_, before, rfl, draft, _, rfl, old⟩

theorem Passes.notes (passes : Passes project k) (linked : k.Linked parent child) :
    k.cache.Notes parent child := by
  refine passes.induction (P := fun k => ∀ parent child, k.Linked parent child → k.cache.Notes parent child)
    ?_ ?_ parent child linked
  · rintro parent child ⟨build, under, -⟩
    cases under
  · intro k next before _ step noted parent child linked
    rcases step.new_link before.accounted.sound linked with old | notes
    · exact step.notes before.coherent (noted parent child old)
    · exact notes

theorem Step.waits (step : Step project k next) (valid : Coherent k) {link : PendingLink}
    (waits : link ∈ next.cache.linksOf child) : link ∈ k.cache.linksOf child ∨
      next.Linked link.parent child ∧ link.parentClass = project.naming.modelName link.parent := by
  cases valid.stores step with
  | same kept => exact .inl (kept ▸ waits)
  | begin asks fresh kept =>
      rw [kept] at waits
      exact .inl waits
  | publish top kept =>
      rw [kept, Cache.linksOf_publish] at waits
      exact .inl waits
  | register answered linked kept =>
      rw [kept] at waits
      rcases (Cache.mem_linksOf_registerInterface link).mp waits with ⟨rfl, rfl, -⟩ | old
      · exact .inr ⟨linked, rfl⟩
      · exact .inl old
  | finish top same kept =>
      rw [kept, Cache.linksOf_finish] at waits
      split at waits
      · cases waits
      · exact .inl waits
  | fail top fault kept =>
      rw [kept, Cache.linksOf_fail] at waits
      split at waits
      · cases waits
      · exact .inl waits

end Progress

-- The run has taken the child in as a member of the union parent.
def Project.Links (project : Project) (parent child : String) : Prop :=
  ∃ k, Progress.Passes project k ∧ k.Linked parent child

namespace Progress
variable {project : Project} {k next : Progress}

structure Attested (project : Project) (k : Progress) : Prop where
  members : ∀ name m, k.cache.entries.get? name = some (.ready m) → ∀ child ∈ m.unionMembers, project.Links name child
  interfaces : ∀ name m, k.cache.entries.get? name = some (.ready m) → ∀ union ∈ m.interfaces, project.Links union name
  waits : ∀ name, ∀ link ∈ k.cache.linksOf name, project.Links link.parent name

theorem Attested.step (before : Passes project k) (after : Passes project next) (valid : Attested project k)
    (step : Step project k next) : Attested project next where
  members name m ready child listed := by
    rcases before.coherent.ready step ready with old | ⟨m', link, old, rfl, -⟩ | ⟨written, draft, below, top, rfl⟩
    · exact valid.members name m old child listed
    · rw [Cache.implement_unionMembers] at listed
      exact valid.members name m' old child listed
    · rw [(Cache.foldl_implement _ _).1, (Model.complete_rearranges project.settings draft).unionMembers] at listed
      exact ⟨k, before, _, top ▸ List.mem_cons_self, rfl, draft, [], rfl, listed⟩
  interfaces name m ready union listed := by
    rcases before.coherent.ready step ready with old | ⟨m', link, old, rfl, linked, -⟩ | ⟨written, draft, below, top, rfl⟩
    · exact valid.interfaces name m old union listed
    · rcases (Cache.mem_interfaces_implement m' link union).mp listed with rfl | shown
      · exact ⟨next, after, linked⟩
      · exact valid.interfaces name m' old union shown
    · rcases ((Cache.foldl_implement _ _).2 union).mp listed with own | ⟨link, waits, rfl⟩
      · have drafted := (before.accounted.sound _ (top ▸ List.mem_cons_self)).drafted
        rw [(Model.complete_rearranges project.settings draft).interfaces, drafted] at own
        cases own
      · exact valid.waits name link waits
  waits name link waits := by
    rcases step.waits before.coherent waits with old | ⟨linked, -⟩
    · exact valid.waits name link old
    · exact ⟨next, after, linked⟩

theorem Passes.attested (passes : Passes project k) : Attested project k :=
  passes.induction (P := Attested project)
    ⟨fun _ _ found => (nomatch found), fun _ _ found => (nomatch found), fun _ _ waits => (nomatch waits)⟩
    fun _ _ before after step valid => valid.step before after step

end Progress

namespace Project
variable {project : Project} {parent child : String}

theorem Links.at_parent (links : project.Links parent child) :
    (∃ e, project.resolveAll.cache.entries.get? parent = some (.failed e)) ∨
      ∃ m, project.resolveAll.cache.entries.get? parent = some (.ready m) ∧ child ∈ m.unionMembers := by
  obtain ⟨k, passes, linked⟩ := links
  have lists := passes.onward (P := (·.Lists parent child)) (.inl linked)
    fun _ _ before _ step lists => step.lists before.coherent lists
  refine lists.resolve_left ?_
  rintro ⟨build, under, -⟩
  cases under

theorem Links.at_child (links : project.Links parent child) :
    (∃ e, project.resolveAll.cache.entries.get? child = some (.failed e)) ∨
      ∃ m, project.resolveAll.cache.entries.get? child = some (.ready m) ∧ parent ∈ m.interfaces := by
  obtain ⟨k, passes, linked⟩ := links
  have notes := passes.onward (P := (·.cache.Notes parent child)) (passes.notes linked)
    fun _ _ before _ step notes => step.notes before.coherent notes
  rcases notes with ready | failed | ⟨building, -⟩
  · exact .inr ready
  · exact .inl failed
  · rcases project.coherent_done.ended child _ building with under | final
    · cases under
    · cases final <;> contradiction

theorem mem_unionMembers_iff {m : Model} (known : m ∈ project.run.models) :
    child ∈ m.unionMembers ↔ project.Links m.name child := by
  have ready := project.mem_run_models.mp known
  refine ⟨(Progress.passes_done project).attested.members m.name m ready child, fun links => ?_⟩
  rcases links.at_parent with ⟨e, failed⟩ | ⟨same, found, listed⟩
  · cases ready.symm.trans failed
  · cases ready.symm.trans found
    exact listed

theorem mem_interfaces_iff {m : Model} (known : m ∈ project.run.models) :
    parent ∈ m.interfaces ↔ project.Links parent m.name := by
  have ready := project.mem_run_models.mp known
  refine ⟨(Progress.passes_done project).attested.interfaces m.name m ready parent, fun links => ?_⟩
  rcases links.at_child with ⟨e, failed⟩ | ⟨same, found, listed⟩
  · cases ready.symm.trans failed
  · cases ready.symm.trans found
    exact listed

end Project

-- Every union link of a model leads to a model.
def Report.Whole (report : Report) : Prop :=
  ∀ m ∈ report.models, ∀ name ∈ m.unionMembers ++ m.interfaces, name ∈ report.models.map (·.name)

instance (report : Report) : Decidable report.Whole := inferInstanceAs (Decidable (∀ m ∈ report.models, _))

namespace Project
variable (project : Project)

-- A link is orphaned when one of its ends fails and the other does not, and only then.
theorem run_whole_iff : project.run.Whole ↔
    ∀ parent child, project.Links parent child → (parent ∈ project.run.failed ↔ child ∈ project.run.failed) := by
  have attested := (Progress.passes_done project).attested
  have listed {name : String} {m : Model} (ready : project.resolveAll.cache.entries.get? name = some (.ready m)) :
      m ∈ project.run.models := Cache.mem_models.mpr ⟨name, ready⟩
  have model {name : String} (named : name ∈ project.run.models.map (·.name)) :
      ∃ m, project.resolveAll.cache.entries.get? name = some (.ready m) := by
    obtain ⟨m, known, rfl⟩ := List.mem_map.mp named
    exact ⟨m, project.mem_run_models.mp known⟩
  constructor
  · intro whole parent child links
    rw [mem_run_failed, mem_run_failed]
    constructor
    · rintro ⟨e, failed⟩
      refine links.at_child.resolve_right ?_
      rintro ⟨m, ready, shown⟩
      obtain ⟨other, found⟩ := model (whole m (listed ready) parent (List.mem_append.mpr (.inr shown)))
      cases failed.symm.trans found
    · rintro ⟨e, failed⟩
      refine links.at_parent.resolve_right ?_
      rintro ⟨m, ready, shown⟩
      obtain ⟨other, found⟩ := model (whole m (listed ready) child (List.mem_append.mpr (.inl shown)))
      cases failed.symm.trans found
  · intro together m known name linked
    have ready := project.mem_run_models.mp known
    have lives : m.name ∉ project.run.failed := by
      rw [mem_run_failed]
      rintro ⟨e, failed⟩
      cases ready.symm.trans failed
    have answers {other : Model} (found : project.resolveAll.cache.entries.get? name = some (.ready other)) :
        name ∈ project.run.models.map (·.name) :=
      List.mem_map.mpr ⟨other, listed found, project.coherent_done.named name _ other found rfl⟩
    rcases List.mem_append.mp linked with member | interface
    · have links := attested.members _ m ready name member
      rcases links.at_child with failed | ⟨other, found, -⟩
      · exact absurd ((together _ _ links).mpr (project.mem_run_failed.mpr failed)) lives
      · exact answers found
    · have links := attested.interfaces _ m ready name interface
      rcases links.at_parent with failed | ⟨other, found, -⟩
      · exact absurd ((together _ _ links).mp (project.mem_run_failed.mpr failed)) lives
      · exact answers found

-- A union whose second arm is not in the document.
def orphaning : Document where
  schemas := Table.ofEntries [
    ("Pet", { oneOf := some [Schema.referenceTo "Cat", Schema.referenceTo "Ghost"] }),
    ("Cat", { type := some (.single "object"), properties := [("name", { type := some (.single "string") })] })]
  fingerprint := ""

-- Its first arm keeps the link although the union has failed.
theorem run_not_whole_orphaning : ¬ (Project.of GeneratorSettings.defaults orphaning).run.Whole := by
  decide +kernel

end Project
end ApiModels
