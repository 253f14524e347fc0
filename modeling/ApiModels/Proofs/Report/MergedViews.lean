import ApiModels.Proofs.Model.Layouts
import ApiModels.Proofs.Model.Partitions
import ApiModels.Proofs.Report.RequiredProperties
import ApiModels.Proofs.Resolution.Memoization

namespace ApiModels

namespace Schema

def parentNames (s : Schema) : List String := s.allOfMembers.filterMap refName?

theorem parentRequests_names (s : Schema) : s.parentRequests.map Request.name = s.parentNames := by
  rw [parentRequests, List.map_map, List.map_filterMap]
  rfl

-- What the inline allOf members and then the schema declare, each name in the place of its first declaration
-- and with its last one.
def declarations (s : Schema) : List (String × Schema) := latest Prod.fst (s.rounds.flatMap (·.properties))

end Schema

namespace Model
variable {m next parent : Model} {settings : GeneratorSettings}

def arrange (settings : GeneratorSettings) (ps : List Property) : List Property :=
  if settings.sortByRequired then requiredFirst ps else ps

theorem takeIn_views (m : Model) (ps : List Property) (required : List String) :
    (m.takeIn ps required).ownProperties =
        (ps.foldl (fun known p => upsert p known) m.ownProperties).map (mark (m.takeIn ps required).allRequiredNames) ∧
      (m.takeIn ps required).allProperties =
        (ps.foldl (fun known p => upsert p known) m.allProperties).map (mark (m.takeIn ps required).allRequiredNames) := by
  obtain ⟨own, all, -⟩ := foldl_requireDeclared required (ps.foldl declare m)
  obtain ⟨ownKnown, allKnown, -⟩ := foldl_declare ps m
  rw [← ownKnown, ← allKnown, ← own, ← all]
  exact ⟨rfl, rfl⟩

-- The properties that the rounds have declared, on their own and on top of what is inherited. Whether they are
-- required is left open.
def Layered (project : Project) (inherited : List Property) (done : List Schema) (m : Model) : Prop :=
  ∃ ps, List.Forall₂ project.Describes (done.flatMap (·.properties)) ps ∧ ∀ required,
    m.ownProperties.map (mark required) = (dedupe ps).map (mark required) ∧
      m.allProperties.map (mark required) = (ps.foldl (fun known p => upsert p known) inherited).map (mark required)

theorem Layered.rounded (project : Project) (inherited : List Property) : Rounded project (Layered project inherited) where
  round {done m more} s describe layered := by
    obtain ⟨ps, described, same⟩ := layered
    obtain ⟨own, all⟩ := m.takeIn_views more s.required
    refine ⟨ps ++ more, ?_, fun required => ?_⟩
    · rw [List.flatMap_append, List.flatMap_singleton]
      exact List.rel_append described describe
    · obtain ⟨ownSame, allSame⟩ := same required
      have joined (known : List Property) : (ps ++ more).foldl (fun known p => upsert p known) known =
          more.foldl (fun known p => upsert p known) (ps.foldl (fun known p => upsert p known) known) :=
        List.foldl_append
      unfold dedupe at ownSame ⊢
      rw [joined, joined, own, all, map_mark_map_mark, map_mark_map_mark]
      simp only [map_mark_foldl_upsert _ more, ownSame, allSame, and_self]
  refresh {done m} layered := by
    obtain ⟨ps, described, same⟩ := layered
    refine ⟨ps, described, fun required => ?_⟩
    rw [← (same required).1, ← (same required).2]
    exact ⟨map_mark_map_mark required _ _, map_mark_map_mark required _ _⟩

theorem Layered.start (project : Project) {name : String} (fresh : m.Fresh name) (parents : List Model) :
    Layered project ((parents.getLast?.map (·.allProperties)).getD []) [] (m.adopt parents) := by
  refine ⟨[], .nil, fun required => ?_⟩
  rcases fresh.adopt parents with ⟨none_, same⟩ | ⟨parent, start, last, started, extended⟩
  · rw [same, none_, fresh.own, fresh.all]
    exact ⟨rfl, rfl⟩
  · have whole : parent.allProperties.filter (fun p => (start.ownProperty? p.baseName).isNone) = parent.allProperties := by
      rw [List.filter_eq_self]
      intro p _
      rw [ownProperty?, started.own]
      rfl
    rw [extended, last, extend_ownProperties, extend_allProperties, started.own, started.all, whole]
    exact ⟨rfl, rfl⟩

theorem Settled.complete_views (settled : m.Settled) (settings : GeneratorSettings) :
    (m.complete settings).ownProperties = arrange settings m.ownProperties ∧
      (m.complete settings).allProperties = arrange settings m.allProperties := by
  obtain ⟨imports, completed⟩ := complete_eq settings m
  obtain ⟨collected, same⟩ := addImports_eq m ((m.ownProperties ++ m.allProperties).flatMap (propertyImports settings m))
  have kept : m.Keeps (m.collectImports settings) := settled.addImports _
  have refreshed : (m.collectImports settings).dedupeProperties.refresh.ownProperties = m.ownProperties ∧
      (m.collectImports settings).dedupeProperties.refresh.allProperties = m.allProperties := by
    rw [kept.settled.dedupe, collectImports, same]
    exact ⟨settled.marked.map_mark (List.subset_append_left _ _), settled.marked.map_mark (List.subset_append_right _ _)⟩
  have marked := refresh_marked (m.collectImports settings).dedupeProperties
  rw [completed, ← refreshed.1, ← refreshed.2]
  unfold sortIfAsked arrange
  split
  · exact ⟨marked.sort.map_mark (List.subset_append_left _ _), marked.sort.map_mark (List.subset_append_right _ _)⟩
  · exact ⟨rfl, rfl⟩

theorem addMembers_views (m : Model) (requests : List Request) :
    (m.addMembers requests).ownProperties = m.ownProperties ∧ (m.addMembers requests).allProperties = m.allProperties := by
  induction requests generalizing m with
  | nil => exact ⟨rfl, rfl⟩
  | cons request rest ih => exact ih (m.addMember request.name)

theorem foldl_implement_gains (links : List PendingLink) (m : Model) : m.Gains (links.foldl Cache.implement m) :=
  List.foldlRecOn links Cache.implement (Gains.refl m) fun _ gains link _ => gains.trans (implement_gains _ link)

theorem Gains.views (gains : m.Gains next) :
    next.ownProperties = m.ownProperties ∧ next.allProperties = m.allProperties := by
  rw [gains.same]
  exact ⟨rfl, rfl⟩

end Model

namespace Project
variable {project : Project} {name : String} {written target s : Schema} {parents : List Model} {settled m parent : Model}

theorem Settles.layered (settles : project.Settles name written target parents settled) (composed : target.isComposed) :
    ∃ own, List.Forall₂ project.Describes target.declarations own ∧
      settled.ownProperties = own.map (Model.mark settled.allRequiredNames) ∧
      settled.allProperties = (Model.overlay ((parents.getLast?.map (·.allProperties)).getD []) own).map
        (Model.mark settled.allRequiredNames) := by
  have orderly := settles.orderly
  obtain ⟨outlined, gathers, ⟨t, last, ran, rfl⟩⟩ := settles
  have tidy : (((parents.getLast?.map (·.allProperties)).getD []).map (·.baseName)).Nodup := by
    obtain ⟨k, below, passes, top⟩ := id gathers
    cases kept : parents.getLast? with
    | none => exact List.nodup_nil
    | some parent =>
        have elders : ∀ parent ∈ parents, parent.Settled :=
          passes.orderly.builds ⟨name, written, .inheriting target outlined parents []⟩ (top ▸ List.mem_cons_self)
        exact (elders parent (List.mem_of_getLast? kept)).all
  have start := Model.Layered.start project gathers.opens.fresh parents
  rcases Drafting.groundwork_rounds (Model.Layered.rounded project _) gathers.alone start ran with
    ⟨ps, described, same⟩ | ⟨plain, -⟩
  · obtain ⟨own, all⟩ := same last.model.allRequiredNames
    rw [orderly.marked.map_mark (List.subset_append_left _ _)] at own
    rw [orderly.marked.map_mark (List.subset_append_right _ _), Model.foldl_upsert_overlay tidy] at all
    refine ⟨Model.dedupe ps, ?_, own, all⟩
    rw [Model.dedupe_eq_latest]
    exact rel_latest (fun _ _ describes => describes.baseName.symm) described
  · exact absurd composed plain

theorem Finishes.arranged (finishes : project.Finishes name m) : ∃ written target parents settled,
    project.Begins name written ∧ project.Settles name written target parents settled ∧
      m.ownProperties = Model.arrange project.settings settled.ownProperties ∧
      m.allProperties = Model.arrange project.settings settled.allProperties ∧
      m.allRequiredNames = settled.allRequiredNames := by
  obtain ⟨written, target, parents, settled, begun, settles, -, links, rfl⟩ := finishes
  have law := Model.Keeps.lasting project.settings
  have membered := law.members (target.armRequests name) ⟨.refl settled, settles.orderly⟩
  obtain ⟨own, all⟩ := membered.settled.complete_views project.settings
  obtain ⟨ownLinked, allLinked⟩ := (Model.foldl_implement_gains links _).views
  obtain ⟨ownJoined, allJoined⟩ := settled.addMembers_views (target.armRequests name)
  refine ⟨written, target, parents, settled, begun, settles, ?_, ?_, (law.finished links membered).twins.allRequired⟩
  · rw [ownLinked, own, ownJoined]
  · rw [allLinked, all, allJoined]

theorem Finishes.line (finishes : project.Finishes name m) (composes : project.Composes name s) :
    m.parentName = s.parentNames.getLast? ∧ m.collapsedParents = s.parentNames.dropLast := by
  obtain ⟨written, target, begun, led, lineage, -, last⟩ := finishes.described
  cases composes.unique ⟨written, begun, led⟩
  rw [Model.lineage, Schema.parentRequests_names] at lineage
  rw [← List.getLast?_map, Schema.parentRequests_names] at last
  refine ⟨last, ?_⟩
  cases kept : m.parentName with
  | none =>
      have alone := List.getLast?_eq_none_iff.mp (last.symm.trans kept)
      rw [alone] at lineage ⊢
      exact (List.append_eq_nil_iff.mp lineage).1
  | some parent =>
      rw [← lineage, kept]
      exact List.dropLast_concat.symm

-- The parent has the properties that the report has under its name, or is under construction when it is asked for.
def Delivers (project : Project) (heir : String) (parent : Model) : Prop :=
  (∃ final ∈ project.run.models, final.name = parent.name ∧ final.allProperties = parent.allProperties) ∨
    project.Borrows heir (.reference parent.name)

theorem Adopts.delivers (adopts : project.Adopts name parent) : project.Delivers name parent := by
  obtain ⟨written, target, outlined, parents, gathers, last⟩ := adopts
  rcases gathers.last with ⟨-, rfl⟩ | ⟨request, other, asked, here, bequeaths⟩
  · cases last
  · cases here.symm.trans last
    obtain ⟨reference, -, rfl⟩ := List.mem_map.mp (List.mem_of_getLast? asked)
    have requested : parent.name = refName reference := bequeaths.hands.name
    rcases bequeaths.hands.kept_or_borrows with ⟨links, found⟩ | borrows
    · have gains := Model.foldl_implement_gains links parent
      have named : (links.foldl Cache.implement parent).name = parent.name := congrArg (·.name) gains.same
      refine .inl ⟨_, project.mem_run_models.mpr ?_, named, gains.views.2⟩
      rw [named, requested]
      exact found
    · exact .inr (requested.symm ▸ borrows)

-- How the model of a composed schema is put together. The elder is the parent that it is linked to.
structure Assembles (project : Project) (m : Model) (s : Schema) : Prop where
  parentName : m.parentName = s.parentNames.getLast?
  collapsedParents : m.collapsedParents = s.parentNames.dropLast
  views : ∃ elder own, (∀ parent, elder = some parent ↔ project.Adopts m.name parent) ∧
    m.parentName = elder.map (·.name) ∧ List.Forall₂ project.Describes s.declarations own ∧
    m.ownProperties = Model.arrange project.settings (own.map (Model.mark m.allRequiredNames)) ∧
    m.allProperties = Model.arrange project.settings
      ((Model.overlay ((elder.map (·.allProperties)).getD []) own).map (Model.mark m.allRequiredNames))
  delivers : ∀ parent, project.Adopts m.name parent → project.Delivers m.name parent

theorem run_assembles (known : m ∈ project.run.models) (composes : project.Composes m.name s) (composed : s.isComposed) :
    project.Assembles m s := by
  have finishes := (Progress.passes_done project).finishes (project.mem_run_models.mp known)
  obtain ⟨parentName, collapsedParents⟩ := finishes.line composes
  obtain ⟨written, target, parents, settled, begun, settles, ownViews, allViews, required⟩ := finishes.arranged
  cases composes.unique ⟨written, begun, settles.described.1⟩
  obtain ⟨own, describe, ownSettled, allSettled⟩ := settles.layered composed
  obtain ⟨outlined, gathers, -⟩ := settles
  refine ⟨parentName, collapsedParents, ⟨parents.getLast?, own, fun _ => gathers.adopts_iff.symm, ?_, describe, ?_, ?_⟩,
    fun _ adopts => adopts.delivers⟩
  · rw [parentName, ← Schema.parentRequests_names, ← Bequeaths.names gathers.handed, List.getLast?_map]
  · rw [ownViews, ownSettled, required]
  · rw [allViews, allSettled, required]

def hound : Schema where
  allOf := some [Schema.referenceTo "Being", { properties := [("bark", { type := some (.single "boolean") })] },
    Schema.referenceTo "Animal", { properties := [("legs", { type := some (.single "string") })] }]
  properties := [("age", { type := some (.single "integer") }), ("bark", { type := some (.single "string") })]

def hounds : Document where
  schemas := Table.ofEntries [
    ("Being", { properties := [("kind", { type := some (.single "string") })] }),
    ("Animal", { properties :=
      [("legs", { type := some (.single "integer") }), ("name", { type := some (.single "string") })] }),
    ("Hound", hound)]
  fingerprint := ""

theorem run_assembles_hounds : ∃ m ∈ (of GeneratorSettings.defaults hounds).run.models, m.name = "Hound" ∧
    m.allProperties.map (·.baseName) = ["legs", "name", "bark", "age"] ∧
    (of GeneratorSettings.defaults hounds).Composes m.name hound ∧ hound.isComposed ∧
    (of GeneratorSettings.defaults hounds).Assembles m hound := by
  have built : ∃ m ∈ (of GeneratorSettings.defaults hounds).run.models, m.name = "Hound" ∧
      m.allProperties.map (·.baseName) = ["legs", "name", "bark", "age"] := by decide +kernel
  obtain ⟨m, known, named, names⟩ := built
  have begins : (of GeneratorSettings.defaults hounds).Begins "Hound" hound := begins_of_digitless rfl (by decide)
  rw [← named] at begins
  have composes : (of GeneratorSettings.defaults hounds).Composes m.name hound := ⟨_, begins, Document.follow_eq _ _ _⟩
  exact ⟨m, known, named, names, composes, rfl, run_assembles known composes rfl⟩

end Project
end ApiModels
