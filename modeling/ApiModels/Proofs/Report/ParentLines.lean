import Mathlib.Data.List.Perm.Subperm
import ApiModels.Proofs.Report.CyclicParents
import ApiModels.Proofs.Report.ParentsBuilt

namespace ApiModels
namespace Document
variable {document : Document} {child parent : String}

def above (document : Document) (name : String) : List String :=
  document.names.filter (· ∈ document.ancestors name)

theorem mem_above {name other : String} : other ∈ document.above name ↔ document.Descends name other := by
  rw [above, List.mem_filter, decide_eq_true_eq, mem_ancestors]
  exact ⟨And.right, fun descends => ⟨descends.right, descends⟩⟩

def height (document : Document) (name : String) : Nat := (document.above name).length

theorem height_lt (edge : document.Inherits child parent) (straight : ¬ document.Descends parent parent) :
    document.height parent < document.height child := by
  have distinct : (parent :: document.above parent).Nodup :=
    List.nodup_cons.mpr ⟨fun listed => straight (mem_above.mp listed), List.filter_sublist.nodup document.schemas.distinct⟩
  have among : parent :: document.above parent ⊆ document.above child := by
    refine List.cons_subset.mpr ⟨mem_above.mpr (.single edge), fun other listed => ?_⟩
    exact mem_above.mpr (Relation.TransGen.head edge (mem_above.mp listed))
  exact (distinct.subperm among).length_le

end Document

namespace Project
variable {project : Project} {child parent : Model} {name : String}

theorem asks_parent {m : Model} (known : m ∈ project.run.models) (kept : m.parentName = some name) :
    ∃ written target outlined parents, project.Begins m.name written ∧
      project.Gathers m.name written target outlined parents ∧ .reference name ∈ target.parentRequests := by
  obtain ⟨written, target, outlined, parents, begun, gathers, parentName⟩ := gathers_of_model known
  obtain ⟨request, last, rfl⟩ := Option.map_eq_some_iff.mp (parentName.symm.trans kept)
  have asked := List.mem_of_getLast? last
  obtain ⟨reference, -, rfl⟩ := List.mem_map.mp asked
  exact ⟨written, target, outlined, parents, begun, gathers, asked⟩

theorem Gathers.inherits {written target : Schema} {outlined : Model} {parents : List Model} {asker : String}
    (gathers : project.Gathers asker written target outlined parents)
    (own : project.document.get? asker = some written) (asked : .reference name ∈ target.parentRequests) :
    project.document.Inherits asker name := by
  obtain ⟨answer, k, passes, -, ⟨s, held⟩, -⟩ := gathers.bequeaths asked
  obtain ⟨reference, listed, same⟩ := List.mem_map.mp asked
  obtain rfl := Request.reference.inj same
  obtain ⟨member, among, refers⟩ := List.mem_filterMap.mp listed
  obtain rfl := Document.unalias_composed gathers.opens.led (Schema.isComposed_of_member among)
  exact ⟨target, own, member, among, by rw [Schema.refName?, refers]; rfl, Table.mem_names_of_get? held⟩

-- The model is built from the document's own schema of its name.
structure Native (project : Project) (m : Model) : Prop where
  known : m ∈ project.run.models
  own : ∃ s, project.document.get? m.name = some s ∧ project.Begins m.name s

structure Ascends (project : Project) (child parent : Model) : Prop where
  below : project.Native child
  above : project.Native parent
  named : child.parentName = some parent.name

theorem Ascends.inherits (ascends : project.Ascends child parent) :
    project.document.Inherits child.name parent.name := by
  obtain ⟨s, own, begins⟩ := ascends.below.own
  obtain ⟨written, target, outlined, parents, begun, gathers, asked⟩ := asks_parent ascends.below.known ascends.named
  cases begins.unique begun
  exact gathers.inherits own asked

theorem not_descends_of_model (analysed : project.inheritance = .ofDocument project.document) {m : Model}
    (known : m ∈ project.run.models) : ¬ project.document.Descends m.name m.name := by
  intro circle
  have cyclic : project.inheritance.isCyclic m.name := analysed ▸ Inheritance.isCyclic_iff.mpr circle
  exact (Progress.passes_done project).refused.models m.name m (project.mem_run_models.mp known) cyclic

theorem Ascends.height_lt (analysed : project.inheritance = .ofDocument project.document)
    (ascends : project.Ascends child parent) :
    project.document.height parent.name < project.document.height child.name :=
  Document.height_lt ascends.inherits (not_descends_of_model analysed ascends.above.known)

theorem line_descending (analysed : project.inheritance = .ofDocument project.document) {line : List Model}
    (linked : line.IsChain project.Ascends) :
    (line.map fun m => project.document.height m.name).Pairwise (· > ·) :=
  List.isChain_iff_pairwise.mp ((List.isChain_map _).mpr (linked.imp fun _ _ ascends => ascends.height_lt analysed))

theorem line_native {first : Model} {line : List Model} (native : project.Native first)
    (linked : (first :: line).IsChain project.Ascends) : ∀ m ∈ first :: line, project.Native m := by
  induction line generalizing first with
  | nil => simpa using native
  | cons next line ih =>
      obtain ⟨ascends, linked⟩ := List.isChain_cons_cons.mp linked
      exact List.forall_mem_cons.mpr ⟨native, ih ascends.above linked⟩

theorem Native.listed {m : Model} (native : project.Native m) : m.name ∈ project.document.names := by
  obtain ⟨s, own, -⟩ := native.own
  exact Table.mem_names_of_get? own

-- The walk up the parents of a model ends. It passes no name twice, however the builds were nested.
theorem run_parents_acyclic (settings : GeneratorSettings) (document : Document) :
    let project := of settings document
    (∀ m, ¬ Relation.TransGen project.Ascends m m) ∧
      WellFounded (fun upper lower => project.Ascends lower upper) ∧
      ∀ first line, project.Native first → (first :: line).IsChain project.Ascends →
        ((first :: line).map (·.name)).Nodup ∧ (first :: line).length ≤ document.names.length := by
  intro project
  have analysed : project.inheritance = .ofDocument project.document := rfl
  have falls : WellFounded (fun upper lower => project.Ascends lower upper) :=
    Subrelation.wf (fun ascends => ascends.height_lt analysed)
      (InvImage.wf (fun m : Model => document.height m.name) Nat.lt_wfRel.wf)
  refine ⟨fun m circle => ?_, falls, fun first line native linked => ?_⟩
  · have back := Relation.transGen_swap.mpr circle
    exact falls.transGen.asymmetric m m back back
  · have distinct : ((first :: line).map (·.name)).Nodup := by
      have descending := List.pairwise_map.mp (line_descending analysed linked)
      refine List.pairwise_map.mpr (descending.imp fun lower same => ?_)
      exact absurd lower (same ▸ Nat.lt_irrefl _)
    have among : (first :: line).map (·.name) ⊆ document.names := by
      intro name listed
      obtain ⟨m, inLine, rfl⟩ := List.mem_map.mp listed
      exact (line_native native linked m inLine).listed
    have bound := (distinct.subperm among).length_le
    exact ⟨distinct, by rwa [List.length_map] at bound⟩

end Project
end ApiModels
