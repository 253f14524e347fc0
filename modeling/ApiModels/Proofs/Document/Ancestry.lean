import Mathlib.Algebra.Ring.Nat
import Mathlib.Logic.Relation
import ApiModels.Document.Inheritance

namespace ApiModels
namespace Document

def Inherits (document : Document) (child parent : String) : Prop :=
  ∃ s, document.get? child = some s ∧ ∃ member ∈ s.allOfMembers,
    member.refName? = some parent ∧ parent ∈ document.names

def Descends (document : Document) : String → String → Prop := Relation.TransGen document.Inherits

section Search
variable {edges : String → List String} {remaining pending : List String} {name other : String}

theorem reached_sound (met : name ∈ reached edges remaining pending) :
    name ∈ remaining ∧ ∃ start ∈ pending, Relation.ReflTransGen (fun passed next => next ∈ edges passed) start name := by
  induction remaining, pending using reached.induct edges with
  | case1 remaining => simp [reached] at met
  | case2 remaining head rest fresh ih =>
      simp only [reached, fresh, dite_true] at met
      rcases List.mem_cons.mp met with rfl | later
      · exact ⟨fresh, name, List.mem_cons_self, .refl⟩
      · obtain ⟨left, start, listed, path⟩ := ih later
        refine ⟨List.mem_of_mem_erase left, ?_⟩
        rcases List.mem_append.mp listed with edge | waits
        · exact ⟨head, List.mem_cons_self, path.head edge⟩
        · exact ⟨start, List.mem_cons_of_mem _ waits, path⟩
  | case3 remaining head rest old ih =>
      simp only [reached, old, dite_false] at met
      obtain ⟨left, start, listed, path⟩ := ih met
      exact ⟨left, start, List.mem_cons_of_mem _ listed, path⟩

theorem reached_pending (listed : name ∈ pending) (left : name ∈ remaining) :
    name ∈ reached edges remaining pending := by
  induction remaining, pending using reached.induct edges with
  | case1 remaining => cases listed
  | case2 remaining head rest fresh ih =>
      simp only [reached, fresh, dite_true]
      by_cases same : name = head
      · exact same ▸ List.mem_cons_self
      · have waits := (List.mem_cons.mp listed).resolve_left same
        exact List.mem_cons_of_mem _ (ih (List.mem_append_right _ waits) ((List.mem_erase_of_ne same).mpr left))
  | case3 remaining head rest old ih =>
      simp only [reached, old, dite_false]
      refine ih ((List.mem_cons.mp listed).resolve_left ?_) left
      rintro rfl
      exact old left

theorem reached_closed (met : name ∈ reached edges remaining pending) (edge : other ∈ edges name)
    (left : other ∈ remaining) : other ∈ reached edges remaining pending := by
  induction remaining, pending using reached.induct edges with
  | case1 remaining => simp [reached] at met
  | case2 remaining head rest fresh ih =>
      simp only [reached, fresh, dite_true] at met ⊢
      by_cases same : other = head
      · exact same ▸ List.mem_cons_self
      have still := (List.mem_erase_of_ne same).mpr left
      rcases List.mem_cons.mp met with rfl | later
      · exact List.mem_cons_of_mem _ (reached_pending (List.mem_append_left _ edge) still)
      · exact List.mem_cons_of_mem _ (ih later still)
  | case3 remaining head rest old ih =>
      simp only [reached, old, dite_false] at met ⊢
      exact ih met left

end Search

variable {document : Document} {name other : String}

theorem mem_parents : other ∈ document.parents name ↔ document.Inherits name other := by
  unfold parents Inherits
  cases document.get? name with
  | none => simp
  | some s =>
      simp only [contains, names, List.mem_filter, List.mem_filterMap, Table.contains_iff, Option.some.injEq,
        exists_eq_left']
      exact ⟨fun ⟨⟨member, listed, refers⟩, known⟩ => ⟨member, listed, refers, known⟩,
        fun ⟨member, listed, refers, known⟩ => ⟨⟨member, listed, refers⟩, known⟩⟩

def parentCount (document : Document) (s : Schema) : Nat :=
  s.allOfMembers.countP fun member => member.refName?.any (· ∈ document.names)

theorem parents_length {s : Schema} (found : document.get? name = some s) :
    (document.parents name).length = document.parentCount s := by
  unfold parents parentCount
  rw [found]
  dsimp only
  induction s.allOfMembers with
  | nil => rfl
  | cons member rest ih =>
      cases refers : member.refName? with
      | none => simpa [refers] using ih
      | some parent =>
          by_cases known : parent ∈ document.names
          · have held : document.contains parent := (Table.contains_iff _ _).mpr known
            simpa [refers, known, held] using ih
          · have absent : document.contains parent = false :=
              Bool.eq_false_iff.mpr fun held => known ((Table.contains_iff _ _).mp held)
            simpa [refers, known, absent] using ih

theorem mem_names_of_inherits (edge : document.Inherits name other) : name ∈ document.names :=
  Table.mem_names_of_get? edge.choose_spec.1

theorem Descends.left (descends : document.Descends name other) : name ∈ document.names := by
  obtain ⟨next, edge, -⟩ := Relation.TransGen.head'_iff.mp descends
  exact mem_names_of_inherits edge

theorem Descends.right (descends : document.Descends name other) : other ∈ document.names := by
  obtain ⟨before, -, edge⟩ := Relation.TransGen.tail'_iff.mp descends
  obtain ⟨-, -, -, -, -, listed⟩ := edge
  exact listed

theorem mem_ancestors : other ∈ document.ancestors name ↔ document.Descends name other := by
  constructor
  · intro met
    obtain ⟨-, start, listed, path⟩ := reached_sound met
    exact Relation.TransGen.head' (mem_parents.mp listed)
      (Relation.ReflTransGen.mono (fun _ _ => mem_parents.mp) _ _ path)
  · intro descends
    induction descends with
    | single edge => exact reached_pending (mem_parents.mpr edge) (Descends.right (.single edge))
    | tail _ edge ih => exact reached_closed ih (mem_parents.mpr edge) (Descends.right (.single edge))

-- Those that a name descends from and that descend from it, in document order.
def circle (document : Document) (name : String) : List String :=
  document.names.filter fun other => other ∈ document.ancestors name && name ∈ document.ancestors other

theorem circle_sublist (name : String) : (document.circle name).Sublist document.names := List.filter_sublist

theorem mem_circle : other ∈ document.circle name ↔ document.Descends name other ∧ document.Descends other name := by
  simp only [circle, List.mem_filter, Bool.and_eq_true, decide_eq_true_eq, mem_ancestors]
  exact ⟨And.right, fun both => ⟨both.1.right, both⟩⟩

theorem self_mem_circle : name ∈ document.circle name ↔ document.Descends name name :=
  mem_circle.trans (and_iff_left_of_imp id)

theorem circle_eq (listed : other ∈ document.circle name) : document.circle other = document.circle name := by
  obtain ⟨up, down⟩ := mem_circle.mp listed
  refine List.filter_congr fun third _ => ?_
  rw [Bool.eq_iff_iff]
  simp only [Bool.and_eq_true, decide_eq_true_eq, mem_ancestors]
  exact ⟨fun ⟨there, back⟩ => ⟨up.trans there, back.trans down⟩, fun ⟨there, back⟩ => ⟨down.trans there, back.trans up⟩⟩

end Document

namespace Inheritance
variable {document : Document} {name other : String} {cycle : List String}

theorem cycleThrough_eq (document : Document) (name : String) :
    cycleThrough (document.names.map fun name => (name, document.ancestors name)) name (document.ancestors name) =
      document.circle name := by
  simp [cycleThrough, Document.circle, List.filter_map, Function.comp_def]

theorem cycles_eq (document : Document) : (ofDocument document).cycles = document.names.filterMap fun name =>
    if (document.circle name).head? = some name then some (document.circle name) else none := by
  unfold ofDocument
  simp only [List.filterMap_map, Function.comp_def, cycleThrough_eq]

theorem mem_cycles : cycle ∈ (ofDocument document).cycles ↔
    ∃ first, cycle = document.circle first ∧ cycle.head? = some first := by
  rw [cycles_eq, List.mem_filterMap]
  constructor
  · rintro ⟨first, -, found⟩
    split at found
    · cases found
      exact ⟨first, rfl, ‹_›⟩
    · cases found
  · rintro ⟨first, rfl, head⟩
    exact ⟨first, (document.circle_sublist first).subset (List.mem_of_mem_head? head), if_pos head⟩

theorem circle_mem_cycles (descends : document.Descends name name) :
    document.circle name ∈ (ofDocument document).cycles := by
  have listed := Document.self_mem_circle.mpr descends
  obtain ⟨first, rest, members⟩ := List.exists_cons_of_ne_nil (List.ne_nil_of_mem listed)
  have inside : first ∈ document.circle name := members ▸ List.mem_cons_self
  have same := Document.circle_eq inside
  exact mem_cycles.mpr ⟨first, same.symm, by rw [members]; rfl⟩

theorem eq_circle (found : cycle ∈ (ofDocument document).cycles) (listed : name ∈ cycle) :
    cycle = document.circle name := by
  obtain ⟨first, rfl, -⟩ := mem_cycles.mp found
  exact (Document.circle_eq listed).symm

theorem cycleOf?_eq_some : (ofDocument document).cycleOf? name = some cycle ↔
    cycle = document.circle name ∧ document.Descends name name := by
  constructor
  · intro found
    have listed : name ∈ cycle := by simpa using List.find?_some found
    have same := eq_circle (List.mem_of_find?_eq_some found) listed
    exact ⟨same, Document.self_mem_circle.mp (same ▸ listed)⟩
  · rintro ⟨rfl, descends⟩
    have known : ((ofDocument document).cycleOf? name).isSome :=
      List.find?_isSome.mpr ⟨_, circle_mem_cycles descends, by simpa using Document.self_mem_circle.mpr descends⟩
    obtain ⟨cycle, found⟩ := Option.isSome_iff_exists.mp known
    have listed : name ∈ cycle := by simpa using List.find?_some found
    rw [found, eq_circle (List.mem_of_find?_eq_some found) listed]

theorem cycleOf?_iff : (ofDocument document).cycleOf? name = some cycle ↔
    cycle ∈ (ofDocument document).cycles ∧ name ∈ cycle := by
  rw [cycleOf?_eq_some]
  constructor
  · rintro ⟨rfl, descends⟩
    exact ⟨circle_mem_cycles descends, Document.self_mem_circle.mpr descends⟩
  · rintro ⟨found, listed⟩
    have same := eq_circle found listed
    exact ⟨same, Document.self_mem_circle.mp (same ▸ listed)⟩

theorem isCyclic_iff : (ofDocument document).isCyclic name ↔ document.Descends name name := by
  unfold isCyclic
  rw [Option.isSome_iff_exists]
  exact ⟨fun ⟨cycle, found⟩ => (cycleOf?_eq_some.mp found).2, fun descends => ⟨_, cycleOf?_eq_some.mpr ⟨rfl, descends⟩⟩⟩

theorem cycleOf?_circle (descends : document.Descends name name) :
    (ofDocument document).cycleOf? name = some (document.circle name) := cycleOf?_eq_some.mpr ⟨rfl, descends⟩

theorem cycleOf?_eq_iff (one : document.Descends name name) (two : document.Descends other other) :
    (ofDocument document).cycleOf? name = (ofDocument document).cycleOf? other ↔
      document.Descends name other ∧ document.Descends other name := by
  rw [cycleOf?_circle one, cycleOf?_circle two, Option.some.injEq]
  constructor
  · intro same
    exact Document.mem_circle.mp (same ▸ Document.self_mem_circle.mpr two)
  · intro both
    exact (Document.circle_eq (Document.mem_circle.mpr both)).symm

theorem heads_sublist (document : Document) :
    ((ofDocument document).cycles.filterMap List.head?).Sublist document.names := by
  rw [cycles_eq, List.filterMap_filterMap]
  generalize document.names = names
  induction names with
  | nil => exact .slnil
  | cons name rest ih =>
      rw [List.filterMap_cons]
      by_cases first : (document.circle name).head? = some name
      · simpa [first] using ih.cons_cons name
      · simpa [first] using ih.cons name

theorem edgeCount_eq (document : Document) :
    (ofDocument document).edgeCount = (document.schemas.values.map document.parentCount).sum := by
  have each : ∀ entry ∈ document.schemas.entries, (document.parents entry.1).length = document.parentCount entry.2 :=
    fun entry listed => Document.parents_length (Table.get?_eq_some.mpr listed)
  change (document.names.flatMap document.parents).length = _
  rw [List.length_flatMap, Table.values, List.map_map]
  calc (document.names.map fun name => (document.parents name).length).sum
      = (document.schemas.entries.map fun entry => (document.parents entry.1).length).sum :=
        congrArg List.sum List.map_map
    _ = (document.schemas.entries.map (document.parentCount ∘ Prod.snd)).sum :=
        congrArg List.sum (List.map_congr_left each)

end Inheritance
end ApiModels
