import ApiModels.Proofs.Model.Partitions

namespace ApiModels
namespace Model

theorem mem_upsert {p q : Property} {ps : List Property} (listed : p ∈ upsert q ps) : p = q ∨ p ∈ ps := by
  induction ps with
  | nil => exact .inl (List.mem_singleton.mp listed)
  | cons head rest ih =>
      unfold upsert at listed
      split at listed
      · exact (List.mem_cons.mp listed).imp id (List.mem_cons_of_mem _)
      · rcases List.mem_cons.mp listed with rfl | later
        · exact .inr List.mem_cons_self
        · exact (ih later).imp id (List.mem_cons_of_mem _)

theorem mem_foldl_upsert {p : Property} {ps merged : List Property}
    (listed : p ∈ ps.foldl (fun unique q => upsert q unique) merged) : p ∈ merged ∨ p ∈ ps := by
  induction ps generalizing merged with
  | nil => exact .inl listed
  | cons head rest ih =>
      rcases ih listed with added | later
      · exact (mem_upsert added).elim (fun same => .inr (same ▸ List.mem_cons_self)) .inl
      · exact .inr (List.mem_cons_of_mem _ later)

theorem mem_dedupe {p : Property} {ps : List Property} (listed : p ∈ dedupe ps) : p ∈ ps :=
  (mem_foldl_upsert listed).resolve_left List.not_mem_nil

theorem mem_appendUnlessNamed {p : Property} {ps merged : List Property} (listed : p ∈ ps.foldl appendUnlessNamed merged) :
    p ∈ merged ∨ p ∈ ps := by
  induction ps generalizing merged with
  | nil => exact .inl listed
  | cons head rest ih =>
      rcases ih listed with added | later
      · unfold appendUnlessNamed at added
        split at added
        · exact .inl added
        · rcases List.mem_append.mp added with old | new
          · exact .inl old
          · exact .inr (List.mem_singleton.mp new ▸ List.mem_cons_self)
      · exact .inr (List.mem_cons_of_mem _ later)

theorem mem_requiredFirst {p : Property} {ps : List Property} : p ∈ requiredFirst ps ↔ p ∈ ps :=
  (List.filter_append_perm _ _).mem_iff

def EachProperty (P : Property → Prop) (m : Model) : Prop := ∀ p ∈ m.ownProperties ++ m.allProperties, P p

namespace EachProperty
variable {P : Property → Prop} {m parent : Model}

theorem of_views (own : ∀ p ∈ m.ownProperties, P p) (all : ∀ p ∈ m.allProperties, P p) : m.EachProperty P :=
  fun p listed => (List.mem_append.mp listed).elim (own p) (all p)

theorem own (each : m.EachProperty P) : ∀ p ∈ m.ownProperties, P p := fun p listed => each p (List.mem_append_left _ listed)

theorem all (each : m.EachProperty P) : ∀ p ∈ m.allProperties, P p := fun p listed => each p (List.mem_append_right _ listed)

theorem declare (each : m.EachProperty P) {p : Property} (holds : P p) : (m.declare p).EachProperty P := by
  apply of_views
  · intro q listed
    exact (mem_upsert listed).elim (fun same => same ▸ holds) (each.own q)
  · intro q listed
    exact (mem_upsert listed).elim (fun same => same ▸ holds) (each.all q)

theorem extend (each : m.EachProperty P) (elder : parent.EachProperty P) : (m.extend parent).EachProperty P := by
  apply of_views
  · rw [extend_ownProperties]
    exact each.own
  · intro q listed
    rw [extend_allProperties] at listed
    rcases mem_appendUnlessNamed listed with inherited | own
    · exact elder.all q (List.mem_filter.mp inherited).1
    · exact each.all q own

section Marks
variable (marks : ∀ {p : Property} (required : Bool), P p → P { p with required })
include marks

theorem refresh (each : m.EachProperty P) : m.refresh.EachProperty P := by
  apply of_views
  · intro q listed
    obtain ⟨p, known, rfl⟩ := List.mem_map.mp listed
    exact marks _ (each.own p known)
  · intro q listed
    obtain ⟨p, known, rfl⟩ := List.mem_map.mp listed
    exact marks _ (each.all p known)

theorem complete (settings : GeneratorSettings) (each : m.EachProperty P) : (m.complete settings).EachProperty P := by
  obtain ⟨imports, eq⟩ := complete_eq settings m
  have collected : (m.collectImports settings).EachProperty P := by
    obtain ⟨imports, eq⟩ := addImports_eq m _
    rw [collectImports, eq]
    exact each
  have deduped : (m.collectImports settings).dedupeProperties.EachProperty P :=
    of_views (fun p listed => collected.own p (mem_dedupe listed)) fun p listed => collected.all p (mem_dedupe listed)
  have sorted (m : Model) (each : m.EachProperty P) : m.sortRequiredFirst.EachProperty P :=
    of_views (fun p listed => each.own p (mem_requiredFirst.mp listed)) fun p listed => each.all p (mem_requiredFirst.mp listed)
  have arranged : (sortIfAsked settings (m.collectImports settings).dedupeProperties.refresh).EachProperty P := by
    unfold sortIfAsked
    split
    · exact (sorted _ (deduped.refresh marks)).refresh marks
    · exact deduped.refresh marks
  rw [eq]
  exact arranged

end Marks
end EachProperty

end Model
end ApiModels
