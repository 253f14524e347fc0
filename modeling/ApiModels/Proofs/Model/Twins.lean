import Mathlib.Data.List.Nodup
import ApiModels.Proofs.Model.Views
import ApiModels.Proofs.Model.Entries

namespace ApiModels
namespace Model

section Lookup
variable {n : String} {p : Property} {ps merged : List Property}

theorem named_cons (head : Property) (rest : List Property) (n : String) :
    named n (head :: rest) = if head.baseName = n then some head else named n rest := by
  by_cases here : head.baseName = n <;> simp [named, here]

theorem named_upsert (p : Property) (ps : List Property) (n : String) :
    named n (upsert p ps) = if p.baseName = n then some p else named n ps := by
  induction ps with
  | nil => exact named_cons p [] n
  | cons head rest ih =>
      unfold upsert
      split
      · rename_i same
        rw [named_cons, named_cons, same]
        split <;> rfl
      · rename_i apart
        rw [named_cons, named_cons, ih]
        by_cases first : head.baseName = n
        · have later : ¬ p.baseName = n := fun here => apart (first.trans here.symm)
          rw [if_pos first, if_neg later, if_pos first]
        · rw [if_neg first, if_neg first]

theorem named_foldl_upsert (ps known : List Property) (n : String) :
    named n (ps.foldl (fun known p => upsert p known) known) = (named n ps.reverse).or (named n known) := by
  induction ps generalizing known with
  | nil => rfl
  | cons head rest ih =>
      have last : named n (rest.reverse ++ [head]) =
          (named n rest.reverse).or (if head.baseName = n then some head else none) := by
        by_cases here : head.baseName = n <;> simp [named, List.find?_append, here]
      rw [List.foldl_cons, ih, named_upsert, List.reverse_cons, last, Option.or_assoc]
      split <;> rfl

theorem named_mark (required : NameSet) (ps : List Property) (n : String) :
    named n (ps.map (mark required)) = (named n ps).map (mark required) := by
  unfold named
  rw [List.find?_map]
  rfl

theorem named_appendUnlessNamed (ps merged : List Property) (n : String) :
    named n (ps.foldl appendUnlessNamed merged) = (named n merged).or (named n ps) := by
  induction ps generalizing merged with
  | nil => simp [named]
  | cons head rest ih =>
      rw [List.foldl_cons, ih, named_cons]
      unfold appendUnlessNamed
      split
      · rename_i known
        by_cases here : head.baseName = n
        · subst here
          obtain ⟨held, found⟩ := Option.isSome_iff_exists.mp known
          simp [found]
        · simp [here]
      · have added : named n (merged ++ [head]) = (named n merged).or (if head.baseName = n then some head else none) := by
          by_cases here : head.baseName = n <;> simp [named, List.find?_append, here]
        rw [added, Option.or_assoc]
        by_cases here : head.baseName = n <;> simp [here]

theorem named_filter (keeps : String → Bool) (ps : List Property) (n : String) :
    named n (ps.filter fun p => keeps p.baseName) = if keeps n then named n ps else none := by
  unfold named
  rw [List.find?_filter]
  split
  · rename_i kept
    congr 1
    funext p
    by_cases here : p.baseName = n <;> simp [here, kept]
  · rename_i dropped
    rw [List.find?_eq_none]
    intro p _
    by_cases here : p.baseName = n <;> simp [here, dropped]

theorem named_eq_some (distinct : (ps.map (·.baseName)).Nodup) : named n ps = some p ↔ p ∈ ps ∧ p.baseName = n := by
  constructor
  · intro found
    exact ⟨List.mem_of_find?_eq_some found, by simpa using List.find?_some found⟩
  · rintro ⟨listed, rfl⟩
    obtain ⟨held, found⟩ := Option.isSome_iff_exists.mp ((named_isSome _ ps).mpr (List.mem_map_of_mem listed))
    have same : held.baseName = p.baseName := by simpa using List.find?_some found
    rw [found, List.inj_on_of_nodup_map distinct (List.mem_of_find?_eq_some found) listed same]

theorem named_perm {qs : List Property} (perm : ps.Perm qs) (distinct : (ps.map (·.baseName)).Nodup) (n : String) :
    named n qs = named n ps := by
  ext p
  rw [named_eq_some distinct, named_eq_some ((perm.map _).nodup_iff.mp distinct), perm.mem_iff]

theorem upsert_fresh (fresh : p.baseName ∉ ps.map (·.baseName)) : upsert p ps = ps ++ [p] := by
  induction ps with
  | nil => rfl
  | cons head rest ih =>
      have apart : ¬ head.baseName = p.baseName := fun same => fresh (same ▸ List.mem_cons_self)
      rw [upsert, if_neg apart, ih fun later => fresh (List.mem_cons_of_mem _ later), List.cons_append]

theorem dedupe_eq (distinct : (ps.map (·.baseName)).Nodup) : dedupe ps = ps := by
  have appends (merged : List Property) (distinct : ((merged ++ ps).map (·.baseName)).Nodup) :
      ps.foldl (fun unique p => upsert p unique) merged = merged ++ ps := by
    induction ps generalizing merged with
    | nil => exact (List.append_nil merged).symm
    | cons head rest ih =>
        have fresh : head.baseName ∉ merged.map (·.baseName) := by
          rw [List.map_append, List.nodup_append] at distinct
          exact fun listed => distinct.2.2 _ listed _ List.mem_cons_self rfl
        rw [List.append_cons] at distinct ⊢
        rw [List.foldl_cons, upsert_fresh fresh]
        exact ih (List.nodup_append.mp (List.map_append ▸ distinct)).2.1 _ distinct
  exact appends [] distinct

theorem nodup_link {names : List String} (distinct : names.Nodup) (fresh : n ∉ names) : (names ++ [n]).Nodup :=
  List.nodup_append.mpr ⟨distinct, by simp, fun a listed b last => by
    rw [List.mem_singleton.mp last]
    exact fun eq => fresh (eq ▸ listed)⟩

theorem upsert_nodup (distinct : (ps.map (·.baseName)).Nodup) : ((upsert p ps).map (·.baseName)).Nodup := by
  induction ps with
  | nil => exact List.nodup_singleton _
  | cons head rest ih =>
      obtain ⟨fresh, later⟩ := List.nodup_cons.mp distinct
      unfold upsert
      split
      · rename_i same
        have absent : p.baseName ∉ rest.map (·.baseName) := same ▸ fresh
        exact List.nodup_cons.mpr ⟨absent, later⟩
      · rename_i apart
        refine List.nodup_cons.mpr ⟨fun listed => ?_, ih later⟩
        exact ((mem_names_upsert p rest _).mp listed).elim apart fresh

theorem foldl_append_nodup (ps : List Property) (distinct : (merged.map (·.baseName)).Nodup) :
    ((ps.foldl appendUnlessNamed merged).map (·.baseName)).Nodup := by
  induction ps generalizing merged with
  | nil => exact distinct
  | cons head rest ih =>
      refine ih ?_
      unfold appendUnlessNamed
      split
      · exact distinct
      · rename_i unnamed
        rw [List.map_append]
        exact nodup_link distinct fun listed => unnamed ((named_isSome _ _).mpr listed)

theorem requiredFirst_perm (ps : List Property) : (requiredFirst ps).Perm ps := List.filter_append_perm _ _

end Lookup

structure Tidy (m : Model) : Prop where
  own : m.ownNames.Nodup
  all : m.propertyNames.Nodup

def Marked (m : Model) : Prop := ∀ p ∈ m.ownProperties ++ m.allProperties, mark m.allRequiredNames p = p

-- The same name and parent, and the same property under every name.
structure Twins (m other : Model) : Prop where
  name : other.name = m.name
  parentName : other.parentName = m.parentName
  isAlias : other.isAlias = m.isAlias
  own : ∀ n, other.ownProperty? n = m.ownProperty? n
  all : ∀ n, other.property? n = m.property? n
  allRequired : other.allRequiredNames = m.allRequiredNames

namespace Twins
variable {a b c m other parent elder : Model}

theorem refl (m : Model) : m.Twins m := ⟨rfl, rfl, rfl, fun _ => rfl, fun _ => rfl, rfl⟩

theorem symm (twins : a.Twins b) : b.Twins a :=
  ⟨twins.name.symm, twins.parentName.symm, twins.isAlias.symm, fun n => (twins.own n).symm, fun n => (twins.all n).symm,
    twins.allRequired.symm⟩

theorem trans (first : a.Twins b) (second : b.Twins c) : a.Twins c where
  name := second.name.trans first.name
  parentName := second.parentName.trans first.parentName
  isAlias := second.isAlias.trans first.isAlias
  own n := (second.own n).trans (first.own n)
  all n := (second.all n).trans (first.all n)
  allRequired := second.allRequired.trans first.allRequired

theorem declare (twins : m.Twins other) (p : Property) : (m.declare p).Twins (other.declare p) where
  name := twins.name
  parentName := twins.parentName
  isAlias := twins.isAlias
  own n := (named_upsert p _ n).trans ((congrArg _ (twins.own n)).trans (named_upsert p _ n).symm)
  all n := (named_upsert p _ n).trans ((congrArg _ (twins.all n)).trans (named_upsert p _ n).symm)
  allRequired := twins.allRequired

theorem requireName (twins : m.Twins other) (name : String) : (m.requireName name).Twins (other.requireName name) where
  name := twins.name
  parentName := twins.parentName
  isAlias := twins.isAlias
  own := twins.own
  all := twins.all
  allRequired := congrArg (·.insert name) twins.allRequired

theorem refresh_ownProperty? (m : Model) (n : String) :
    m.refresh.ownProperty? n = (m.ownProperty? n).map (mark m.allRequiredNames) := named_mark _ _ n

theorem refresh_property? (m : Model) (n : String) :
    m.refresh.property? n = (m.property? n).map (mark m.allRequiredNames) := named_mark _ _ n

theorem refresh (twins : m.Twins other) : m.refresh.Twins other.refresh where
  name := twins.name
  parentName := twins.parentName
  isAlias := twins.isAlias
  own n := by rw [refresh_ownProperty?, refresh_ownProperty?, twins.own, twins.allRequired]
  all n := by rw [refresh_property?, refresh_property?, twins.all, twins.allRequired]
  allRequired := twins.allRequired

theorem of_addImports (m : Model) (names : List String) : m.Twins (m.addImports names) := by
  obtain ⟨imports, eq⟩ := addImports_eq m names
  rw [eq]
  exact ⟨rfl, rfl, rfl, fun _ => rfl, fun _ => rfl, rfl⟩

theorem of_addMember (m : Model) (child : String) : m.Twins (m.addMember child) :=
  ⟨rfl, rfl, rfl, fun _ => rfl, fun _ => rfl, rfl⟩

theorem of_addInterface (m : Model) (union : String) : m.Twins (m.addInterface union) :=
  ⟨rfl, rfl, rfl, fun _ => rfl, fun _ => rfl, rfl⟩

end Twins

section Extend
variable {m other parent elder : Model}

theorem extend_allProperties (m parent : Model) : (m.extend parent).allProperties =
    m.allProperties.foldl appendUnlessNamed (parent.allProperties.filter fun p => (m.ownProperty? p.baseName).isNone) := by
  simp [extend, inherit, addImport_eq, ownProperty?]

theorem extend_allRequiredNames (m parent : Model) :
    (m.extend parent).allRequiredNames = m.allRequiredNames.union parent.allRequiredNames := by
  simp [extend, inherit, addImport_eq]

theorem extend_isAlias (m parent : Model) : (m.extend parent).isAlias = m.isAlias := by
  simp [extend, inherit, addImport_eq]

theorem extend_property? (m parent : Model) (n : String) : (m.extend parent).property? n =
    (if (m.ownProperty? n).isNone then parent.property? n else none).or (m.property? n) := by
  unfold property?
  rw [extend_allProperties, named_appendUnlessNamed, named_filter (fun n => (m.ownProperty? n).isNone)]

theorem Twins.extend (twins : m.Twins other) (parents : parent.Twins elder) :
    (m.extend parent).Twins (other.extend elder) where
  name := by rw [extend_name, extend_name, twins.name]
  parentName := by rw [extend_parentName, extend_parentName, parents.name]
  isAlias := by rw [extend_isAlias, extend_isAlias, twins.isAlias]
  own n := by
    unfold ownProperty?
    rw [extend_ownProperties, extend_ownProperties]
    exact twins.own n
  all n := by rw [extend_property?, extend_property?, twins.own, twins.all, parents.all]
  allRequired := by rw [extend_allRequiredNames, extend_allRequiredNames, twins.allRequired, parents.allRequired]

theorem extend_tidy (tidy : m.Tidy) (elder : parent.Tidy) : (m.extend parent).Tidy where
  own := by
    rw [ownNames, extend_ownProperties]
    exact tidy.own
  all := by
    rw [propertyNames, extend_allProperties]
    exact foldl_append_nodup _ ((List.filter_sublist.map _).nodup elder.all)

end Extend

section Finish
variable {m : Model}

theorem mark_mark (required : NameSet) (p : Property) : mark required (mark required p) = mark required p := rfl

theorem refresh_marked (m : Model) : m.refresh.Marked := by
  intro p listed
  have made : p ∈ (m.ownProperties ++ m.allProperties).map (mark m.allRequiredNames) := by
    simpa [refresh] using listed
  obtain ⟨before, -, rfl⟩ := List.mem_map.mp made
  exact mark_mark _ before

theorem refresh_tidy (tidy : m.Tidy) : m.refresh.Tidy where
  own := by
    have same : m.refresh.ownNames = m.ownNames := by simp [ownNames, refresh, mark, Function.comp_def]
    exact same ▸ tidy.own
  all := by
    have same : m.refresh.propertyNames = m.propertyNames := by simp [propertyNames, refresh, mark, Function.comp_def]
    exact same ▸ tidy.all

theorem Marked.map_mark (marked : m.Marked) {ps : List Property} (listed : ps ⊆ m.ownProperties ++ m.allProperties) :
    ps.map (mark m.allRequiredNames) = ps := by
  have same : ps.map (mark m.allRequiredNames) = ps.map id := List.map_congr_left fun p known => marked p (listed known)
  rw [same, List.map_id]

theorem Marked.refresh (marked : m.Marked) : m.Twins m.refresh where
  name := rfl
  parentName := rfl
  isAlias := rfl
  own n := congrArg (named n) (marked.map_mark (List.subset_append_left _ _))
  all n := congrArg (named n) (marked.map_mark (List.subset_append_right _ _))
  allRequired := rfl

structure Settled (m : Model) : Prop extends Tidy m where
  marked : m.Marked

-- A later form of a settled model, still settled and with the same properties.
structure Keeps (m next : Model) : Prop where
  twins : m.Twins next
  settled : next.Settled

theorem Keeps.trans {a b c : Model} (first : a.Keeps b) (second : b.Keeps c) : a.Keeps c :=
  ⟨first.twins.trans second.twins, second.settled⟩

theorem Settled.addImports (settled : m.Settled) (names : List String) : m.Keeps (m.addImports names) := by
  refine ⟨.of_addImports m names, ?_⟩
  obtain ⟨imports, eq⟩ := addImports_eq m names
  rw [eq]
  exact ⟨⟨settled.own, settled.all⟩, settled.marked⟩

theorem Settled.refresh (settled : m.Settled) : m.Keeps m.refresh :=
  ⟨settled.marked.refresh, refresh_tidy settled.toTidy, refresh_marked m⟩

theorem Settled.reorder (settled : m.Settled) {own all : List Property} (owns : own.Perm m.ownProperties)
    (alls : all.Perm m.allProperties) : m.Keeps { m with ownProperties := own, allProperties := all } where
  twins := ⟨rfl, rfl, rfl, named_perm owns.symm settled.own, named_perm alls.symm settled.all, rfl⟩
  settled :=
    { own := (owns.map _).nodup_iff.mpr settled.own
      all := (alls.map _).nodup_iff.mpr settled.all
      marked := fun p listed => settled.marked p ((owns.append alls).subset listed) }

theorem Settled.dedupe (settled : m.Settled) : m.dedupeProperties = m := by
  unfold dedupeProperties
  rw [dedupe_eq settled.own, dedupe_eq settled.all]

theorem Settled.sort (settled : m.Settled) (settings : GeneratorSettings) : m.Keeps (sortIfAsked settings m) := by
  unfold sortIfAsked
  split
  · have sorted : m.Keeps m.sortRequiredFirst := settled.reorder (requiredFirst_perm _) (requiredFirst_perm _)
    exact sorted.trans sorted.settled.refresh
  · exact ⟨.refl m, settled⟩

theorem Settled.convert (settled : m.Settled) (settings : GeneratorSettings) :
    m.Keeps (converterImport settings m) := by
  unfold converterImport
  split
  · exact ⟨.refl m, settled⟩
  · exact settled.addImports [_]

theorem Settled.complete (settled : m.Settled) (settings : GeneratorSettings) : m.Keeps (m.complete settings) := by
  have collected : m.Keeps (m.collectImports settings) := settled.addImports _
  have refreshed := collected.trans (collected.settled.refresh)
  have sorted := refreshed.trans (refreshed.settled.sort settings)
  have imported := sorted.trans (sorted.settled.addImports settings.modelImports)
  have finished := imported.trans (imported.settled.convert settings)
  rw [← collected.settled.dedupe] at finished
  exact finished

end Finish
end Model
end ApiModels
