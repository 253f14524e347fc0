import ApiModels.Proofs.Model.Twins

namespace ApiModels
namespace Model
variable {m next parent : Model} {settings : GeneratorSettings}

theorem mem_propertyNames {n : String} : n ∈ m.propertyNames ↔ (m.property? n).isSome := (named_isSome n _).symm

theorem mem_ownNames {n : String} : n ∈ m.ownNames ↔ (m.ownProperty? n).isSome := (named_isSome n _).symm

-- The own view is part of the merged one, record by record, and so is what is required.
structure Nested (m : Model) : Prop where
  same : ∀ n p, m.ownProperty? n = some p → m.property? n = some p
  declaredOwn : ∀ n ∈ m.requiredNames, n ∈ m.allRequiredNames
  declared : ∀ n ∈ m.allRequiredNames, n ∈ m.propertyNames

namespace Nested

theorem merged (nested : m.Nested) : m.Merged := by
  refine ⟨fun n listed => ?_, nested.declaredOwn⟩
  obtain ⟨p, own⟩ := Option.isSome_iff_exists.mp (mem_ownNames.mp listed)
  exact mem_propertyNames.mpr (Option.isSome_iff_exists.mpr ⟨p, nested.same n p own⟩)

theorem twins (nested : m.Nested) (twins : m.Twins next) (required : next.requiredNames = m.requiredNames) :
    next.Nested where
  same n p own := by
    rw [twins.own] at own
    rw [twins.all]
    exact nested.same n p own
  declaredOwn n listed := by
    rw [required] at listed
    rw [twins.allRequired]
    exact nested.declaredOwn n listed
  declared n listed := by
    rw [twins.allRequired] at listed
    rw [mem_propertyNames, twins.all, ← mem_propertyNames]
    exact nested.declared n listed

theorem declare (nested : m.Nested) (p : Property) : (m.declare p).Nested where
  same n q own := by
    have own : named n (upsert p m.ownProperties) = some q := own
    change named n (upsert p m.allProperties) = some q
    rw [named_upsert] at own ⊢
    split
    · rwa [if_pos ‹_›] at own
    · rw [if_neg ‹_›] at own
      exact nested.same n q own
  declaredOwn := nested.declaredOwn
  declared n listed := (mem_names_upsert p _ n).mpr (.inr (nested.declared n listed))

theorem requireName (nested : m.Nested) {name : String} (known : (m.property? name).isSome) :
    (m.requireName name).Nested where
  same := nested.same
  declaredOwn n listed :=
    (NameSet.mem_insert _ _ n).mpr (((NameSet.mem_insert _ _ n).mp listed).imp id (nested.declaredOwn n))
  declared n listed := by
    rcases (NameSet.mem_insert _ _ n).mp listed with rfl | old
    · exact mem_propertyNames.mpr known
    · exact nested.declared n old

theorem refresh (nested : m.Nested) : m.refresh.Nested where
  same n p own := by
    rw [Twins.refresh_ownProperty?] at own
    rw [Twins.refresh_property?]
    obtain ⟨before, held, rfl⟩ := Option.map_eq_some_iff.mp own
    rw [nested.same n before held, Option.map_some]
  declaredOwn := nested.declaredOwn
  declared n listed := (m.refresh_rearranges.properties n).mpr (nested.declared n listed)

theorem extend (nested : m.Nested) (elder : parent.Nested) : (m.extend parent).Nested where
  same n p own := by
    rw [ownProperty?, extend_ownProperties] at own
    have held : m.ownProperty? n = some p := own
    rw [extend_property?, held, nested.same n p held]
    rfl
  declaredOwn := (extend_merged nested.merged parent).2
  declared n listed := by
    rw [mem_propertyNames_extend nested.merged]
    exact ((mem_allRequiredNames_extend m parent n).mp listed).imp (elder.declared n) (nested.declared n)

end Nested

def Refreshed (m : Model) : Prop := m.refresh = m

theorem refresh_refreshed (m : Model) : m.refresh.Refreshed := by
  have again (ps : List Property) : (ps.map (mark m.allRequiredNames)).map (mark m.allRequiredNames) =
      ps.map (mark m.allRequiredNames) := by
    rw [List.map_map]
    rfl
  simp only [Refreshed, refresh, again]

theorem Refreshed.addImports (refreshed : m.Refreshed) (names : List String) : (m.addImports names).Refreshed := by
  obtain ⟨imports, eq⟩ := addImports_eq m names
  rw [eq]
  exact congrArg (fun m : Model => { m with imports }) refreshed

theorem Refreshed.addInterface (refreshed : m.Refreshed) (union : String) : (m.addInterface union).Refreshed :=
  congrArg (fun m : Model => m.addInterface union) refreshed

-- The partitions split the merged view in its order, and the flags tell which lists are empty.
structure Partitioned (m : Model) : Prop where
  requiredVars : m.requiredVars = m.allProperties.filter (·.required)
  optionalVars : m.optionalVars = m.allProperties.filter (!·.required)
  readOnlyVars : m.readOnlyVars = m.allProperties.filter (·.readOnly)
  readWriteVars : m.readWriteVars = m.allProperties.filter (!·.readOnly)
  hasRequired : m.hasRequired ↔ m.requiredVars ≠ []
  hasOptional : m.hasOptional ↔ m.optionalVars ≠ []
  hasOnlyReadOnly : m.hasOnlyReadOnly ↔ m.readWriteVars = []
  hasEnums : m.hasEnums ↔ ∃ p ∈ m.allProperties, p.isEnum
  hasVars : m.hasVars ↔ m.ownProperties ≠ []

theorem refresh_partitioned (m : Model) : m.refresh.Partitioned where
  requiredVars := rfl
  optionalVars := rfl
  readOnlyVars := rfl
  readWriteVars := rfl
  hasRequired := by simp only [refresh, Bool.not_eq_true', List.isEmpty_eq_false_iff]
  hasOptional := by simp only [refresh, Bool.not_eq_true', List.isEmpty_eq_false_iff]
  hasOnlyReadOnly := List.isEmpty_iff
  hasEnums := List.any_eq_true
  hasVars := by simp only [refresh, Bool.not_eq_true', List.isEmpty_eq_false_iff]

theorem Refreshed.partitioned (refreshed : m.Refreshed) : m.Partitioned := by
  have partitioned := m.refresh_partitioned
  rwa [refreshed] at partitioned

structure Sorted (m : Model) : Prop where
  own : requiredFirst m.ownProperties = m.ownProperties
  all : requiredFirst m.allProperties = m.allProperties

theorem requiredFirst_requiredFirst (ps : List Property) : requiredFirst (requiredFirst ps) = requiredFirst ps := by
  simp [requiredFirst, List.filter_append, List.filter_filter]

theorem Marked.sort (marked : m.Marked) : m.sortRequiredFirst.Marked := fun p listed =>
  marked p (((requiredFirst_perm _).append (requiredFirst_perm _)).subset listed)

theorem complete_eq (settings : GeneratorSettings) (m : Model) : ∃ imports, m.complete settings =
    { sortIfAsked settings (m.collectImports settings).dedupeProperties.refresh with imports } := by
  unfold complete converterImport
  dsimp only
  generalize sortIfAsked settings (m.collectImports settings).dedupeProperties.refresh = arranged
  obtain ⟨imports, eq⟩ := addImports_eq arranged settings.modelImports
  rw [eq]
  split
  · exact ⟨imports, rfl⟩
  · exact ⟨_, addImport_eq _ _⟩

theorem complete_refreshed (settings : GeneratorSettings) (m : Model) : (m.complete settings).Refreshed := by
  obtain ⟨imports, eq⟩ := complete_eq settings m
  rw [eq]
  have arranged : (sortIfAsked settings (m.collectImports settings).dedupeProperties.refresh).Refreshed := by
    unfold sortIfAsked
    split <;> exact refresh_refreshed _
  exact congrArg (fun m : Model => { m with imports }) arranged

theorem complete_sorted (asked : settings.sortByRequired) (m : Model) : (m.complete settings).Sorted := by
  obtain ⟨imports, eq⟩ := complete_eq settings m
  have marked : (m.collectImports settings).dedupeProperties.refresh.sortRequiredFirst.Marked := (refresh_marked _).sort
  rw [eq, sortIfAsked, if_pos asked]
  constructor
  · change requiredFirst (List.map _ _) = List.map _ _
    rw [marked.map_mark (List.subset_append_left _ _)]
    exact requiredFirst_requiredFirst _
  · change requiredFirst (List.map _ _) = List.map _ _
    rw [marked.map_mark (List.subset_append_right _ _)]
    exact requiredFirst_requiredFirst _

-- What the lists, the sets and the flags of a finished model say of each other.
structure Consistent (settings : GeneratorSettings) (m : Model) : Prop extends Partitioned m where
  ownUnique : (m.ownProperties.map (·.baseName)).Nodup
  allUnique : (m.allProperties.map (·.baseName)).Nodup
  own : m.ownProperties ⊆ m.allProperties
  required : ∀ p ∈ m.ownProperties ++ m.allProperties, p.required ↔ p.baseName ∈ m.allRequiredNames
  requiredNames : ∀ name ∈ m.requiredNames, name ∈ m.allRequiredNames
  allRequiredNames : ∀ name ∈ m.allRequiredNames, name ∈ m.allProperties.map (·.baseName)
  allSorted : settings.sortByRequired → m.allProperties = m.requiredVars ++ m.optionalVars
  ownSorted : settings.sortByRequired →
    m.ownProperties = m.ownProperties.filter (·.required) ++ m.ownProperties.filter (!·.required)

theorem Settled.consistent (settled : m.Settled) (nested : m.Nested) (refreshed : m.Refreshed)
    (sorted : settings.sortByRequired → m.Sorted) : m.Consistent settings where
  toPartitioned := refreshed.partitioned
  ownUnique := settled.own
  allUnique := settled.all
  own p listed := by
    have own := (named_eq_some settled.own).mpr ⟨listed, rfl⟩
    exact ((named_eq_some settled.all).mp (nested.same _ p own)).1
  required p listed := by
    rw [← settled.marked p listed]
    exact decide_eq_true_iff
  requiredNames := nested.declaredOwn
  allRequiredNames := nested.declared
  allSorted asked := by
    rw [refreshed.partitioned.requiredVars, refreshed.partitioned.optionalVars]
    exact (sorted asked).all.symm
  ownSorted asked := (sorted asked).own.symm

end Model
end ApiModels
