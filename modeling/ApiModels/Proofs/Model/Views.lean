import Mathlib.Logic.Basic
import ApiModels.Resolution.Resolve

namespace ApiModels
namespace Model

def propertyNames (m : Model) : List String := m.allProperties.map (·.baseName)

def ownNames (m : Model) : List String := m.ownProperties.map (·.baseName)

def Covers (m other : Model) : Prop :=
  other.propertyNames ⊆ m.propertyNames ∧ ∀ name ∈ other.allRequiredNames, name ∈ m.allRequiredNames

instance (m other : Model) : Decidable (m.Covers other) :=
  inferInstanceAs (Decidable ((∀ name ∈ other.propertyNames, name ∈ m.propertyNames) ∧
    ∀ name ∈ other.allRequiredNames.toList, name ∈ m.allRequiredNames.toList))

-- Declares all of its properties itself and inherits none.
def SelfMade (m : Model) : Prop :=
  m.propertyNames ⊆ m.ownNames ∧ ∀ name ∈ m.allRequiredNames, name ∈ m.requiredNames

instance (m : Model) : Decidable m.SelfMade :=
  inferInstanceAs (Decidable ((∀ name ∈ m.propertyNames, name ∈ m.ownNames) ∧
    ∀ name ∈ m.allRequiredNames.toList, name ∈ m.requiredNames.toList))

def Merged (m : Model) : Prop :=
  m.ownNames ⊆ m.propertyNames ∧ ∀ name ∈ m.requiredNames, name ∈ m.allRequiredNames

def Bare (m : Model) : Prop := m.propertyNames = [] ∧ ∀ name, name ∉ m.allRequiredNames

theorem Covers.refl (m : Model) : m.Covers m := ⟨fun _ listed => listed, fun _ listed => listed⟩

theorem Covers.trans {a b c : Model} (upper : a.Covers b) (lower : b.Covers c) : a.Covers c :=
  ⟨fun _ listed => upper.1 (lower.1 listed), fun _ listed => upper.2 _ (lower.2 _ listed)⟩

-- Two models that show the same names.
structure Agrees (m other : Model) : Prop where
  parentName : other.parentName = m.parentName
  properties : ∀ name, name ∈ other.propertyNames ↔ name ∈ m.propertyNames
  own : ∀ name, name ∈ other.ownNames ↔ name ∈ m.ownNames
  required : other.requiredNames = m.requiredNames
  allRequired : other.allRequiredNames = m.allRequiredNames

namespace Agrees
variable {a b c : Model}

theorem refl (m : Model) : m.Agrees m := ⟨rfl, fun _ => Iff.rfl, fun _ => Iff.rfl, rfl, rfl⟩

theorem trans (first : a.Agrees b) (second : b.Agrees c) : a.Agrees c where
  parentName := second.parentName.trans first.parentName
  properties name := (second.properties name).trans (first.properties name)
  own name := (second.own name).trans (first.own name)
  required := second.required.trans first.required
  allRequired := second.allRequired.trans first.allRequired

theorem symm (same : a.Agrees b) : b.Agrees a where
  parentName := same.parentName.symm
  properties name := (same.properties name).symm
  own name := (same.own name).symm
  required := same.required.symm
  allRequired := same.allRequired.symm

theorem covers (same : a.Agrees b) : b.Covers a :=
  ⟨fun _ listed => (same.properties _).mpr listed, fun _ listed => same.allRequired ▸ listed⟩

theorem selfMade (same : a.Agrees b) (made : a.SelfMade) : b.SelfMade := by
  refine ⟨fun name listed => (same.own name).mpr (made.1 ((same.properties name).mp listed)), ?_⟩
  rw [same.required, same.allRequired]
  exact made.2

theorem merged (same : a.Agrees b) (merged : a.Merged) : b.Merged := by
  refine ⟨fun name listed => (same.properties name).mpr (merged.1 ((same.own name).mp listed)), ?_⟩
  rw [same.required, same.allRequired]
  exact merged.2

theorem bare (same : a.Agrees b) (bare : a.Bare) : b.Bare := by
  refine ⟨List.eq_nil_iff_forall_not_mem.mpr ?_, by rw [same.allRequired]; exact bare.2⟩
  intro name listed
  have known := (same.properties name).mp listed
  simp [bare.1] at known

end Agrees

-- The same names under the same links, perhaps in another order.
structure Rearranges (m next : Model) : Prop extends Agrees m next where
  name : next.name = m.name
  interfaces : next.interfaces = m.interfaces
  unionMembers : next.unionMembers = m.unionMembers

structure Grows (m next : Model) : Prop where
  name : next.name = m.name
  parentName : next.parentName = m.parentName
  interfaces : next.interfaces = m.interfaces
  unionMembers : next.unionMembers = m.unionMembers
  covers : next.Covers m
  selfMade : m.SelfMade → next.SelfMade
  merged : m.Merged → next.Merged

section Order
variable {a b c : Model}

theorem Rearranges.refl (m : Model) : m.Rearranges m := ⟨.refl m, rfl, rfl, rfl⟩

theorem Rearranges.trans (first : a.Rearranges b) (second : b.Rearranges c) : a.Rearranges c where
  toAgrees := first.toAgrees.trans second.toAgrees
  name := second.name.trans first.name
  interfaces := second.interfaces.trans first.interfaces
  unionMembers := second.unionMembers.trans first.unionMembers

theorem Rearranges.grows (same : a.Rearranges b) : a.Grows b :=
  ⟨same.name, same.parentName, same.interfaces, same.unionMembers, same.covers, same.selfMade, same.merged⟩

theorem Grows.refl (m : Model) : m.Grows m := ⟨rfl, rfl, rfl, rfl, .refl m, id, id⟩

theorem Grows.trans (first : a.Grows b) (second : b.Grows c) : a.Grows c where
  name := second.name.trans first.name
  parentName := second.parentName.trans first.parentName
  interfaces := second.interfaces.trans first.interfaces
  unionMembers := second.unionMembers.trans first.unionMembers
  covers := second.covers.trans first.covers
  selfMade made := second.selfMade (first.selfMade made)
  merged whole := second.merged (first.merged whole)

end Order

section Lists

theorem mem_names_upsert (p : Property) (ps : List Property) (name : String) :
    name ∈ (upsert p ps).map (·.baseName) ↔ name = p.baseName ∨ name ∈ ps.map (·.baseName) := by
  induction ps with
  | nil => simp [upsert]
  | cons head rest ih =>
      by_cases same : head.baseName = p.baseName
      · simp [upsert, same]
      · simp only [upsert, same, if_false, List.map_cons, List.mem_cons, ih]
        exact or_left_comm

theorem mem_names_foldl_upsert (ps merged : List Property) (name : String) :
    name ∈ (ps.foldl (fun unique p => upsert p unique) merged).map (·.baseName) ↔
      name ∈ ps.map (·.baseName) ∨ name ∈ merged.map (·.baseName) := by
  induction ps generalizing merged with
  | nil => simp
  | cons head rest ih =>
      rw [List.foldl_cons, ih, mem_names_upsert, List.map_cons, List.mem_cons]
      exact or_left_comm.trans or_assoc.symm

theorem mem_names_dedupe (ps : List Property) (name : String) :
    name ∈ (dedupe ps).map (·.baseName) ↔ name ∈ ps.map (·.baseName) := by
  simp [dedupe, mem_names_foldl_upsert]

theorem mem_names_requiredFirst (ps : List Property) (name : String) :
    name ∈ (requiredFirst ps).map (·.baseName) ↔ name ∈ ps.map (·.baseName) := by
  simp only [requiredFirst, List.map_append, List.mem_append, List.mem_map, List.mem_filter]
  constructor
  · rintro (⟨p, ⟨listed, _⟩, same⟩ | ⟨p, ⟨listed, _⟩, same⟩) <;> exact ⟨p, listed, same⟩
  · rintro ⟨p, listed, same⟩
    cases required : p.required with
    | true => exact .inl ⟨p, ⟨listed, required⟩, same⟩
    | false => exact .inr ⟨p, ⟨listed, by simp [required]⟩, same⟩

theorem named_isSome (name : String) (ps : List Property) :
    (named name ps).isSome ↔ name ∈ ps.map (·.baseName) := by
  simp [named]

theorem mem_names_appendUnlessNamed (merged ps : List Property) (name : String) :
    name ∈ (ps.foldl appendUnlessNamed merged).map (·.baseName) ↔
      name ∈ merged.map (·.baseName) ∨ name ∈ ps.map (·.baseName) := by
  induction ps generalizing merged with
  | nil => simp
  | cons head rest ih =>
      rw [List.foldl_cons, ih]
      unfold appendUnlessNamed
      split
      · rename_i known
        have listed := (named_isSome head.baseName merged).mp known
        constructor
        · rintro (here | later)
          · exact .inl here
          · exact .inr (List.mem_cons_of_mem _ later)
        · rintro (here | new)
          · exact .inl here
          · rcases List.mem_cons.mp new with same | later
            · exact .inl (same ▸ listed)
            · exact .inr later
      · simp [or_assoc]

end Lists

section Changes
variable {m parent : Model}

theorem declare_grows (m : Model) (p : Property) : m.Grows (m.declare p) where
  name := rfl
  parentName := rfl
  interfaces := rfl
  unionMembers := rfl
  covers := ⟨fun name listed => (mem_names_upsert p m.allProperties name).mpr (.inr listed), fun _ listed => listed⟩
  selfMade made := by
    refine ⟨?_, made.2⟩
    intro name listed
    rcases (mem_names_upsert p m.allProperties name).mp listed with new | old
    · exact (mem_names_upsert p m.ownProperties name).mpr (.inl new)
    · exact (mem_names_upsert p m.ownProperties name).mpr (.inr (made.1 old))
  merged whole := by
    refine ⟨?_, whole.2⟩
    intro name listed
    rcases (mem_names_upsert p m.ownProperties name).mp listed with new | old
    · exact (mem_names_upsert p m.allProperties name).mpr (.inl new)
    · exact (mem_names_upsert p m.allProperties name).mpr (.inr (whole.1 old))

theorem requireName_grows (m : Model) (required : String) : m.Grows (m.requireName required) where
  name := rfl
  parentName := rfl
  interfaces := rfl
  unionMembers := rfl
  covers := ⟨fun _ listed => listed, fun name listed => (NameSet.mem_insert _ _ name).mpr (.inr listed)⟩
  selfMade made := by
    refine ⟨made.1, ?_⟩
    intro name listed
    exact (NameSet.mem_insert _ _ name).mpr (((NameSet.mem_insert _ _ name).mp listed).imp id (made.2 name))
  merged whole := by
    refine ⟨whole.1, ?_⟩
    intro name listed
    exact (NameSet.mem_insert _ _ name).mpr (((NameSet.mem_insert _ _ name).mp listed).imp id (whole.2 name))

theorem refresh_rearranges (m : Model) : m.Rearranges m.refresh where
  parentName := rfl
  properties name := by simp [propertyNames, refresh, mark, Function.comp_def]
  own name := by simp [ownNames, refresh, mark, Function.comp_def]
  required := rfl
  allRequired := rfl
  name := rfl
  interfaces := rfl
  unionMembers := rfl

theorem dedupeProperties_rearranges (m : Model) : m.Rearranges m.dedupeProperties where
  parentName := rfl
  properties := mem_names_dedupe m.allProperties
  own := mem_names_dedupe m.ownProperties
  required := rfl
  allRequired := rfl
  name := rfl
  interfaces := rfl
  unionMembers := rfl

theorem sortRequiredFirst_rearranges (m : Model) : m.Rearranges m.sortRequiredFirst where
  parentName := rfl
  properties := mem_names_requiredFirst m.allProperties
  own := mem_names_requiredFirst m.ownProperties
  required := rfl
  allRequired := rfl
  name := rfl
  interfaces := rfl
  unionMembers := rfl

theorem addImport_eq (m : Model) (name : String) :
    m.addImport name = { m with imports := if name.isEmpty then m.imports else m.imports.insert name } := by
  unfold addImport
  split <;> rfl

theorem addImports_eq (m : Model) (names : List String) :
    ∃ imports, m.addImports names = { m with imports } := by
  unfold addImports
  induction names generalizing m with
  | nil => exact ⟨m.imports, rfl⟩
  | cons head rest ih =>
      obtain ⟨imports, eq⟩ := ih (m.addImport head)
      exact ⟨imports, by rw [List.foldl_cons, eq, addImport_eq]⟩

theorem addImports_rearranges (m : Model) (names : List String) : m.Rearranges (m.addImports names) := by
  obtain ⟨imports, eq⟩ := addImports_eq m names
  rw [eq]
  exact ⟨⟨rfl, fun _ => Iff.rfl, fun _ => Iff.rfl, rfl, rfl⟩, rfl, rfl, rfl⟩

theorem addImport_rearranges (m : Model) (name : String) : m.Rearranges (m.addImport name) :=
  addImports_rearranges m [name]

theorem addMember_agrees (m : Model) (child : String) : m.Agrees (m.addMember child) :=
  ⟨rfl, fun _ => Iff.rfl, fun _ => Iff.rfl, rfl, rfl⟩

theorem addInterface_agrees (m : Model) (union : String) : m.Agrees (m.addInterface union) :=
  ⟨rfl, fun _ => Iff.rfl, fun _ => Iff.rfl, rfl, rfl⟩

theorem mem_propertyNames_extend (whole : m.Merged) (parent : Model) (name : String) :
    name ∈ (m.extend parent).propertyNames ↔ name ∈ parent.propertyNames ∨ name ∈ m.propertyNames := by
  have eq : (m.extend parent).allProperties = m.allProperties.foldl appendUnlessNamed
      (parent.allProperties.filter fun p => (m.ownProperty? p.baseName).isNone) := by
    simp [extend, inherit, addImport_eq, ownProperty?]
  unfold propertyNames
  rw [eq, mem_names_appendUnlessNamed]
  refine or_congr_left' fun absent => ?_
  constructor
  · intro kept
    obtain ⟨p, listed, same⟩ := List.mem_map.mp kept
    exact List.mem_map.mpr ⟨p, (List.mem_filter.mp listed).1, same⟩
  · intro inherited
    obtain ⟨p, listed, same⟩ := List.mem_map.mp inherited
    have foreign : p.baseName ∉ m.ownNames := fun own => absent (whole.1 (same ▸ own))
    refine List.mem_map.mpr ⟨p, List.mem_filter.mpr ⟨listed, ?_⟩, same⟩
    rw [Option.isNone_iff_eq_none, ← Option.not_isSome_iff_eq_none, ownProperty?, named_isSome]
    exact foreign

theorem mem_allRequiredNames_extend (m parent : Model) (name : String) :
    name ∈ (m.extend parent).allRequiredNames ↔
      name ∈ parent.allRequiredNames ∨ name ∈ m.allRequiredNames := by
  simp [extend, inherit, addImport_eq, NameSet.mem_union]

@[simp] theorem extend_name (m parent : Model) : (m.extend parent).name = m.name := by
  simp [extend, inherit, addImport_eq]

theorem extend_parentName (m parent : Model) : (m.extend parent).parentName = some parent.name := by
  simp [extend, inherit, addImport_eq]

theorem extend_interfaces (m parent : Model) : (m.extend parent).interfaces = m.interfaces := by
  simp [extend, inherit, addImport_eq]

theorem extend_unionMembers (m parent : Model) : (m.extend parent).unionMembers = m.unionMembers := by
  simp [extend, inherit, addImport_eq]

theorem extend_ownProperties (m parent : Model) : (m.extend parent).ownProperties = m.ownProperties := by
  simp [extend, inherit, addImport_eq]

theorem extend_requiredNames (m parent : Model) : (m.extend parent).requiredNames = m.requiredNames := by
  simp [extend, inherit, addImport_eq]

theorem extend_covers (whole : m.Merged) (parent : Model) : (m.extend parent).Covers parent :=
  ⟨fun name listed => (mem_propertyNames_extend whole parent name).mpr (.inl listed),
    fun name listed => (mem_allRequiredNames_extend m parent name).mpr (.inl listed)⟩

theorem extend_merged (whole : m.Merged) (parent : Model) : (m.extend parent).Merged := by
  refine ⟨fun name listed => (mem_propertyNames_extend whole parent name).mpr (.inr (whole.1 ?_)), ?_⟩
  · rwa [ownNames, extend_ownProperties] at listed
  · intro name listed
    rw [extend_requiredNames] at listed
    exact (mem_allRequiredNames_extend m parent name).mpr (.inr (whole.2 name listed))

theorem extend_selfMade (whole : m.Merged) (made : m.SelfMade) (bare : parent.Bare) :
    (m.extend parent).SelfMade := by
  constructor
  · intro name listed
    rw [ownNames, extend_ownProperties]
    rcases (mem_propertyNames_extend whole parent name).mp listed with inherited | own
    · simp [bare.1] at inherited
    · exact made.1 own
  · intro name listed
    rw [extend_requiredNames]
    rcases (mem_allRequiredNames_extend m parent name).mp listed with inherited | own
    · exact absurd inherited (bare.2 name)
    · exact made.2 name own

theorem sortIfAsked_rearranges (settings : GeneratorSettings) (m : Model) :
    m.Rearranges (sortIfAsked settings m) := by
  unfold sortIfAsked
  split
  · exact (sortRequiredFirst_rearranges m).trans (refresh_rearranges _)
  · exact .refl m

theorem converterImport_rearranges (settings : GeneratorSettings) (m : Model) :
    m.Rearranges (converterImport settings m) := by
  unfold converterImport
  split
  · exact .refl m
  · exact addImport_rearranges m _

theorem complete_rearranges (settings : GeneratorSettings) (m : Model) : m.Rearranges (m.complete settings) :=
  (addImports_rearranges m _).trans <| (dedupeProperties_rearranges _).trans <| (refresh_rearranges _).trans <|
    (sortIfAsked_rearranges settings _).trans <| (addImports_rearranges _ _).trans <|
    converterImport_rearranges settings _

end Changes
end Model
end ApiModels
