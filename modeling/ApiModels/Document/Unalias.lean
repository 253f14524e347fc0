import ApiModels.Document.Basic
import ApiModels.Types.Inference

namespace ApiModels

abbrev AliasTable := Table TypeTag

inductive RefIssue where
  | missing (name : String)
  -- The names visited, the last of them for the second time.
  | cycle (chain : List String)
  deriving DecidableEq

namespace Table

def unmet {α : Type} (t : Table α) (met : List String) : List String := t.names.filter (· ∉ met)

theorem unmet_length_lt {α : Type} (t : Table α) (met later : List String) (name : String)
    (listed : name ∈ t.names) (fresh : name ∉ met) (grows : met ⊆ later) (nowMet : name ∈ later) :
    (t.unmet later).length < (t.unmet met).length := by
  have split : t.unmet later = (t.unmet met).filter (· ∉ later) := by
    simp only [unmet, List.filter_filter]
    congr 1
    funext other
    by_cases inLater : other ∈ later
    · simp [inLater]
    · have outside : other ∉ met := fun mem => inLater (grows mem)
      simp [inLater, outside]
  rw [split]
  refine List.length_filter_lt_length_iff_exists.mpr ⟨name, ?_, by simpa using nowMet⟩
  simp [unmet, listed, fresh]

end Table

namespace Document

-- A reference to a schema that becomes a model of its own is kept; one to anything else is replaced by its target.
def follow (schemas : SchemaTable) (chain : List String) (current : Schema) : Except RefIssue Schema :=
  match current.refName? with
  | none => .ok current
  | some name =>
      if _met : name ∈ chain then .error (.cycle (chain ++ [name]))
      else match _found : schemas.get? name with
        | none => .error (.missing name)
        | some target =>
            if target.hasStructure then .ok current
            else follow schemas (chain ++ [name]) target
termination_by (schemas.unmet chain).length
decreasing_by
  have listed : name ∈ schemas.names := (schemas.contains_iff name).mp (by simp [Table.contains, _found])
  exact schemas.unmet_length_lt chain (chain ++ [name]) name listed _met
    (List.subset_append_left _ _) (by simp)

def unalias (document : Document) (s : Schema) : Except RefIssue Schema := follow document.schemas [] s

theorem mem_names_of_unalias {document : Document} {s target : Schema} {name : String}
    (refers : s.refName? = some name) (followed : document.unalias s = .ok target) :
    name ∈ document.schemas.names := by
  unfold unalias follow at followed
  rw [refers] at followed
  simp only [List.not_mem_nil, dite_false] at followed
  split at followed
  · simp at followed
  · rename_i found
    exact (document.schemas.contains_iff name).mp (by simp [Table.contains, found])

theorem follow_eq (schemas : SchemaTable) (chain : List String) (current : Schema) :
    follow schemas chain current =
      match current.refName? with
      | none => .ok current
      | some name =>
          if name ∈ chain then .error (.cycle (chain ++ [name]))
          else match schemas.get? name with
            | none => .error (.missing name)
            | some target => if target.hasStructure then .ok current else follow schemas (chain ++ [name]) target := by
  rw [follow]
  cases current.refName? with
  | none => rfl
  | some name =>
      by_cases met : name ∈ chain
      · simp [met]
      · simp only [met, dite_false, if_false]
        split <;> rename_i found <;> simp [found]

theorem follow_origin {schemas : SchemaTable} {chain : List String} {s target : Schema}
    (followed : follow schemas chain s = .ok target) :
    target = s ∨ target ∈ schemas.values ∧ target.hasStructure = false := by
  induction chain, s using follow.induct schemas with
  | case1 chain current refers =>
      rw [follow_eq, refers] at followed
      exact .inl (Except.ok.inj followed).symm
  | case2 chain current name refers met =>
      rw [follow_eq] at followed
      simp [refers, met] at followed
  | case3 chain current name refers fresh absent =>
      rw [follow_eq] at followed
      simp [refers, fresh, absent] at followed
  | case4 chain current name refers fresh next found structured =>
      rw [follow_eq] at followed
      simp only [refers, fresh, found, structured, if_false, if_true] at followed
      exact .inl (Except.ok.inj followed).symm
  | case5 chain current name refers fresh next found bare ih =>
      rw [follow_eq] at followed
      simp only [refers, fresh, found, bare, if_false] at followed
      rcases ih followed with same | listed
      · exact .inr (same ▸ ⟨schemas.mem_values_of_get? found, by simpa using bare⟩)
      · exact .inr listed

noncomputable def sizeBound (document : Document) : Nat :=
  document.schemas.values.foldr (fun s bound => max (sizeOf s) bound) 0

theorem sizeOf_le_sizeBound {document : Document} {s : Schema} (listed : s ∈ document.schemas.values) :
    sizeOf s ≤ document.sizeBound := by
  unfold sizeBound
  generalize document.schemas.values = values at listed
  induction values with
  | nil => cases listed
  | cons head rest ih =>
      rcases List.mem_cons.mp listed with same | later
      · exact same ▸ Nat.le_max_left _ _
      · exact Nat.le_trans (ih later) (Nat.le_max_right _ _)

-- The tag of a schema that only renames a simple type: `Distance`, which refers to `Meters`, which is a number, is
-- an alias of number. A chain of references that leads nowhere leaves the schema as it is written.
def aliasTag (document : Document) (mappings : TypeMappings) (s : Schema) : TypeTag :=
  match document.unalias s with
  | .ok target => target.inferTag mappings
  | .error _ => s.inferTag mappings

def aliases (document : Document) (mappings : TypeMappings) : AliasTable :=
  document.schemas.filterMap fun s =>
    if s.isAliasEligible then some (document.aliasTag mappings s) else none

end Document
end ApiModels
