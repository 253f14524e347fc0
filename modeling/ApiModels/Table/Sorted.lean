namespace ApiModels

structure NameSet where
  toList : List String
  sorted : toList.Pairwise (· < ·)
  deriving DecidableEq

namespace NameSet

def insertInto (name : String) : List String → List String
  | [] => [name]
  | head :: rest =>
      if name < head then name :: head :: rest
      else if name = head then head :: rest
      else head :: insertInto name rest

theorem mem_insertInto (name other : String) (names : List String) :
    other ∈ insertInto name names ↔ other = name ∨ other ∈ names := by
  induction names with
  | nil => simp [insertInto]
  | cons head rest ih =>
      unfold insertInto
      split
      · simp
      · split
        · rename_i same
          simp [same]
        · simp only [List.mem_cons, ih]
          constructor
          · rintro (h | h | h) <;> simp [h]
          · rintro (h | h | h) <;> simp [h]

theorem insertInto_sorted (name : String) (names : List String) (sorted : names.Pairwise (· < ·)) :
    (insertInto name names).Pairwise (· < ·) := by
  induction names with
  | nil => simp [insertInto]
  | cons head rest ih =>
      obtain ⟨below, restSorted⟩ := List.pairwise_cons.mp sorted
      unfold insertInto
      split
      · rename_i before
        refine List.pairwise_cons.mpr ⟨?_, sorted⟩
        intro other mem
        rcases List.mem_cons.mp mem with eq | later
        · exact eq ▸ before
        · exact String.lt_trans before (below other later)
      · split
        · exact sorted
        · rename_i notBefore different
          refine List.pairwise_cons.mpr ⟨?_, ih restSorted⟩
          intro other mem
          rcases (mem_insertInto name other rest).mp mem with eq | later
          · have atMost : head ≤ name := notBefore
            rcases Decidable.em (head < name) with lt | notLt
            · exact eq ▸ lt
            · exact absurd (String.le_antisymm notLt atMost) different
          · exact below other later

def empty : NameSet := ⟨[], List.Pairwise.nil⟩

instance : Inhabited NameSet := ⟨empty⟩
instance : EmptyCollection NameSet := ⟨empty⟩
instance : Membership String NameSet := ⟨fun set name => name ∈ set.toList⟩

instance (name : String) (set : NameSet) : Decidable (name ∈ set) :=
  inferInstanceAs (Decidable (name ∈ set.toList))

def insert (set : NameSet) (name : String) : NameSet :=
  ⟨insertInto name set.toList, insertInto_sorted name set.toList set.sorted⟩

def insertAll (set : NameSet) (names : List String) : NameSet := names.foldl insert set

def union (set more : NameSet) : NameSet := set.insertAll more.toList

def ofList (names : List String) : NameSet := empty.insertAll names

theorem mem_insert (set : NameSet) (name other : String) : other ∈ set.insert name ↔ other = name ∨ other ∈ set :=
  mem_insertInto name other set.toList

theorem mem_insertAll (set : NameSet) (names : List String) (other : String) :
    other ∈ set.insertAll names ↔ other ∈ names ∨ other ∈ set := by
  induction names generalizing set with
  | nil => simp [insertAll]
  | cons head rest ih =>
      have step := ih (set.insert head)
      simp only [insertAll, List.foldl_cons] at step ⊢
      rw [step, mem_insert, List.mem_cons]
      constructor
      · rintro (h | h | h) <;> simp [h]
      · rintro ((h | h) | h) <;> simp [h]

theorem mem_ofList (names : List String) (other : String) : other ∈ ofList names ↔ other ∈ names :=
  (mem_insertAll empty names other).trans (or_iff_left List.not_mem_nil)

theorem mem_union (set more : NameSet) (other : String) : other ∈ set.union more ↔ other ∈ more ∨ other ∈ set :=
  mem_insertAll set more.toList other

end NameSet

-- A name written again replaces the value and keeps the one entry.
structure SortedTable (α : Type) where
  entries : List (String × α)
  sorted : entries.Pairwise (·.1 < ·.1)

namespace SortedTable
variable {α : Type}

def insertInto (name : String) (value : α) : List (String × α) → List (String × α)
  | [] => [(name, value)]
  | head :: rest =>
      if name < head.1 then (name, value) :: head :: rest
      else if name = head.1 then (name, value) :: rest
      else head :: insertInto name value rest

theorem mem_insertInto_name (name : String) (value : α) (entries : List (String × α)) (entry : String × α)
    (mem : entry ∈ insertInto name value entries) : entry.1 = name ∨ entry ∈ entries := by
  induction entries with
  | nil => simp_all [insertInto]
  | cons head rest ih =>
      unfold insertInto at mem
      split at mem
      · rcases List.mem_cons.mp mem with eq | later
        · exact .inl (by simp [eq])
        · exact .inr later
      · split at mem
        · rcases List.mem_cons.mp mem with eq | later
          · exact .inl (by simp [eq])
          · exact .inr (List.mem_cons_of_mem _ later)
        · rcases List.mem_cons.mp mem with eq | later
          · exact .inr (by simp [eq])
          · exact (ih later).imp id (List.mem_cons_of_mem _)

theorem insertInto_sorted (name : String) (value : α) (entries : List (String × α))
    (sorted : entries.Pairwise (·.1 < ·.1)) : (insertInto name value entries).Pairwise (·.1 < ·.1) := by
  induction entries with
  | nil => simp [insertInto]
  | cons head rest ih =>
      obtain ⟨below, restSorted⟩ := List.pairwise_cons.mp sorted
      unfold insertInto
      split
      · rename_i before
        refine List.pairwise_cons.mpr ⟨?_, sorted⟩
        intro other mem
        rcases List.mem_cons.mp mem with eq | later
        · exact eq ▸ before
        · exact String.lt_trans before (below other later)
      · split
        · rename_i same
          refine List.pairwise_cons.mpr ⟨?_, restSorted⟩
          intro other mem
          exact same ▸ below other mem
        · rename_i notBefore different
          refine List.pairwise_cons.mpr ⟨?_, ih restSorted⟩
          intro other mem
          rcases mem_insertInto_name name value rest other mem with eq | later
          · have atMost : head.1 ≤ name := notBefore
            rcases Decidable.em (head.1 < name) with lt | notLt
            · exact eq ▸ lt
            · exact absurd (String.le_antisymm notLt atMost) different
          · exact below other later

def empty : SortedTable α := ⟨[], List.Pairwise.nil⟩

instance : Inhabited (SortedTable α) := ⟨empty⟩
instance : EmptyCollection (SortedTable α) := ⟨empty⟩

def insert (t : SortedTable α) (name : String) (value : α) : SortedTable α :=
  ⟨insertInto name value t.entries, insertInto_sorted name value t.entries t.sorted⟩

def insertAll (t : SortedTable α) (entries : List (String × α)) : SortedTable α :=
  entries.foldl (fun table entry => table.insert entry.1 entry.2) t

def ofList (entries : List (String × α)) : SortedTable α := empty.insertAll entries

def get? (t : SortedTable α) (name : String) : Option α :=
  (t.entries.find? (·.1 = name)).map Prod.snd

def contains (t : SortedTable α) (name : String) : Bool := t.entries.any (·.1 = name)

def filterNames (t : SortedTable α) (keep : String → Bool) : SortedTable α :=
  ⟨t.entries.filter (fun entry => keep entry.1), t.sorted.filter _⟩

end SortedTable
end ApiModels
