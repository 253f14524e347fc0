namespace ApiModels

namespace Entries

def find? {α : Type} (name : String) : List (String × α) → Option α
  | [] => none
  | (key, value) :: rest => if key = name then some value else find? name rest

def put {α : Type} (name : String) (value : α) : List (String × α) → List (String × α)
  | [] => [(name, value)]
  | (key, old) :: rest => if key = name then (key, value) :: rest else (key, old) :: put name value rest

def erase {α : Type} (name : String) (entries : List (String × α)) : List (String × α) :=
  entries.filter (·.1 ≠ name)

def position? {α : Type} (name : String) : List (String × α) → Option Nat
  | [] => none
  | (key, _) :: rest => if key = name then some 0 else (position? name rest).map (· + 1)

theorem put_names_of_mem {α : Type} (name : String) (value : α) (entries : List (String × α))
    (listed : name ∈ entries.map Prod.fst) : (put name value entries).map Prod.fst = entries.map Prod.fst := by
  induction entries with
  | nil => simp at listed
  | cons head rest ih =>
      by_cases same : head.1 = name
      · simp [put, same]
      · have later : name ∈ rest.map Prod.fst := by
          simpa [Ne.symm same] using listed
        simp [put, same, ih later]

theorem put_names_of_not_mem {α : Type} (name : String) (value : α) (entries : List (String × α))
    (fresh : name ∉ entries.map Prod.fst) :
    (put name value entries).map Prod.fst = entries.map Prod.fst ++ [name] := by
  induction entries with
  | nil => simp [put]
  | cons head rest ih =>
      have same : ¬ head.1 = name := fun eq => fresh (by simp [eq])
      have later : name ∉ rest.map Prod.fst := fun mem => fresh (by simp_all)
      simp [put, same, ih later]

theorem put_nodup {α : Type} (name : String) (value : α) (entries : List (String × α))
    (distinct : (entries.map Prod.fst).Nodup) : ((put name value entries).map Prod.fst).Nodup := by
  by_cases listed : name ∈ entries.map Prod.fst
  · rw [put_names_of_mem name value entries listed]
    exact distinct
  · rw [put_names_of_not_mem name value entries listed]
    exact List.nodup_append.mpr ⟨distinct, by simp, by
      intro a mem b last eq
      have eqName : b = name := by simpa using last
      exact listed (eqName ▸ eq ▸ mem)⟩

theorem find?_put {α : Type} (name other : String) (value : α) (entries : List (String × α)) :
    find? other (put name value entries) = if name = other then some value else find? other entries := by
  induction entries with
  | nil => simp [put, find?]
  | cons head rest ih =>
      obtain ⟨key, old⟩ := head
      by_cases same : key = name
      · by_cases wanted : name = other <;> simp [put, find?, same, wanted]
      · by_cases wanted : key = other
        · have apart : ¬ name = other := fun eq => same (wanted.trans eq.symm)
          simp [put, find?, wanted, apart, show ¬ other = name from fun eq => apart eq.symm]
        · simp [put, find?, same, wanted, ih]

theorem find?_isSome {α : Type} (name : String) (entries : List (String × α)) :
    (find? name entries).isSome ↔ name ∈ entries.map Prod.fst := by
  induction entries with
  | nil => simp [find?]
  | cons head rest ih =>
      by_cases same : head.1 = name
      · simp [find?, same]
      · simp [find?, same, ih, Ne.symm same]

theorem mem_of_find? {α : Type} {name : String} {value : α} {entries : List (String × α)}
    (found : find? name entries = some value) : (name, value) ∈ entries := by
  induction entries with
  | nil => cases found
  | cons head rest ih =>
      obtain ⟨key, first⟩ := head
      by_cases same : key = name
      · simp_all [find?]
      · exact List.mem_cons_of_mem _ (ih (by simpa [find?, same] using found))

theorem find?_of_mem {α : Type} {name : String} {value : α} {entries : List (String × α)}
    (distinct : (entries.map Prod.fst).Nodup) (listed : (name, value) ∈ entries) :
    find? name entries = some value := by
  induction entries with
  | nil => cases listed
  | cons head rest ih =>
      obtain ⟨key, first⟩ := head
      obtain ⟨fresh, distinct⟩ := List.nodup_cons.mp distinct
      rcases List.mem_cons.mp listed with same | later
      · cases same
        simp [find?]
      · have apart : ¬ key = name := fun eq => fresh (eq ▸ List.mem_map.mpr ⟨(name, value), later, rfl⟩)
        simpa [find?, apart] using ih distinct later

theorem find?_erase {α : Type} (name other : String) (entries : List (String × α)) :
    find? other (erase name entries) = if name = other then none else find? other entries := by
  induction entries with
  | nil => simp [erase, find?]
  | cons head rest ih =>
      obtain ⟨key, value⟩ := head
      by_cases dropped : key = name
      · have step : erase name ((key, value) :: rest) = erase name rest := by simp [erase, dropped]
        rw [step, ih]
        by_cases wanted : name = other <;> simp [find?, dropped, wanted]
      · have step : erase name ((key, value) :: rest) = (key, value) :: erase name rest := by
          simp [erase, dropped]
        rw [step, find?, ih]
        by_cases wanted : key = other
        · have apart : ¬ name = other := fun eq => dropped (wanted.trans eq.symm)
          simp [find?, wanted, apart]
        · simp [find?, wanted]

theorem put_put {α : Type} (name : String) (first second : α) (entries : List (String × α)) :
    put name second (put name first entries) = put name second entries := by
  induction entries with
  | nil => simp [put]
  | cons head rest ih =>
      by_cases same : head.1 = name <;> simp [put, same, ih]

end Entries

-- A table holds each name once; the proof travels with the entries.
structure Table (α : Type) where
  entries : List (String × α)
  distinct : (entries.map Prod.fst).Nodup

namespace Table
variable {α β : Type}

def empty : Table α := ⟨[], List.nodup_nil⟩

instance : Inhabited (Table α) := ⟨empty⟩
instance : EmptyCollection (Table α) := ⟨empty⟩

def names (t : Table α) : List String := t.entries.map Prod.fst

def values (t : Table α) : List α := t.entries.map Prod.snd

def get? (t : Table α) (name : String) : Option α := Entries.find? name t.entries

def contains (t : Table α) (name : String) : Bool := (t.get? name).isSome

def indexOf? (t : Table α) (name : String) : Option Nat := Entries.position? name t.entries

def size (t : Table α) : Nat := t.entries.length

def put (t : Table α) (name : String) (value : α) : Table α :=
  ⟨Entries.put name value t.entries, Entries.put_nodup name value t.entries t.distinct⟩

def erase (t : Table α) (name : String) : Table α :=
  ⟨Entries.erase name t.entries, (List.filter_sublist.map Prod.fst).nodup t.distinct⟩

def ofEntries (entries : List (String × α)) : Table α :=
  entries.foldl (fun table entry => table.put entry.1 entry.2) empty

def filterMap {β : Type} (t : Table α) (f : α → Option β) : Table β where
  entries := t.entries.filterMap fun (name, value) => (f value).map fun result => (name, result)
  distinct := by
    have sub : ((t.entries.filterMap fun (name, value) => (f value).map fun result => (name, result)).map
        Prod.fst).Sublist (t.entries.map Prod.fst) := by
      generalize t.entries = entries
      induction entries with
      | nil => simp
      | cons head rest ih =>
          cases result : f head.2 with
          | none => simpa [result] using ih.cons head.1
          | some value => simpa [result] using ih.cons_cons head.1
    exact sub.nodup t.distinct

theorem get?_put (t : Table α) (name other : String) (value : α) :
    (t.put name value).get? other = if name = other then some value else t.get? other :=
  Entries.find?_put name other value t.entries

theorem mem_entries_of_get? {t : Table α} {name : String} {value : α} (found : t.get? name = some value) :
    (name, value) ∈ t.entries :=
  Entries.mem_of_find? found

theorem mem_values_of_get? (t : Table α) {name : String} {value : α} (found : t.get? name = some value) :
    value ∈ t.values :=
  List.mem_map_of_mem (mem_entries_of_get? found)

theorem get?_eq_some {t : Table α} {name : String} {value : α} :
    t.get? name = some value ↔ (name, value) ∈ t.entries :=
  ⟨mem_entries_of_get?, Entries.find?_of_mem t.distinct⟩

theorem contains_iff (t : Table α) (name : String) : t.contains name ↔ name ∈ t.names :=
  Entries.find?_isSome name t.entries

theorem get?_eq_none {t : Table α} {name : String} : t.get? name = none ↔ name ∉ t.names := by
  rw [← contains_iff, contains]
  cases t.get? name <;> simp

theorem mem_names_of_get? {t : Table α} {name : String} {value : α} (found : t.get? name = some value) :
    name ∈ t.names :=
  (t.contains_iff name).mp (by simp [contains, found])

theorem get?_erase (t : Table α) (name other : String) :
    (t.erase name).get? other = if name = other then none else t.get? other :=
  Entries.find?_erase name other t.entries

theorem put_put (t : Table α) (name : String) (first second : α) :
    (t.put name first).put name second = t.put name second := by
  simp [put, Entries.put_put]

theorem mem_names_put {t : Table α} {name other : String} {value : α} :
    other ∈ (t.put name value).names ↔ other = name ∨ other ∈ t.names := by
  rw [← contains_iff, ← contains_iff, contains, contains, get?_put]
  by_cases same : name = other
  · simp [same]
  · simp [same, Ne.symm same]

theorem names_put (t : Table α) (name : String) (value : α) : t.names <+: (t.put name value).names := by
  by_cases listed : name ∈ t.names
  · have same : (t.put name value).names = t.names := Entries.put_names_of_mem name value t.entries listed
    exact ⟨[], by rw [same, List.append_nil]⟩
  · exact ⟨[name], (Entries.put_names_of_not_mem name value t.entries listed).symm⟩

theorem mem_names_erase {t : Table α} {name other : String} :
    other ∈ (t.erase name).names ↔ other ≠ name ∧ other ∈ t.names := by
  rw [← contains_iff, ← contains_iff, contains, contains, get?_erase]
  by_cases same : name = other
  · simp [same]
  · simp [same, Ne.symm same]

end Table
end ApiModels
