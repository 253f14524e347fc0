import ApiModels.Json.Decode
import ApiModels.Table.Sorted
import Mathlib.Data.List.Basic

namespace ApiModels

section Outcomes
variable {ε α β : Type}

theorem bind_eq_ok {first : Except ε α} {next : α → Except ε β} {b : β} :
    first >>= next = .ok b ↔ ∃ a, first = .ok a ∧ next a = .ok b := by
  cases first <;> simp [bind, Except.bind]

theorem map_eq_ok {first : Except ε α} {f : α → β} {b : β} :
    first.map f = .ok b ↔ ∃ a, first = .ok a ∧ f a = b := by
  cases first <;> simp [Except.map]

theorem mapError_eq_ok {δ : Type} {first : Except ε α} {f : ε → δ} {a : α} :
    first.mapError f = .ok a ↔ first = .ok a := by
  cases first <;> simp [Except.mapError]

theorem mapM_map_eq_ok {f : β → Except ε α} {g : α → β} {as : List α} (each : ∀ a ∈ as, f (g a) = .ok a) :
    (as.map g).mapM f = .ok as := by
  induction as with
  | nil => rfl
  | cons a rest ih =>
      obtain ⟨first, later⟩ := List.forall_mem_cons.mp each
      rw [List.map_cons, List.mapM_cons, first, ih later]
      rfl

theorem exists_of_mapM {f : α → Except ε β} {as : List α} {bs : List β} (each : as.mapM f = .ok bs) :
    ∀ b ∈ bs, ∃ a ∈ as, f a = .ok b := by
  induction as generalizing bs with
  | nil =>
      cases each
      exact fun _ listed => absurd listed List.not_mem_nil
  | cons a rest ih =>
      rw [List.mapM_cons] at each
      obtain ⟨b, first, each⟩ := bind_eq_ok.mp each
      obtain ⟨others, later, each⟩ := bind_eq_ok.mp each
      cases each
      refine List.forall_mem_cons.mpr ⟨⟨a, List.mem_cons_self, first⟩, fun other listed => ?_⟩
      obtain ⟨origin, among, read⟩ := ih later other listed
      exact ⟨origin, List.mem_cons_of_mem _ among, read⟩

end Outcomes

namespace Entries
variable {α : Type} {P : String × α → Prop}

theorem put_of_fresh {name : String} {value : α} {entries : List (String × α)}
    (fresh : name ∉ entries.map Prod.fst) : put name value entries = entries ++ [(name, value)] := by
  induction entries with
  | nil => rfl
  | cons head rest ih =>
      obtain ⟨apart, later⟩ := not_or.mp (List.mem_cons.not.mp fresh)
      simp [put, Ne.symm apart, ih later]

theorem fresh_of_nodup {front rest : List (String × α)} {head : String × α}
    (distinct : ((front ++ head :: rest).map Prod.fst).Nodup) : head.1 ∉ front.map Prod.fst := by
  rw [List.map_append, List.nodup_append] at distinct
  exact fun listed => distinct.2.2 _ listed _ (List.mem_map_of_mem List.mem_cons_self) rfl

theorem put_forall {name : String} {value : α} {entries : List (String × α)} (each : ∀ entry ∈ entries, P entry)
    (new : P (name, value)) : ∀ entry ∈ put name value entries, P entry := by
  induction entries with
  | nil => simpa [put] using new
  | cons head rest ih =>
      obtain ⟨first, later⟩ := List.forall_mem_cons.mp each
      unfold put
      split
      next same => exact List.forall_mem_cons.mpr ⟨same ▸ new, later⟩
      next => exact List.forall_mem_cons.mpr ⟨first, ih later⟩

end Entries

namespace Table
variable {α : Type} {P : String × α → Prop}

theorem foldl_put_forall {entries : List (String × α)} {t : Table α} (each : ∀ entry ∈ t.entries, P entry)
    (new : ∀ entry ∈ entries, P entry) :
    ∀ entry ∈ (entries.foldl (fun table entry => table.put entry.1 entry.2) t).entries, P entry := by
  induction entries generalizing t with
  | nil => exact each
  | cons head rest ih =>
      obtain ⟨first, later⟩ := List.forall_mem_cons.mp new
      exact ih (Entries.put_forall each first) later

theorem ofEntries_forall {entries : List (String × α)} (each : ∀ entry ∈ entries, P entry) :
    ∀ entry ∈ (ofEntries entries).entries, P entry :=
  foldl_put_forall (fun _ listed => absurd listed List.not_mem_nil) each

theorem foldl_put_fresh {entries : List (String × α)} {t : Table α}
    (distinct : ((t.entries ++ entries).map Prod.fst).Nodup) :
    (entries.foldl (fun table entry => table.put entry.1 entry.2) t).entries = t.entries ++ entries := by
  induction entries generalizing t with
  | nil => exact (List.append_nil _).symm
  | cons head rest ih =>
      have grown : (t.put head.1 head.2).entries = t.entries ++ [head] :=
        Entries.put_of_fresh (Entries.fresh_of_nodup distinct)
      have shifted : t.entries ++ head :: rest = (t.entries ++ [head]) ++ rest := List.append_cons ..
      rw [List.foldl_cons, ih (by rwa [grown, ← shifted]), grown, shifted]

theorem ofEntries_entries (t : Table α) : ofEntries t.entries = t := by
  have same : (ofEntries t.entries).entries = t.entries := foldl_put_fresh (t := empty) t.distinct
  cases t
  exact (mk.injEq ..).mpr same

end Table

namespace SortedTable
variable {α : Type}

theorem insertInto_last {name : String} {value : α} {entries : List (String × α)}
    (below : ∀ entry ∈ entries, entry.1 < name) : insertInto name value entries = entries ++ [(name, value)] := by
  induction entries with
  | nil => rfl
  | cons head rest ih =>
      obtain ⟨first, later⟩ := List.forall_mem_cons.mp below
      have notBefore : ¬ name < head.1 := String.lt_asymm first
      have apart : name ≠ head.1 := fun same => String.lt_irrefl _ (same ▸ first)
      rw [insertInto, if_neg notBefore, if_neg apart, ih later, List.cons_append]

theorem insertAll_last {entries : List (String × α)} {t : SortedTable α}
    (sorted : (t.entries ++ entries).Pairwise (·.1 < ·.1)) : (t.insertAll entries).entries = t.entries ++ entries := by
  induction entries generalizing t with
  | nil => exact (List.append_nil _).symm
  | cons head rest ih =>
      have below : ∀ entry ∈ t.entries, entry.1 < head.1 :=
        fun entry listed => (List.pairwise_append.mp sorted).2.2 entry listed head List.mem_cons_self
      have grown : (t.insert head.1 head.2).entries = t.entries ++ [head] := insertInto_last below
      have shifted : t.entries ++ head :: rest = (t.entries ++ [head]) ++ rest := List.append_cons ..
      have whole : ((t.insert head.1 head.2).insertAll rest).entries = _ := ih (by rwa [grown, ← shifted])
      rw [grown, ← shifted] at whole
      exact whole

theorem ofList_entries (t : SortedTable α) : ofList t.entries = t := by
  have same : (ofList t.entries).entries = t.entries := insertAll_last (t := empty) t.sorted
  cases t
  exact (mk.injEq ..).mpr same

end SortedTable

namespace Json.Decoder
variable {α : Type} {read : Decoder α} {write : α → Value}

theorem optional_of_ok {value : Value} {a : α} (present : value ≠ .null) (decoded : read value = .ok a) :
    optional read value = .ok (some a) := by
  rw [← show (read value).map some = .ok (some a) from map_eq_ok.mpr ⟨a, decoded, rfl⟩]
  cases value with
  | null => exact absurd rfl present
  | bool | number | string | array | object => rfl

theorem present_of_ne_null {value : Value} (given : value ≠ .null) : present value = .ok (some value) := by
  cases value with
  | null => exact absurd rfl given
  | bool | number | string | array | object => rfl

theorem ne_null_of_present {value : Value} {given : Option Value} (read : present value = .ok given) :
    given ≠ some .null := by
  cases value with
  | null | bool | number | string | array | object =>
      cases read
      nofun

theorem list_ok (items : List Value) : list .ok (.array items) = .ok items := by
  have whole : (items.map id).mapM .ok = (.ok items : Except DecodeError (List Value)) := mapM_map_eq_ok fun _ _ => rfl
  rwa [List.map_id] at whole

theorem strings_ofStrings (texts : List String) : strings (Value.ofStrings texts) = .ok texts :=
  mapM_map_eq_ok fun _ _ => rfl

theorem table_entries {t : Table α} (each : ∀ entry ∈ t.entries, read (write entry.2) = .ok entry.2) :
    table read (.object (t.entries.map fun (name, a) => (name, write a))) = .ok t := by
  have listed : entries read (.object (t.entries.map fun (name, a) => (name, write a))) = .ok t.entries :=
    mapM_map_eq_ok fun entry listed => map_eq_ok.mpr ⟨entry.2, each entry listed, rfl⟩
  exact map_eq_ok.mpr ⟨t.entries, listed, t.ofEntries_entries⟩

theorem exists_of_table {value : Value} {t : Table α} (decoded : table read value = .ok t) :
    ∀ entry ∈ t.entries, ∃ written, read written = .ok entry.2 := by
  obtain ⟨listed, each, rfl⟩ := map_eq_ok.mp decoded
  refine Table.ofEntries_forall fun entry mem => ?_
  cases value with
  | object fields =>
      obtain ⟨⟨_, written⟩, _, made⟩ := exists_of_mapM each entry mem
      obtain ⟨a, one, rfl⟩ := map_eq_ok.mp made
      exact ⟨written, one⟩
  | null | bool | number | string | array => cases each

end Json.Decoder
end ApiModels
