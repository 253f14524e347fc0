import Mathlib.Data.List.Induction
import ApiModels.Proofs.Model.Twins

namespace ApiModels

section Latest
variable {α β : Type} {key : α → String} {name : String}

-- Each key once, in the place of its first element and with its last one.
def latest (key : α → String) (list : List α) : List α :=
  (list.map key).eraseDups.filterMap fun name => list.reverse.find? (key · = name)

theorem find?_reverse_of_mem {list : List α} (listed : name ∈ list.map key) :
    ∃ a, list.reverse.find? (key · = name) = some a ∧ key a = name := by
  obtain ⟨a, among, same⟩ := List.mem_map.mp listed
  have found : (list.reverse.find? (key · = name)).isSome := by
    rw [List.find?_isSome]
    exact ⟨a, List.mem_reverse.mpr among, by simpa using same⟩
  obtain ⟨last, here⟩ := Option.isSome_iff_exists.mp found
  exact ⟨last, here, by simpa using List.find?_some here⟩

theorem filterMap_keys {names : List String} {pick : String → Option α}
    (picks : ∀ name ∈ names, ∃ a, pick name = some a ∧ key a = name) : (names.filterMap pick).map key = names := by
  induction names with
  | nil => rfl
  | cons head rest ih =>
      obtain ⟨a, picked, same⟩ := picks head List.mem_cons_self
      rw [List.filterMap_cons_some picked, List.map_cons, same,
        ih fun name later => picks name (List.mem_cons_of_mem _ later)]

theorem find?_filterMap (key : α → String) {names : List String} {pick : String → Option α}
    (picks : ∀ name ∈ names, ∃ a, pick name = some a ∧ key a = name) (name : String) :
    (names.filterMap pick).find? (key · = name) = if name ∈ names then pick name else none := by
  induction names with
  | nil => rfl
  | cons head rest ih =>
      obtain ⟨a, picked, same⟩ := picks head List.mem_cons_self
      rw [List.filterMap_cons_some picked, List.find?_cons, ih fun name later => picks name (List.mem_cons_of_mem _ later)]
      by_cases here : head = name
      · subst here
        simp [same, picked]
      · simp [same, here, Ne.symm here]

theorem latest_keys (list : List α) : (latest key list).map key = (list.map key).eraseDups :=
  filterMap_keys fun _ listed => find?_reverse_of_mem (List.mem_eraseDups.mp listed)

theorem find?_latest (list : List α) (name : String) :
    (latest key list).find? (key · = name) = list.reverse.find? (key · = name) := by
  rw [latest, find?_filterMap key fun _ listed => find?_reverse_of_mem (List.mem_eraseDups.mp listed)]
  split
  · rfl
  · rename_i unlisted
    refine (List.find?_eq_none.mpr fun a among same => unlisted ?_).symm
    exact List.mem_eraseDups.mpr (List.mem_map.mpr ⟨a, List.mem_reverse.mp among, by simpa using same⟩)

variable {R : α → β → Prop} {key' : β → String} {one : List α} {two : List β}

theorem rel_find? (keys : ∀ a b, R a b → key a = key' b) (related : List.Forall₂ R one two) (name : String) :
    Option.Rel R (one.find? (key · = name)) (two.find? (key' · = name)) := by
  induction related with
  | nil => exact .none
  | cons first _ ih =>
      rw [List.find?_cons, List.find?_cons, keys _ _ first]
      split
      · exact .some first
      · exact ih

theorem rel_filterMap {names : List String} {pick : String → Option α} {pick' : String → Option β}
    (related : ∀ name, Option.Rel R (pick name) (pick' name)) :
    List.Forall₂ R (names.filterMap pick) (names.filterMap pick') := by
  induction names with
  | nil => exact .nil
  | cons head rest ih =>
      have first := related head
      rw [List.filterMap_cons, List.filterMap_cons]
      generalize pick head = a at first ⊢
      generalize pick' head = b at first ⊢
      cases first with
      | none => exact ih
      | some first => exact .cons first ih

theorem rel_latest (keys : ∀ a b, R a b → key a = key' b) (related : List.Forall₂ R one two) :
    List.Forall₂ R (latest key one) (latest key' two) := by
  have names : one.map key = two.map key' := by
    induction related with
    | nil => rfl
    | cons first _ ih => rw [List.map_cons, List.map_cons, keys _ _ first, ih]
  unfold latest
  rw [names]
  exact rel_filterMap fun name => rel_find? keys (List.rel_reverse related) name

end Latest

namespace Model
variable {p : Property} {ps qs inherited : List Property}

theorem ext_named (names : ps.map (·.baseName) = qs.map (·.baseName)) (distinct : (ps.map (·.baseName)).Nodup)
    (same : ∀ n, named n ps = named n qs) : ps = qs := by
  induction ps generalizing qs with
  | nil => exact (List.map_eq_nil_iff.mp names.symm).symm
  | cons p ps ih =>
      obtain ⟨q, rest, rfl, first, later⟩ := List.map_eq_cons_iff.mp names.symm
      obtain ⟨fresh, distinct⟩ := List.nodup_cons.mp distinct
      have here := same p.baseName
      rw [named_cons, named_cons, if_pos rfl, if_pos first] at here
      cases here
      refine congrArg _ (ih later.symm distinct fun n => ?_)
      have there := same n
      rw [named_cons, named_cons] at there
      by_cases apart : p.baseName = n
      · subst apart
        have unlisted : named p.baseName ps = none := by
          rw [← Option.not_isSome_iff_eq_none, named_isSome]
          exact fresh
        have missing : named p.baseName rest = none := by
          rw [← Option.not_isSome_iff_eq_none, named_isSome, later]
          exact fresh
        rw [unlisted, missing]
      · rwa [if_neg apart, if_neg apart] at there

theorem names_upsert (p : Property) (ps : List Property) :
    (upsert p ps).map (·.baseName) = link (ps.map (·.baseName)) p.baseName := by
  induction ps with
  | nil => rfl
  | cons head rest ih =>
      unfold upsert link
      by_cases here : head.baseName = p.baseName
      · simp [here]
      · rw [if_neg here, List.map_cons, ih, link]
        by_cases later : p.baseName ∈ rest.map (·.baseName)
        · simp [later]
        · rw [if_neg later, if_neg (by simpa [Ne.symm here] using later)]
          rfl

theorem names_foldl_upsert (ps known : List Property) :
    (ps.foldl (fun known p => upsert p known) known).map (·.baseName) =
      (ps.map (·.baseName)).foldl link (known.map (·.baseName)) := by
  induction ps generalizing known with
  | nil => rfl
  | cons head rest ih => rw [List.foldl_cons, ih, names_upsert, List.map_cons, List.foldl_cons]

theorem eraseDups_concat (names : List String) (name : String) :
    (names ++ [name]).eraseDups = link names.eraseDups name := by
  rw [List.eraseDups_append, link]
  by_cases listed : name ∈ names
  · simp [listed, List.removeAll]
  · simp [listed, List.removeAll, List.eraseDups_cons]

theorem nodup_eraseDups {names : List String} : names.eraseDups.Nodup := by
  induction names using List.reverseRecOn with
  | nil => exact List.nodup_nil
  | append_singleton names name ih =>
      rw [eraseDups_concat, link]
      split
      · exact ih
      · rename_i fresh
        exact nodup_link ih fresh

theorem foldl_link (names known : List String) :
    names.foldl link known = known ++ names.eraseDups.filter (· ∉ known) := by
  induction names using List.reverseRecOn with
  | nil => simp
  | append_singleton names name ih =>
      rw [List.foldl_append, ih, eraseDups_concat]
      by_cases listed : name ∈ names <;> by_cases met : name ∈ known <;> simp [link, listed, met]

theorem names_dedupe (ps : List Property) : (dedupe ps).map (·.baseName) = (ps.map (·.baseName)).eraseDups := by
  rw [dedupe, names_foldl_upsert, foldl_link]
  simp

theorem foldl_upsert_nodup (ps : List Property) {known : List Property} (distinct : (known.map (·.baseName)).Nodup) :
    ((ps.foldl (fun known p => upsert p known) known).map (·.baseName)).Nodup := by
  induction ps generalizing known with
  | nil => exact distinct
  | cons head rest ih => exact ih (upsert_nodup distinct)

theorem named_dedupe (ps : List Property) (n : String) : named n (dedupe ps) = named n ps.reverse := by
  rw [dedupe, named_foldl_upsert]
  exact Option.or_none

theorem dedupe_eq_latest (ps : List Property) : dedupe ps = latest (·.baseName) ps := by
  refine ext_named ?_ (foldl_upsert_nodup ps List.nodup_nil) fun n => ?_
  · rw [names_dedupe, latest_keys]
  · rw [named_dedupe]
    exact (find?_latest ps n).symm

-- What is inherited, with the own property in the place of each that is defined anew, and then the other own ones.
def overlay (inherited own : List Property) : List Property :=
  inherited.map (fun p => (named p.baseName own).getD p) ++ own.filter fun p => (named p.baseName inherited).isNone

theorem named_append (ps qs : List Property) (n : String) : named n (ps ++ qs) = (named n ps).or (named n qs) :=
  List.find?_append

theorem named_baseName {n : String} (found : named n ps = some p) : p.baseName = n := by
  simpa using List.find?_some found

theorem getD_named_baseName (own : List Property) (p : Property) :
    ((named p.baseName own).getD p).baseName = p.baseName := by
  cases found : named p.baseName own with
  | none => rfl
  | some q => exact named_baseName found

theorem names_overlay (inherited own : List Property) : (overlay inherited own).map (·.baseName) =
    inherited.map (·.baseName) ++ (own.map (·.baseName)).filter (· ∉ inherited.map (·.baseName)) := by
  rw [overlay, List.map_append, List.map_map, List.filter_map]
  congr 1
  · exact List.map_congr_left fun p _ => getD_named_baseName own p
  · refine congrArg _ (List.filter_congr fun p _ => ?_)
    rw [Bool.eq_iff_iff, Option.isNone_iff_eq_none, ← Option.not_isSome_iff_eq_none, named_isSome]
    simp

theorem named_overlay (inherited own : List Property) (n : String) :
    named n (overlay inherited own) = (named n own).or (named n inherited) := by
  have replaced : named n (inherited.map fun p => (named p.baseName own).getD p) =
      (named n inherited).map fun p => (named p.baseName own).getD p := by
    unfold named
    rw [List.find?_map]
    congr 2
    funext p
    exact congrArg (fun name => decide (name = n)) (getD_named_baseName own p)
  rw [overlay, named_append, replaced, named_filter fun name => (named name inherited).isNone]
  cases found : named n inherited with
  | none => simp
  | some p => cases held : named n own <;> simp [named_baseName found, held]

theorem foldl_upsert_overlay (distinct : (inherited.map (·.baseName)).Nodup) (ps : List Property) :
    ps.foldl (fun known p => upsert p known) inherited = overlay inherited (dedupe ps) := by
  refine ext_named ?_ (foldl_upsert_nodup ps distinct) fun n => ?_
  · rw [names_foldl_upsert, foldl_link, names_overlay, names_dedupe]
  · rw [named_foldl_upsert, named_overlay, named_dedupe]

theorem map_mark_map_mark (required before : NameSet) (ps : List Property) :
    (ps.map (mark before)).map (mark required) = ps.map (mark required) := by
  rw [List.map_map]
  rfl

theorem map_mark_upsert (required : NameSet) (p : Property) (ps : List Property) :
    (upsert p ps).map (mark required) = upsert (mark required p) (ps.map (mark required)) := by
  induction ps with
  | nil => rfl
  | cons head rest ih =>
      unfold upsert
      rw [List.map_cons]
      change _ = if head.baseName = p.baseName then _ else _
      split
      · rfl
      · rw [List.map_cons, ih]

theorem map_mark_foldl_upsert (required : NameSet) (ps known : List Property) :
    (ps.foldl (fun known p => upsert p known) known).map (mark required) =
      (ps.map (mark required)).foldl (fun known p => upsert p known) (known.map (mark required)) := by
  induction ps generalizing known with
  | nil => rfl
  | cons head rest ih => rw [List.foldl_cons, ih, map_mark_upsert, List.map_cons, List.foldl_cons]

end Model
end ApiModels
