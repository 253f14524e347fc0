import ApiModels.Handlers.Mapping
import ApiModels.Proofs.Model.Layouts

namespace ApiModels

section Repetitions
variable {α β : Type} (f : α → β) (times : α → Nat)

theorem length_filter_le_flatMap (as : List α) :
    (as.filter (0 < times ·)).length ≤ (as.flatMap fun a => List.replicate (times a) (f a)).length := by
  induction as with
  | nil => exact Nat.le_refl _
  | cons a rest ih =>
      rw [List.filter_cons, List.flatMap_cons, List.length_append, List.length_replicate]
      split
      · rename_i some
        have once : 0 < times a := by simpa using some
        rw [List.length_cons]
        omega
      · omega

theorem flatMap_replicate_eq_iff (as : List α) : (as.flatMap fun a => List.replicate (times a) (f a)) =
    (as.filter (0 < times ·)).map f ↔ ∀ a ∈ as, times a ≤ 1 := by
  induction as with
  | nil => simp
  | cons a rest ih =>
      rw [List.forall_mem_cons, List.flatMap_cons, List.filter_cons, ← ih]
      have bound := length_filter_le_flatMap f times rest
      constructor
      · intro same
        have lengths := congrArg List.length same
        have once : times a ≤ 1 := by
          by_cases some : 0 < times a
          · simp only [some, decide_true, if_true, List.length_append, List.length_replicate, List.length_map,
              List.length_cons] at lengths
            omega
          · omega
        refine ⟨once, ?_⟩
        rcases Nat.le_one_iff_eq_zero_or_eq_one.mp once with never | single
        · simpa [never] using same
        · simpa [single] using same
      · intro ⟨once, same⟩
        rcases Nat.le_one_iff_eq_zero_or_eq_one.mp once with never | single
        · simpa [never] using same
        · simpa [single] using same

end Repetitions

section Mentions

def mentions (mapped : List MappedOperation) : List (MappedOperation × String) :=
  mapped.flatMap fun m => m.tags.map fun tag => (m, tag)

theorem mentions_tags (mapped : List MappedOperation) : (mentions mapped).map Prod.snd = mapped.flatMap (·.tags) := by
  simp [mentions, List.map_flatMap, Function.comp_def]

theorem mentions_filter (mapped : List MappedOperation) (tag : String) : ((mentions mapped).filter (·.2 = tag)).map Prod.fst =
    mapped.flatMap fun m => List.replicate (m.tags.count tag) m := by
  rw [mentions, List.filter_flatMap, List.map_flatMap]
  refine List.flatMap_congr fun m _ => ?_
  have same : (fun mention : MappedOperation × String => decide (mention.2 = tag)) ∘ (fun tag => (m, tag)) =
      fun other => decide (other = tag) := rfl
  rw [List.filter_map, same, List.filter_eq, List.map_replicate, List.map_replicate]

end Mentions

namespace HandlerGroup
variable {rules : NamingRules} {m : MappedOperation} {tag : String} {tags : List String}
  {listed : List (MappedOperation × String)}

section Accepting
variable (ms : List MappedOperation)

theorem foldl_accept (group : HandlerGroup) : ms.foldl accept group =
    { group with
      imports := ms.foldl (fun imports m => imports.union m.imports) group.imports
      operations := group.operations ++ ms.map fun m => { m with tag := group.tag } } := by
  induction ms generalizing group with
  | nil => simp
  | cons m ms ih =>
      rw [List.foldl_cons, ih]
      simp [accept]

theorem mem_foldl_union (imports : NameSet) (name : String) :
    name ∈ ms.foldl (fun imports m => imports.union m.imports) imports ↔
      name ∈ imports ∨ ∃ m ∈ ms, name ∈ m.imports := by
  induction ms generalizing imports with
  | nil => simp
  | cons m ms ih =>
      rw [List.foldl_cons, ih, NameSet.mem_union]
      simp [or_assoc, or_comm]

end Accepting

def filled (rules : NamingRules) (listed : List (MappedOperation × String)) (tag : String) : HandlerGroup :=
  ((listed.filter (·.2 = tag)).map Prod.fst).foldl accept (empty rules tag)

theorem filled_tag (rules : NamingRules) (listed : List (MappedOperation × String)) (tag : String) :
    (filled rules listed tag).tag = tag := by
  rw [filled, foldl_accept]
  rfl

theorem filled_concat (rules : NamingRules) (listed : List (MappedOperation × String)) (m : MappedOperation)
    (mentioned tag : String) : filled rules (listed ++ [(m, mentioned)]) tag =
      if mentioned = tag then (filled rules listed tag).accept m else filled rules listed tag := by
  rw [filled, List.filter_append]
  split
  · rename_i same
    simp [filled, same]
  · rename_i differs
    simp [filled, differs]

theorem filled_fresh (fresh : tag ∉ listed.map Prod.snd) : filled rules listed tag = empty rules tag := by
  have none : listed.filter (·.2 = tag) = [] := by
    rw [List.filter_eq_nil_iff]
    intro mention among same
    exact fresh (List.mem_map.mpr ⟨mention, among, by simpa using same⟩)
  rw [filled, none]
  rfl

theorem map_filled_concat (m : MappedOperation) (absent : tag ∉ tags) :
    tags.map (filled rules (listed ++ [(m, tag)])) = tags.map (filled rules listed) := by
  refine List.map_congr_left fun other among => ?_
  have differs : tag ≠ other := by
    rintro rfl
    exact absent among
  rw [filled_concat, if_neg differs]

theorem place_filled (m : MappedOperation) (distinct : tags.Nodup) (known : tag ∈ listed.map Prod.snd → tag ∈ tags) :
    place rules m tag (tags.map (filled rules listed)) =
      (Model.link tags tag).map (filled rules (listed ++ [(m, tag)])) := by
  induction tags with
  | nil =>
      have fresh : tag ∉ listed.map Prod.snd := fun met => List.not_mem_nil (known met)
      simp [place, Model.link, filled_concat, filled_fresh fresh]
  | cons head rest ih =>
      obtain ⟨apart, distinct⟩ := List.nodup_cons.mp distinct
      rw [List.map_cons, place, filled_tag]
      by_cases here : head = tag
      · subst here
        simp [Model.link, filled_concat, map_filled_concat m apart]
      · have later : tag ∈ listed.map Prod.snd → tag ∈ rest := fun met =>
          (List.mem_cons.mp (known met)).resolve_left (Ne.symm here)
        have linked : Model.link (head :: rest) tag = head :: Model.link rest tag := by
          by_cases among : tag ∈ rest <;> simp [Model.link, among, Ne.symm here]
        rw [if_neg here, ih distinct later, linked, List.map_cons, filled_concat, if_neg (Ne.symm here)]

theorem foldl_place (rules : NamingRules) (listed : List (MappedOperation × String)) :
    listed.foldl (fun groups mention => place rules mention.1 mention.2 groups) [] =
      (listed.map Prod.snd).eraseDups.map (filled rules listed) := by
  induction listed using List.reverseRecOn with
  | nil => rfl
  | append_singleton listed mention ih =>
      rw [List.foldl_append, ih, List.foldl_cons, List.foldl_nil, List.map_append, List.map_singleton,
        Model.eraseDups_concat]
      exact place_filled mention.1 Model.nodup_eraseDups List.mem_eraseDups.mpr

theorem foldl_placeAll (rules : NamingRules) (mapped : List MappedOperation) : mapped.foldl (placeAll rules) [] =
    (mapped.flatMap (·.tags)).eraseDups.map (filled rules (mentions mapped)) := by
  rw [← mentions_tags, ← foldl_place, mentions, List.foldl_flatMap]
  refine congrArg (fun f => mapped.foldl f []) (funext fun groups => funext fun m => ?_)
  rw [List.foldl_map]
  rfl

end HandlerGroup

section Grouping
variable {rules : NamingRules} {mapped : List MappedOperation} {groups : List HandlerGroup}

-- Groups that neither lose an operation nor make one up: one for each tag, with every mention of it.
structure Grouped (rules : NamingRules) (mapped : List MappedOperation) (groups : List HandlerGroup) : Prop where
  tags : groups.map (·.tag) = (mapped.flatMap (·.tags)).eraseDups
  distinct : (groups.map (·.tag)).Nodup
  named : ∀ group ∈ groups,
    group.apiName = rules.apiName group.tag ∧ group.artifacts = Artifacts.ofTag rules group.tag
  operations : ∀ group ∈ groups, group.operations =
    mapped.flatMap fun m => List.replicate (m.tags.count group.tag) { m with tag := group.tag }
  placed : ∀ m ∈ mapped, ∃ group ∈ groups, { m with tag := group.tag } ∈ group.operations
  imports : ∀ group ∈ groups, ∀ name, name ∈ group.imports ↔ ∃ m ∈ group.operations, name ∈ m.imports

-- Every group has each operation that mentions its tag a single time.
def Once (mapped : List MappedOperation) (groups : List HandlerGroup) : Prop :=
  ∀ group ∈ groups, group.operations =
    (mapped.filter (group.tag ∈ ·.tags)).map fun m => { m with tag := group.tag }

theorem HandlerGroup.filled_operations (rules : NamingRules) (mapped : List MappedOperation) (tag : String) :
    (filled rules (mentions mapped) tag).operations =
      mapped.flatMap fun m => List.replicate (m.tags.count tag) { m with tag := tag } := by
  rw [filled, foldl_accept, mentions_filter, List.map_flatMap]
  simp only [List.map_replicate]
  rfl

theorem HandlerGroup.mem_filled_imports (rules : NamingRules) (mapped : List MappedOperation) (tag name : String) :
    name ∈ (filled rules (mentions mapped) tag).imports ↔
      ∃ m ∈ (filled rules (mentions mapped) tag).operations, name ∈ m.imports := by
  have none : name ∉ (empty rules tag).imports := List.not_mem_nil
  rw [filled, foldl_accept, mem_foldl_union, or_iff_right none]
  simp [empty]

theorem grouped_placeAll (rules : NamingRules) (tagged : ∀ m ∈ mapped, m.tags ≠ []) :
    Grouped rules mapped (mapped.foldl (HandlerGroup.placeAll rules) []) := by
  rw [HandlerGroup.foldl_placeAll]
  have tags : ((mapped.flatMap (·.tags)).eraseDups.map (HandlerGroup.filled rules (mentions mapped))).map (·.tag) =
      (mapped.flatMap (·.tags)).eraseDups := by
    simp [List.map_map, Function.comp_def, HandlerGroup.filled_tag]
  refine ⟨tags, ?_, ?_, ?_, ?_, ?_⟩
  · rw [tags]
    exact Model.nodup_eraseDups
  · intro group among
    obtain ⟨tag, -, rfl⟩ := List.mem_map.mp among
    rw [HandlerGroup.filled, HandlerGroup.foldl_accept]
    exact ⟨rfl, rfl⟩
  · intro group among
    obtain ⟨tag, -, rfl⟩ := List.mem_map.mp among
    rw [HandlerGroup.filled_tag]
    exact HandlerGroup.filled_operations rules mapped tag
  · intro m among
    obtain ⟨tag, mentioned⟩ := List.exists_mem_of_ne_nil m.tags (tagged m among)
    refine ⟨HandlerGroup.filled rules (mentions mapped) tag, List.mem_map_of_mem ?_, ?_⟩
    · exact List.mem_eraseDups.mpr (List.mem_flatMap.mpr ⟨m, among, mentioned⟩)
    · rw [HandlerGroup.filled_tag, HandlerGroup.filled_operations]
      refine List.mem_flatMap.mpr ⟨m, among, List.mem_replicate.mpr ⟨?_, rfl⟩⟩
      exact Nat.ne_of_gt (List.count_pos_iff.mpr mentioned)
  · intro group among
    obtain ⟨tag, -, rfl⟩ := List.mem_map.mp among
    exact HandlerGroup.mem_filled_imports rules mapped tag

theorem Once.length_le (once : Once mapped groups) : ∀ group ∈ groups, group.operations.length ≤ mapped.length := by
  intro group among
  rw [once group among, List.length_map]
  exact List.length_filter_le _ _

theorem Grouped.once_iff (grouped : Grouped rules mapped groups) :
    Once mapped groups ↔ ∀ m ∈ mapped, m.tags.Nodup := by
  have single : ∀ group ∈ groups, (group.operations =
      (mapped.filter (group.tag ∈ ·.tags)).map fun m => { m with tag := group.tag }) ↔
        ∀ m ∈ mapped, m.tags.count group.tag ≤ 1 := by
    intro group among
    rw [grouped.operations group among, ← flatMap_replicate_eq_iff (fun m => { m with tag := group.tag })]
    simp only [List.count_pos_iff]
  constructor
  · intro once m among
    rw [List.nodup_iff_count_le_one]
    intro tag
    by_cases mentioned : tag ∈ m.tags
    · have listed : tag ∈ groups.map (·.tag) := by
        rw [grouped.tags, List.mem_eraseDups]
        exact List.mem_flatMap.mpr ⟨m, among, mentioned⟩
      obtain ⟨group, present, rfl⟩ := List.mem_map.mp listed
      exact (single group present).mp (once group present) m among
    · rw [List.count_eq_zero.mpr mentioned]
      exact Nat.zero_le 1
  · intro nodup group present
    exact (single group present).mpr fun m among => List.nodup_iff_count_le_one.mp (nodup m among) group.tag

end Grouping

namespace MappedOperation

theorem ofOperation_tags (settings : GeneratorSettings) (o : Operation) :
    (ofOperation settings o).tags = if o.tags.isEmpty then [defaultTag] else o.tags := rfl

theorem ofOperation_tagged (settings : GeneratorSettings) (o : Operation) : (ofOperation settings o).tags ≠ [] := by
  rw [ofOperation_tags]
  split
  · exact List.cons_ne_nil _ _
  · rename_i some
    simpa using some

theorem ofOperation_nodup (settings : GeneratorSettings) (o : Operation) :
    (ofOperation settings o).tags.Nodup ↔ o.tags.Nodup := by
  rw [ofOperation_tags]
  split
  · rename_i none
    simp [List.isEmpty_iff.mp none]
  · exact Iff.rfl

end MappedOperation

theorem grouped_mapOperations (settings : GeneratorSettings) (operations : List Operation) (rules : NamingRules) :
    Grouped rules (mapOperations settings operations rules).1 (mapOperations settings operations rules).2 :=
  grouped_placeAll rules fun m among => by
    obtain ⟨o, -, rfl⟩ := List.mem_map.mp among
    exact MappedOperation.ofOperation_tagged settings o

-- Operations are mapped one to one and grouped by every mention of a tag. That puts each into a group once exactly
-- where no operation lists a tag twice.
theorem operations_grouped (settings : GeneratorSettings) (operations : List Operation) (rules : NamingRules) :
    let (mapped, groups) := mapOperations settings operations rules
    mapped = operations.map (MappedOperation.ofOperation settings) ∧ Grouped rules mapped groups ∧
      (Once mapped groups ↔ ∀ o ∈ operations, o.tags.Nodup) := by
  have grouped := grouped_mapOperations settings operations rules
  refine ⟨rfl, grouped, grouped.once_iff.trans ?_⟩
  simp [mapOperations, MappedOperation.ofOperation_nodup]

def twiceTagged : Operation := { path := "/pets", method := "GET", tags := ["pets", "pets"] }

-- An operation that lists its tag twice stands in the group twice.
theorem not_once_tagged :
    let (mapped, groups) := mapOperations GeneratorSettings.defaults [twiceTagged]
    groups.map (fun group => (group.tag, group.operations.length)) = [("pets", 2)] ∧ ¬ Once mapped groups := by
  refine ⟨rfl, fun once => ?_⟩
  have bound : 2 ≤ 1 := once.length_le _ List.mem_cons_self
  exact absurd bound (by decide)

end ApiModels
