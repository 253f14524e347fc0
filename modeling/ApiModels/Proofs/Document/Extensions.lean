import ApiModels.Proofs.Document.Ancestry
import ApiModels.Proofs.Document.Mentions

namespace ApiModels

theorem Table.get?_filterMap {α β : Type} (t : Table α) (f : α → Option β) (name : String) :
    (t.filterMap f).get? name = (t.get? name).bind f := by
  ext value
  rw [Table.get?_eq_some, Option.bind_eq_some_iff]
  unfold Table.filterMap
  simp only [List.mem_filterMap, Option.map_eq_some_iff, Prod.mk.injEq]
  constructor
  · rintro ⟨⟨key, held⟩, listed, result, made, rfl, rfl⟩
    exact ⟨held, Table.get?_eq_some.mpr listed, made⟩
  · rintro ⟨held, found, made⟩
    exact ⟨(name, held), Table.get?_eq_some.mp found, value, made, rfl, rfl⟩

theorem Document.aliases_get? {document : Document} {mappings : TypeMappings} {name : String} {tag : TypeTag} :
    (document.aliases mappings).get? name = some tag ↔
      ∃ own, document.get? name = some own ∧ own.isAliasEligible ∧ document.aliasTag mappings own = tag := by
  rw [aliases, Table.get?_filterMap, Option.bind_eq_some_iff]
  simp [Document.get?]

theorem Unfolding.of_eq (document : Document) (mappings : TypeMappings) (met : List String) (s : Schema) :
    Unfolding.of document mappings met s =
      match s.refName? with
      | none =>
          match (s.inferTag mappings).container? with
          | none => .ok (.value s s)
          | some kind =>
              match s.content? kind with
              | none => .ok (.container s s kind (.value Schema.blank Schema.blank))
              | some inner => (Unfolding.of document mappings met inner).map (.container s s kind)
      | some name =>
          if name ∈ met then .ok (.model s s name)
          else match document.unalias s with
            | .error issue => .error issue
            | .ok target =>
                match target.refName? with
                | some other => .ok (.model s target other)
                | none =>
                    match (target.inferTag mappings).container? with
                    | none => .ok (.value s target)
                    | some kind =>
                        match target.content? kind with
                        | none => .ok (.container s target kind (.value Schema.blank Schema.blank))
                        | some inner => (Unfolding.of document mappings (met ++ [name]) inner).map (.container s target kind) := by
  fun_cases Unfolding.of document mappings met s <;> simp only [*, if_true, if_false]

namespace Document

-- Two documents that say the same of every name but the ones kept apart, and the first never refers to these.
structure Agrees (one two : Document) (apart : List String) : Prop where
  same : ∀ name, name ∉ apart → two.get? name = one.get? name
  clear : ∀ name s, one.get? name = some s → s.Clear apart

namespace Agrees
variable {one two : Document} {apart : List String} (agrees : one.Agrees two apart)
include agrees

theorem mem_names {name : String} (shared : name ∉ apart) : name ∈ two.names ↔ name ∈ one.names := by
  have known : two.contains name = one.contains name := congrArg Option.isSome (agrees.same name shared)
  change name ∈ two.schemas.names ↔ name ∈ one.schemas.names
  rw [← Table.contains_iff, ← Table.contains_iff]
  exact Bool.eq_iff_iff.mp known

theorem follow (chain : List String) {s : Schema} (clear : s.Clear apart) :
    Document.follow two.schemas chain s = Document.follow one.schemas chain s := by
  induction chain, s using follow.induct one.schemas with
  | case1 chain current refers => rw [follow_eq, follow_eq, refers]
  | case2 chain current name refers met => rw [follow_eq, follow_eq, refers]; simp [met]
  | case3 chain current name refers fresh absent =>
      have absent' : two.schemas.get? name = none := (agrees.same name (clear.refers refers)).trans absent
      rw [follow_eq, follow_eq]
      simp [refers, fresh, absent, absent']
  | case4 chain current name refers fresh next found structured =>
      have found' : two.schemas.get? name = some next := (agrees.same name (clear.refers refers)).trans found
      rw [follow_eq, follow_eq]
      simp [refers, fresh, found, found', structured]
  | case5 chain current name refers fresh next found bare ih =>
      have found' : two.schemas.get? name = some next := (agrees.same name (clear.refers refers)).trans found
      have later := ih (agrees.clear name next found)
      rw [follow_eq, follow_eq _ chain]
      simp [refers, fresh, found, found', bare, later]

theorem unalias {s : Schema} (clear : s.Clear apart) : two.unalias s = one.unalias s := agrees.follow [] clear

theorem unalias_clear {s target : Schema} (clear : s.Clear apart) (led : one.unalias s = .ok target) :
    target.Clear apart := by
  rcases follow_origin led with rfl | ⟨listed, -⟩
  · exact clear
  · obtain ⟨⟨name, held⟩, inside, rfl⟩ := List.mem_map.mp listed
    exact agrees.clear name held (Table.get?_eq_some.mpr inside)

theorem unfolding (mappings : TypeMappings) (met : List String) {s : Schema} (clear : s.Clear apart) :
    Unfolding.of two mappings met s = Unfolding.of one mappings met s := by
  fun_induction Unfolding.of one mappings met s with
  | case1 met s refers plain => rw [Unfolding.of_eq, refers]; simp only [plain]
  | case2 met s refers kind container holds => rw [Unfolding.of_eq, refers]; simp only [container, holds]
  | case3 met s refers kind container inner holds ih =>
      have later := ih (clear.content holds)
      rw [Unfolding.of_eq, refers]
      simp only [container, holds, later]
  | case4 met s name refers known => rw [Unfolding.of_eq, refers]; simp only [known, if_true]
  | case5 met s name refers fresh issue followed =>
      rw [Unfolding.of_eq, refers, agrees.unalias clear, followed]
      simp only [fresh, if_false]
  | case6 met s name refers fresh target followed other ends =>
      rw [Unfolding.of_eq, refers, agrees.unalias clear, followed]
      simp only [fresh, if_false, ends]
  | case7 met s name refers fresh target followed ends plain =>
      rw [Unfolding.of_eq, refers, agrees.unalias clear, followed]
      simp only [fresh, if_false, ends, plain]
  | case8 met s name refers fresh target followed ends kind container within =>
      rw [Unfolding.of_eq, refers, agrees.unalias clear, followed]
      simp only [fresh, if_false, ends, container, within]
  | case9 met s name refers fresh target followed ends kind container inner within ih =>
      have later := ih ((agrees.unalias_clear clear followed).content within)
      rw [Unfolding.of_eq, refers, agrees.unalias clear, followed]
      simp only [fresh, if_false, ends, container, within, later]

theorem aliases (mappings : TypeMappings) {name : String} (shared : name ∉ apart) :
    (two.aliases mappings).get? name = (one.aliases mappings).get? name := by
  unfold Document.aliases
  rw [Table.get?_filterMap, Table.get?_filterMap]
  change (two.get? name).bind _ = (one.get? name).bind _
  rw [agrees.same name shared]
  cases found : one.get? name with
  | none => rfl
  | some s =>
      rw [Option.bind_some, Option.bind_some, aliasTag, aliasTag, agrees.unalias (agrees.clear name s found)]

theorem inherits {child parent : String} (shared : child ∉ apart) :
    two.Inherits child parent ↔ one.Inherits child parent ∧ parent ∉ apart := by
  unfold Inherits
  rw [agrees.same child shared]
  constructor
  · rintro ⟨s, found, member, listed, refers, known⟩
    have outside := ((agrees.clear child s found).member listed).refers refers
    exact ⟨⟨s, found, member, listed, refers, (agrees.mem_names outside).mp known⟩, outside⟩
  · rintro ⟨⟨s, found, member, listed, refers, known⟩, outside⟩
    exact ⟨s, found, member, listed, refers, (agrees.mem_names outside).mpr known⟩

theorem descends {name other : String} (shared : name ∉ apart) :
    two.Descends name other ↔ one.Descends name other ∧ other ∉ apart := by
  have edge_apart {child parent : String} (edge : one.Inherits child parent) : parent ∉ apart := by
    obtain ⟨s, found, member, listed, refers, -⟩ := edge
    exact ((agrees.clear child s found).member listed).refers refers
  constructor
  · intro path
    induction path with
    | single edge =>
        obtain ⟨edge, outside⟩ := (agrees.inherits shared).mp edge
        exact ⟨.single edge, outside⟩
    | tail _ edge ih =>
        obtain ⟨before, between⟩ := ih
        obtain ⟨edge, outside⟩ := (agrees.inherits between).mp edge
        exact ⟨before.tail edge, outside⟩
  · rintro ⟨path, -⟩
    induction path with
    | single edge => exact .single ((agrees.inherits shared).mpr ⟨edge, edge_apart edge⟩)
    | @tail between last before edge ih =>
        have between : between ∉ apart := by
          obtain ⟨_, -, last⟩ := Relation.TransGen.tail'_iff.mp before
          exact edge_apart last
        exact ih.tail ((agrees.inherits between).mpr ⟨edge, edge_apart edge⟩)

theorem isCyclic {name : String} (shared : name ∉ apart) :
    (Inheritance.ofDocument two).isCyclic name = (Inheritance.ofDocument one).isCyclic name := by
  rw [Bool.eq_iff_iff, Inheritance.isCyclic_iff, Inheritance.isCyclic_iff, agrees.descends shared]
  exact and_iff_left shared

end Agrees

-- The schemas of the first document and more, under names that the first does not mention.
structure ExtendedBy (document larger : Document) (more : List (String × Schema)) : Prop where
  entries : larger.schemas.entries = document.schemas.entries ++ more
  unmentioned : ∀ name ∈ more.map Prod.fst, name ∉ document.mentioned

namespace ExtendedBy
variable {document larger : Document} {more : List (String × Schema)} (extended : document.ExtendedBy larger more)
include extended

theorem names : larger.names = document.names ++ more.map Prod.fst := by
  change larger.schemas.entries.map Prod.fst = document.schemas.entries.map Prod.fst ++ _
  rw [extended.entries, List.map_append]

theorem apart {name : String} (listed : name ∈ document.names) : name ∉ more.map Prod.fst := by
  have distinct : larger.names.Nodup := larger.schemas.distinct
  rw [extended.names] at distinct
  exact fun other => (List.nodup_append.mp distinct).2.2 name listed name other rfl

theorem agrees : document.Agrees larger (more.map Prod.fst) where
  same name shared := by
    ext s
    change larger.schemas.get? name = some s ↔ document.schemas.get? name = some s
    rw [Table.get?_eq_some, Table.get?_eq_some, extended.entries, List.mem_append]
    exact or_iff_left fun listed => shared (List.mem_map_of_mem (f := Prod.fst) listed)
  clear name s found other listed added := by
    have inside := List.mem_flatMap.mpr ⟨s, document.schemas.mem_values_of_get? found, listed⟩
    exact extended.unmentioned other added (List.mem_append_left _ inside)

theorem arms {name other : String} {s : Schema} (found : document.get? name = some s) (listed : other ∈ s.armNames name) :
    other ∉ more.map Prod.fst :=
  fun added => extended.unmentioned other added (List.mem_append_right _ (armNames_of_get? found listed))

theorem circle {name : String} (shared : name ∉ more.map Prod.fst) : larger.circle name = document.circle name := by
  have added : (more.map Prod.fst).filter
      (fun other => other ∈ larger.ancestors name && name ∈ larger.ancestors other) = [] := by
    rw [List.filter_eq_nil_iff]
    intro other listed
    simp only [Bool.and_eq_true, decide_eq_true_eq, mem_ancestors]
    exact fun both => ((extended.agrees.descends shared).mp both.1).2 listed
  unfold Document.circle
  rw [extended.names, List.filter_append, added, List.append_nil]
  refine List.filter_congr fun other listed => ?_
  rw [Bool.eq_iff_iff]
  simp only [Bool.and_eq_true, decide_eq_true_eq, mem_ancestors]
  rw [extended.agrees.descends shared, extended.agrees.descends (extended.apart listed)]
  exact ⟨fun ⟨up, down⟩ => ⟨up.1, down.1⟩, fun ⟨up, down⟩ => ⟨⟨up, extended.apart listed⟩, down, shared⟩⟩

theorem cycleOf? {name : String} (shared : name ∉ more.map Prod.fst) :
    (Inheritance.ofDocument larger).cycleOf? name = (Inheritance.ofDocument document).cycleOf? name := by
  ext cycle
  rw [Inheritance.cycleOf?_eq_some, Inheritance.cycleOf?_eq_some, extended.circle shared,
    extended.agrees.descends shared, and_iff_left shared]

end ExtendedBy
end Document
end ApiModels
