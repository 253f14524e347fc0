import Mathlib.Data.List.Nodup
import ApiModels.Proofs.Document.Walks

namespace ApiModels
namespace Document
variable {document : Document} {s next target other : Schema} {name : String} {met names more : List String}

def turn (schemas : SchemaTable) (met : List String) (s : Schema) : Except RefIssue Schema ⊕ List String × Schema :=
  match s.refName? with
  | none => .inl (.ok s)
  | some name =>
      if name ∈ met then .inl (.error (.cycle (met ++ [name])))
      else match schemas.get? name with
        | none => .inl (.error (.missing name))
        | some next => if next.hasStructure then .inl (.ok s) else .inr (met ++ [name], next)

def within (schemas : SchemaTable) : Nat → List String → Schema → Option (Except RefIssue Schema)
  | 0, _, _ => none
  | turns + 1, met, s => match turn schemas met s with
      | .inl outcome => some outcome
      | .inr (met, next) => within schemas turns met next

theorem follow_turn (schemas : SchemaTable) (met : List String) (s : Schema) :
    follow schemas met s = match turn schemas met s with
      | .inl outcome => outcome
      | .inr (met, next) => follow schemas met next := by
  rw [follow_eq, turn]
  cases s.refName? with
  | none => rfl
  | some name =>
      dsimp only
      split
      · rfl
      · cases schemas.get? name with
        | none => rfl
        | some next => dsimp only; split <;> rfl

-- How the walk ends in front of a schema, with these names met.
inductive Stops (document : Document) (met : List String) (s : Schema) : Except RefIssue Schema → Prop where
  | rest : document.Rests s → Stops document met s (.ok s)
  | missing {name : String} : s.refName? = some name → name ∉ document.names →
      Stops document met s (.error (.missing name))
  | again {name : String} : s.refName? = some name → name ∈ met →
      Stops document met s (.error (.cycle (met ++ [name])))

theorem turn_stops {outcome : Except RefIssue Schema} (last : turn document.schemas met s = .inl outcome) :
    document.Stops met s outcome := by
  unfold turn at last
  split at last
  · rename_i plain
    cases last
    exact .rest fun name refers => by cases plain.symm.trans refers
  · rename_i name refers
    split at last
    · rename_i known
      cases last
      exact .again refers known
    · split at last
      · rename_i absent
        cases last
        exact .missing refers (Table.get?_eq_none.mp absent)
      · rename_i own found
        split at last
        · rename_i structured
          cases last
          refine .rest fun other named => ?_
          cases refers.symm.trans named
          exact ⟨own, found, structured⟩
        · cases last

theorem follow_onward (refers : s.refName? = some name) (fresh : name ∉ met) (found : document.get? name = some next)
    (bare : next.hasStructure = false) :
    follow document.schemas met s = follow document.schemas (met ++ [name]) next := by
  have held : document.schemas.get? name = some next := found
  rw [follow_eq]
  simp only [refers, fresh, held, bare, if_false, Bool.false_eq_true]

theorem turn_onward {schemas : SchemaTable} {later : List String} (goes : turn schemas met s = .inr (later, next)) :
    ∃ name, s.refName? = some name ∧ name ∉ met ∧ schemas.get? name = some next ∧ next.hasStructure = false ∧
      later = met ++ [name] := by
  unfold turn at goes
  split at goes
  · cases goes
  · rename_i name refers
    split at goes
    · cases goes
    · rename_i fresh
      split at goes
      · cases goes
      · rename_i own found
        split at goes
        · cases goes
        · rename_i bare
          cases goes
          exact ⟨name, refers, fresh, found, by simpa using bare, rfl⟩

theorem within_follow {schemas : SchemaTable} {turns : Nat} (enough : (schemas.unmet met).length < turns) :
    within schemas turns met s = some (follow schemas met s) := by
  induction turns generalizing met s with
  | zero => exact absurd enough (Nat.not_lt_zero _)
  | succ turns ih =>
      rw [within, follow_turn]
      cases goes : turn schemas met s with
      | inl outcome => rfl
      | inr onward =>
          obtain ⟨later, next⟩ := onward
          obtain ⟨name, -, fresh, found, -, rfl⟩ := turn_onward goes
          have fewer := schemas.unmet_length_lt met (met ++ [name]) name (Table.mem_names_of_get? found) fresh
            (List.subset_append_left _ _) (by simp)
          exact ih (by omega)

-- The names of the references that are replaced on the way from a schema to another.
inductive Route (document : Document) : List String → Schema → Schema → Prop where
  | here {s : Schema} : Route document [] s s
  | onward {name : String} {names : List String} {s next target : Schema} : s.refName? = some name →
      document.get? name = some next → next.hasStructure = false → Route document names next target →
      Route document (name :: names) s target

def Reaches (document : Document) (s target : Schema) : Prop := ∃ names, document.Route names s target

-- The names on the way to one of them that is met for the second time, which comes last.
def Repeats (document : Document) (s : Schema) (chain : List String) : Prop :=
  ∃ passed last target, chain = passed ++ [last] ∧ document.Route passed s target ∧ target.refName? = some last ∧
    passed.Nodup ∧ last ∈ passed

namespace Route

theorem snoc (route : document.Route names s target) (refers : target.refName? = some name)
    (found : document.get? name = some next) (bare : next.hasStructure = false) :
    document.Route (names ++ [name]) s next := by
  induction route with
  | here => exact .onward refers found bare .here
  | onward refers' found' bare' _ ih => exact .onward refers' found' bare' (ih refers)

theorem from_passed (route : document.Route names s target) (passed : name ∈ names) :
    ∃ own rest, document.get? name = some own ∧ own.hasStructure = false ∧ document.Route rest own target ∧
      rest.length < names.length := by
  induction route with
  | here => cases passed
  | @onward first names s next target refers found bare route ih =>
      rcases List.mem_cons.mp passed with rfl | later
      · exact ⟨next, names, found, bare, route, Nat.lt_succ_self _⟩
      · obtain ⟨own, rest, found', bare', route', shorter⟩ := ih later
        exact ⟨own, rest, found', bare', route', Nat.lt_succ_of_lt shorter⟩

theorem prefix_of_end (route : document.Route names s target) (longest : document.Route more s other)
    (ends : ∀ next, ¬ document.Forwards other next) : names <+: more := by
  induction route generalizing more with
  | here => exact List.nil_prefix
  | @onward name names s next target refers found bare route ih =>
      cases longest with
      | here => exact absurd ⟨name, refers, found, bare⟩ (ends next)
      | onward refers' found' _ longest =>
          cases refers.symm.trans refers'
          cases found.symm.trans found'
          exact List.cons_prefix_cons.mpr ⟨rfl, ih longest⟩

theorem nodup (route : document.Route names s target) (ends : ∀ next, ¬ document.Forwards target next) : names.Nodup := by
  induction route with
  | here => exact List.nodup_nil
  | @onward name names s next target refers found bare route ih =>
      refine List.nodup_cons.mpr ⟨fun passed => ?_, ih ends⟩
      -- The same schema would have two routes to the end, one of them shorter.
      obtain ⟨own, rest, found', -, route', shorter⟩ := route.from_passed passed
      cases found.symm.trans found'
      have bound := (route.prefix_of_end route' ends).length_le
      omega

theorem follow (route : document.Route names s target) (distinct : (met ++ names).Nodup) :
    Document.follow document.schemas met s = Document.follow document.schemas (met ++ names) target := by
  induction route generalizing met with
  | here => rw [List.append_nil]
  | @onward name names s next target refers found bare route ih =>
      have fresh : name ∉ met := fun known => (List.nodup_append.mp distinct).2.2 name known name List.mem_cons_self rfl
      rw [List.append_cons] at distinct ⊢
      exact (follow_onward refers fresh found bare).trans (ih distinct)

theorem leads (route : document.Route names s target) (rests : document.Rests target) :
    document.Leads names.length s target := by
  induction route with
  | here => exact .rest rests
  | @onward name _ _ _ _ refers found bare _ ih => exact .onward ⟨name, refers, found, bare⟩ (ih rests)

end Route

theorem Leads.reaches {count : Nat} (leads : document.Leads count s target) : document.Reaches s target := by
  induction leads with
  | rest => exact ⟨[], .here⟩
  | onward forwards _ ih =>
      obtain ⟨name, refers, found, bare⟩ := forwards
      obtain ⟨names, route⟩ := ih
      exact ⟨name :: names, .onward refers found bare route⟩

theorem follow_route (document : Document) (s : Schema) (distinct : met.Nodup) :
    ∃ names target, document.Route names s target ∧ (met ++ names).Nodup ∧
      turn document.schemas (met ++ names) target = .inl (follow document.schemas met s) := by
  induction met, s using follow.induct document.schemas with
  | case5 met s name refers fresh next found bare ih =>
      have grown : (met ++ [name]).Nodup := List.Nodup.append distinct (List.nodup_singleton name) (by simpa using fresh)
      have unstructured : next.hasStructure = false := by simpa using bare
      obtain ⟨names, target, route, nodup, stops⟩ := ih grown
      refine ⟨name :: names, target, .onward refers found unstructured route, ?_, ?_⟩
      · rwa [List.append_cons]
      · rwa [List.append_cons, follow_onward refers fresh found unstructured]
  | _ =>
      refine ⟨[], _, .here, by rwa [List.append_nil], ?_⟩
      rw [List.append_nil, follow_turn, turn]
      simp [*]

theorem unalias_stops (s : Schema) : ∃ names target, document.Route names s target ∧ names.Nodup ∧
    document.Stops names target (document.unalias s) := by
  obtain ⟨names, target, route, distinct, last⟩ := document.follow_route s List.nodup_nil
  exact ⟨names, target, route, distinct, turn_stops last⟩

theorem Stops.not_forwards {outcome : Except RefIssue Schema} (stops : document.Stops met s outcome)
    (unmet : ∀ chain, outcome ≠ .error (.cycle chain)) : ¬ document.Forwards s next := by
  cases stops with
  | rest rests => exact rests.not_forwards
  | missing refers absent =>
      rintro ⟨name, refers', found, -⟩
      cases refers.symm.trans refers'
      exact absent (Table.mem_names_of_get? found)
  | again => exact absurd rfl (unmet _)

theorem Stops.unalias {outcome : Except RefIssue Schema} (stops : document.Stops names target outcome)
    (route : document.Route names s target) (distinct : names.Nodup) : document.unalias s = outcome := by
  have taken : document.unalias s = follow document.schemas names target := route.follow distinct
  rw [taken, follow_eq]
  cases stops with
  | rest rests =>
      cases refers : target.refName? with
      | none => rfl
      | some name =>
          obtain ⟨own, found, structured⟩ := rests name refers
          have fresh : name ∉ names := by
            intro passed
            obtain ⟨own', -, found', bare, -⟩ := route.from_passed passed
            cases found.symm.trans found'
            simp [bare] at structured
          have held : document.schemas.get? name = some own := found
          simp only [fresh, held, structured, if_false, if_true]
  | @missing name refers absent =>
      have fresh : name ∉ names := by
        intro passed
        obtain ⟨own, -, found, -⟩ := route.from_passed passed
        exact absent (Table.mem_names_of_get? found)
      have lost : document.schemas.get? name = none := Table.get?_eq_none.mpr absent
      simp only [refers, fresh, lost, if_false]
  | again refers known => simp only [refers, known, if_true]

theorem unalias_ok_iff : document.unalias s = .ok target ↔ document.Reaches s target ∧ document.Rests target := by
  constructor
  · intro led
    obtain ⟨names, last, route, -, stops⟩ := document.unalias_stops s
    rw [led] at stops
    cases stops with
    | rest rests => exact ⟨⟨names, route⟩, rests⟩
  · rintro ⟨⟨names, route⟩, rests⟩
    exact Stops.unalias (.rest rests) route (route.nodup fun _ => rests.not_forwards)

theorem unalias_iff : document.unalias s = .ok target ↔ ∃ count, document.Leads count s target := by
  rw [unalias_ok_iff]
  constructor
  · rintro ⟨⟨names, route⟩, rests⟩
    exact ⟨names.length, route.leads rests⟩
  · rintro ⟨count, leads⟩
    exact ⟨leads.reaches, leads.rests⟩

theorem Forwards.unalias (forwards : document.Forwards s next) :
    document.unalias s = .ok target ↔ document.unalias next = .ok target := by
  rw [unalias_iff, unalias_iff]
  constructor
  · intro ⟨count, leads⟩
    cases leads with
    | rest rests => exact absurd forwards rests.not_forwards
    | onward forwards' leads =>
        cases forwards.unique forwards'
        exact ⟨_, leads⟩
  · intro ⟨count, leads⟩
    exact ⟨count + 1, .onward forwards leads⟩

theorem Rests.unalias (rests : document.Rests s) : document.unalias s = .ok s := unalias_iff.mpr ⟨0, .rest rests⟩

theorem unalias_of_bare (refers : s.refName? = some name) (held : document.get? name = some next)
    (bare : next.hasStructure = false) (ends : next.refName? = none) : document.unalias s = .ok next := by
  have forwards : document.Forwards s next := ⟨name, refers, held, bare⟩
  exact forwards.unalias.mpr (Rests.unalias fun other refers' => by cases ends.symm.trans refers')

theorem unalias_missing_iff : document.unalias s = .error (.missing name) ↔
    ∃ target, document.Reaches s target ∧ target.refName? = some name ∧ name ∉ document.names := by
  constructor
  · intro lost
    obtain ⟨names, last, route, -, stops⟩ := document.unalias_stops s
    rw [lost] at stops
    cases stops with
    | missing refers absent => exact ⟨last, ⟨names, route⟩, refers, absent⟩
  · rintro ⟨target, ⟨names, route⟩, refers, absent⟩
    have stops : document.Stops names target _ := .missing refers absent
    exact stops.unalias route (route.nodup fun _ => stops.not_forwards (by simp))

theorem unalias_cycle_iff {chain : List String} :
    document.unalias s = .error (.cycle chain) ↔ document.Repeats s chain := by
  constructor
  · intro looped
    obtain ⟨names, last, route, distinct, stops⟩ := document.unalias_stops s
    rw [looped] at stops
    cases stops with
    | again refers known => exact ⟨names, _, last, rfl, route, refers, distinct, known⟩
  · rintro ⟨passed, last, target, rfl, route, refers, distinct, known⟩
    exact Stops.unalias (.again refers known) route distinct

theorem repeats_iff : (∃ chain, document.Repeats s chain) ↔
    ∃ names target, document.Route names s target ∧ ¬ names.Nodup := by
  constructor
  · rintro ⟨_, passed, last, target, rfl, route, refers, -, known⟩
    obtain ⟨own, -, found, bare, -⟩ := route.from_passed known
    refine ⟨passed ++ [last], own, route.snoc refers found bare, fun distinct => ?_⟩
    exact (List.nodup_append.mp distinct).2.2 last known last List.mem_cons_self rfl
  · rintro ⟨names, target, route, again⟩
    by_contra never
    obtain ⟨longest, last, route', distinct, stops⟩ := document.unalias_stops s
    have ends : ∀ next, ¬ document.Forwards last next := fun _ =>
      stops.not_forwards fun chain looped => never ⟨chain, unalias_cycle_iff.mp looped⟩
    exact again (distinct.sublist (route.prefix_of_end route' ends).sublist)

variable (document)

-- The walk along references is over within one turn for each schema and one more. It gives the schema that it
-- comes to rest at, the first name that the document lacks, or the names that it has met once one of them
-- comes again. A schema that it gives is its own end.
theorem unalias_exact (s : Schema) :
    within document.schemas (document.schemas.size + 1) [] s = some (document.unalias s) ∧
    (∀ target, document.unalias s = .ok target ↔ document.Reaches s target ∧ document.Rests target) ∧
    (∀ name, document.unalias s = .error (.missing name) ↔
      ∃ target, document.Reaches s target ∧ target.refName? = some name ∧ name ∉ document.names) ∧
    (∀ chain, document.unalias s = .error (.cycle chain) ↔ document.Repeats s chain) ∧
    ((∃ chain, document.Repeats s chain) ↔ ∃ names target, document.Route names s target ∧ ¬ names.Nodup) ∧
    ∀ target, document.unalias s = .ok target → document.unalias target = .ok target := by
  refine ⟨within_follow ?_, fun _ => unalias_ok_iff, fun _ => unalias_missing_iff, fun _ => unalias_cycle_iff,
    repeats_iff, fun target led => (unalias_ok_iff.mp led).2.unalias⟩
  simp [Table.unmet, Table.names, Table.size]

end Document
end ApiModels
