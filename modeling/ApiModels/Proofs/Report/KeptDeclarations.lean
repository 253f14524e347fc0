import ApiModels.Proofs.Report.BareAliases
import ApiModels.Proofs.Report.Remarks
import ApiModels.Proofs.Resolution.Rounds

namespace ApiModels

def lastOf {α : Type} (name : String) (entries : List (String × α)) : Option (String × α) :=
  entries.reverse.find? (·.1 = name)

theorem lastOf_append {α : Type} (name : String) (one two : List (String × α)) :
    lastOf name (one ++ two) = (lastOf name two).or (lastOf name one) := by
  rw [lastOf, List.reverse_append, List.find?_append]
  rfl

theorem lastOf_isSome {α : Type} (name : String) (entries : List (String × α)) :
    (lastOf name entries).isSome ↔ name ∈ entries.map Prod.fst := by
  simp [lastOf]

theorem rel_or {α β : Type} {R : α → β → Prop} {a c : Option α} {b d : Option β} (first : Option.Rel R a b)
    (second : Option.Rel R c d) : Option.Rel R (a.or c) (b.or d) := by
  cases first with
  | none => exact second
  | some same => exact .some same

namespace Schema

-- An inline allOf member of the schema, or one of such a member, at any depth.
def Inlines : Schema → Schema → Prop := Relation.TransGen fun s member => member ∈ s.inlineMembers

theorem Inlines.isComposed {s member : Schema} (inlines : s.Inlines member) : s.isComposed := by
  obtain ⟨first, listed, -⟩ := Relation.TransGen.head'_iff.mp inlines
  exact isComposed_of_member (List.mem_filter.mp listed).1

end Schema

namespace Project
variable {project : Project}

def Shows (project : Project) (entry : String × Schema) (p : Property) : Prop :=
  ∃ q required, project.Describes entry q ∧ p = { q with required }

theorem Shows.mark {entry : Option (String × Schema)} {held : Option Property}
    (shows : Option.Rel project.Shows entry held) (required : NameSet) :
    Option.Rel project.Shows entry (held.map (Model.mark required)) := by
  cases shows with
  | none => exact .none
  | some same =>
      obtain ⟨q, -, describes, rfl⟩ := same
      exact .some ⟨q, _, describes, rfl⟩

theorem Describes.find {entries : List (String × Schema)} {ps : List Property}
    (describe : List.Forall₂ project.Describes entries ps) (name : String) :
    Option.Rel project.Shows (entries.find? (·.1 = name)) (Model.named name ps) := by
  induction describe with
  | nil => exact .none
  | @cons entry p entries ps first _ ih =>
      rw [Model.named_cons, first.baseName, List.find?_cons]
      by_cases here : entry.1 = name
      · simpa [here] using Option.Rel.some ⟨p, p.required, first, rfl⟩
      · simpa [here] using ih

end Project

namespace Model

-- Under each name the own property is the one that was declared last.
def Declared (project : Project) (done : List Schema) (m : Model) : Prop :=
  ∀ name, Option.Rel project.Shows (lastOf name (done.flatMap (·.properties))) (m.ownProperty? name)

theorem Declared.rounded (project : Project) : Rounded project (Declared project) where
  round {done m ps} s describe declared name := by
    have here : Option.Rel project.Shows (lastOf name s.properties) (named name ps.reverse) :=
      Project.Describes.find (List.rel_reverse describe) name
    rw [takeIn_ownProperty?, List.flatMap_append, List.flatMap_singleton, lastOf_append]
    exact Project.Shows.mark (rel_or here (declared name)) _
  refresh {done m} declared name := by
    rw [Twins.refresh_ownProperty?]
    exact Project.Shows.mark (declared name) _

theorem Declared.start (project : Project) {name : String} {m : Model} (fresh : m.Fresh name) (parents : List Model) :
    Declared project [] (m.adopt parents) := by
  have none_ : (m.adopt parents).ownProperties = [] := by
    rcases fresh.adopt parents with ⟨-, same⟩ | ⟨parent, start, -, started, extended⟩
    · rw [same, fresh.own]
    · rw [extended, extend_ownProperties, started.own]
  intro name
  rw [ownProperty?, none_]
  exact .none

theorem Declared.mem_ownNames {project : Project} {done : List Schema} {m : Model} (declared : Declared project done m)
    (name : String) : name ∈ m.ownNames ↔ ∃ round ∈ done, round.Declares name := by
  have same : (m.ownProperty? name).isSome = (lastOf name (done.flatMap (·.properties))).isSome := by
    have both := declared name
    generalize lastOf name (done.flatMap (·.properties)) = entry at both ⊢
    generalize m.ownProperty? name = held at both ⊢
    cases both <;> rfl
  rw [ownNames, ← named_isSome, ← ownProperty?, same, lastOf_isSome]
  simp only [List.map_flatMap, List.mem_flatMap, Schema.Declares]

end Model

namespace Project

def Reports (project : Project) (name : String) : Prop :=
  ∃ item ∈ project.run.diagnostics.items, item.schema = name ∧ item.code = .aliasPropertiesIgnored

def Ignores (project : Project) (name : String) : Prop :=
  ∃ target, project.Composes name target ∧ ¬ target.isComposed ∧ target.properties ≠ []

variable {project : Project} {m : Model} {s : Schema} {name : String}

theorem Reports.ignores (reports : project.Reports name) : project.Ignores name := by
  obtain ⟨item, listed, rfl, same⟩ := reports
  refine run_items_all (P := fun item => item.code = .aliasPropertiesIgnored → project.Ignores item.schema) ?_ ?_ ?_ item listed same
  · intro _ code _ _ common same
    rw [show code = _ from same] at common
    cases common
  · intro item grave same
    rw [same] at grave
    cases grave
  · intro name target composes
    refine ⟨fun plain some _ _ => ⟨target, composes, plain, some⟩, fun _ _ same => ?_⟩
    change target.branchCode = _ at same
    unfold Schema.branchCode at same
    split at same <;> cases same

-- What became of the declarations of a schema.
inductive Keeps (project : Project) (m : Model) (target : Schema) : Prop where
  | declared : m.Declared project target.rounds → Keeps project m target
  | ignored : ¬ target.isComposed → m.isAlias → m.ownProperties = [] → Keeps project m target

theorem Finishes.declared (finishes : project.Finishes name m) {target : Schema} (composes : project.Composes name target) :
    project.Keeps m target := by
  obtain ⟨s, begins, led⟩ := composes
  obtain ⟨end_, parents, settled, settles, keeps⟩ := finishes.keeps begins
  obtain ⟨outlined, gathers, ⟨t, last, ran, rfl⟩⟩ := settles
  cases led.symm.trans gathers.opens.led
  have fresh := gathers.opens.fresh
  rcases Drafting.groundwork_rounds (Model.Declared.rounded project) gathers.alone (.start project fresh parents) ran
    with declared | ⟨plain, renames, same⟩
  · exact .declared fun name => (keeps.twins.own name).symm ▸ declared name
  · have none_ (name : String) : name ∉ m.ownNames := by
      rw [Model.ownNames, ← Model.named_isSome, ← Model.ownProperty?, keeps.twins.own, same, Model.ownProperty?, fresh.own]
      exact Bool.false_ne_true
    refine .ignored plain (keeps.twins.isAlias.trans (same ▸ renames)) ?_
    exact List.map_eq_nil_iff.mp (List.eq_nil_iff_forall_not_mem.mpr none_)

-- No declaration of an inline allOf member is lost, at any depth, unless the report says so.
def Lossless (project : Project) : Prop :=
  ∀ m ∈ project.run.models, ∀ s, project.Begins m.name s → ∀ member, s.Inlines member → ∀ name, member.Declares name →
    name ∈ m.ownNames ∨ project.Reports m.name

theorem Finishes.kept_iff (finishes : project.Finishes m.name m) (begins : project.Begins m.name s) {member : Schema}
    (inlines : s.Inlines member) (name : String) : name ∈ m.ownNames ∨ project.Reports m.name ↔
      ∃ target, project.document.unalias s = .ok target ∧ ∃ round ∈ target.rounds, round.Declares name := by
  obtain ⟨target, parents, settled, settles, -⟩ := finishes.keeps begins
  have led := settles.described.1
  have origin : target = s ∨ target.hasStructure = false := (Document.follow_origin led).imp id And.right
  have silent : ¬ project.Reports m.name := by
    intro reports
    obtain ⟨other, composes, plain, some⟩ := reports.ignores
    cases composes.unique ⟨s, begins, led⟩
    rcases origin with rfl | bare
    · exact plain inlines.isComposed
    · exact some (Schema.propertyless_of_bare bare)
  have only : (∃ end_, project.document.unalias s = .ok end_ ∧ ∃ round ∈ end_.rounds, round.Declares name) ↔
      ∃ round ∈ target.rounds, round.Declares name := by simp [led]
  rw [or_iff_left silent, only]
  cases finishes.declared ⟨s, begins, led⟩ with
  | declared declared => exact declared.mem_ownNames name
  | ignored plain _ none_ =>
      rcases origin with rfl | bare
      · exact absurd inlines.isComposed plain
      · exact iff_of_false (by simp [Model.ownNames, none_]) (Schema.not_declares_of_bare bare name)

-- This holds unless what a member of a member declares is declared by no round, and then the report is silent.
theorem run_lossless_iff (project : Project) :
    (∀ m ∈ project.run.models, ∀ target, project.Composes m.name target → project.Keeps m target) ∧
    (project.Lossless ↔ ∀ m ∈ project.run.models, ∀ s, project.Begins m.name s → ∀ member, s.Inlines member →
      ∀ name, member.Declares name →
        ∃ target, project.document.unalias s = .ok target ∧ ∃ round ∈ target.rounds, round.Declares name) := by
  have finishes {m : Model} (known : m ∈ project.run.models) : project.Finishes m.name m :=
    (Progress.passes_done project).finishes (project.mem_run_models.mp known)
  refine ⟨fun m known target composes => (finishes known).declared composes, ?_⟩
  constructor
  · intro lossless m known s begins member inlines name declares
    exact ((finishes known).kept_iff begins inlines name).mp (lossless m known s begins member inlines name declares)
  · intro shallow m known s begins member inlines name declares
    exact ((finishes known).kept_iff begins inlines name).mpr (shallow m known s begins member inlines name declares)

def weighed : Schema where
  properties := [("weight", { type := some (.single "number") })]

-- An inline allOf member that composes an inline member of its own.
def nested : Document where
  schemas := Table.ofEntries [("Parcel", { allOf := some [{ allOf := some [weighed] }] })]
  fingerprint := ""

theorem not_lossless_nested : ¬ (of GeneratorSettings.defaults nested).Lossless := by
  intro lossless
  have empty : ∃ m ∈ (of GeneratorSettings.defaults nested).run.models, m.name = "Parcel" ∧ m.ownNames = [] := by
    decide +kernel
  have silent : (of GeneratorSettings.defaults nested).run.diagnostics.items = [] := by decide +kernel
  obtain ⟨m, known, named, none_⟩ := empty
  have begins : (of GeneratorSettings.defaults nested).Begins "Parcel" { allOf := some [{ allOf := some [weighed] }] } :=
    begins_of_digitless rfl (by decide)
  rw [← named] at begins
  have inlines : Schema.Inlines { allOf := some [{ allOf := some [weighed] }] } weighed :=
    .tail (.single List.mem_cons_self) List.mem_cons_self
  rcases lossless m known _ begins _ inlines "weight" List.mem_cons_self with kept | ⟨item, listed, -⟩
  · rw [none_] at kept
    cases kept
  · rw [silent] at listed
    cases listed

end Project
end ApiModels
