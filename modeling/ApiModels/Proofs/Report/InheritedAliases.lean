import ApiModels.Proofs.Report.RequiredProperties

namespace ApiModels
namespace Schema
variable {s : Schema}

def lastParent? (s : Schema) : Option String := s.parentRequests.getLast?.map Request.name

-- The same schema, but for the parent that the last reference among its allOf members names.
def Reparents (s t : Schema) : Prop :=
  ∃ before after one two, s.allOf = some (before ++ { reference := some one } :: after) ∧
    (∀ member ∈ after, member.reference = none) ∧
    t = { s with allOf := some (before ++ { reference := some two } :: after) }

theorem bare_of_reference (reference : String) : hasStructure { reference := some reference } = false := rfl

theorem parentRequests_plain (plain : ¬ s.isComposed) : s.parentRequests = [] := by
  rw [parentRequests, memberless_of_plain plain]
  rfl

end Schema

namespace Document
variable {document : Document}

def Redirects (document : Document) (name other : String) : Prop :=
  ∃ reference, document.get? name = some { reference := some reference } ∧ refName reference = other

def Renames (document : Document) : String → String → Prop := Relation.TransGen document.Redirects

theorem Renames.written {name other : String} (renames : document.Renames name other) :
    ∃ reference, document.get? name = some { reference := some reference } := by
  obtain ⟨_, ⟨reference, found, -⟩, -⟩ := Relation.TransGen.head'_iff.mp renames
  exact ⟨reference, found⟩

theorem bare_of_led {s target : Schema} (led : document.unalias s = .ok target) (bare : s.hasStructure = false) :
    target.hasStructure = false := by
  rcases follow_origin led with rfl | ⟨-, end_⟩
  · exact bare
  · exact end_

def rewrite (document : Document) (name : String) (s : Schema) : Document :=
  { document with schemas := document.schemas.put name s }

end Document

namespace Model
variable {m other : Model}

def inheritedProperties (m : Model) : List Property := m.allProperties.filter (·.baseName ∉ m.ownNames)

def inheritedRequired (m : Model) : List String := m.allRequiredNames.toList.filter (· ∉ m.requiredNames.toList)

def InheritsAlike (m other : Model) : Prop :=
  m.inheritedProperties = other.inheritedProperties ∧ m.inheritedRequired = other.inheritedRequired

theorem selfMade_iff : m.SelfMade ↔ m.inheritedProperties = [] ∧ m.inheritedRequired = [] := by
  refine and_congr ?_ ?_
  · simp [inheritedProperties, propertyNames, List.subset_def, List.filter_eq_nil_iff]
  · simp only [inheritedRequired, List.filter_eq_nil_iff, decide_eq_true_eq, not_not]
    rfl

theorem SelfMade.alike_iff (made : m.SelfMade) : m.InheritsAlike other ↔ other.SelfMade := by
  obtain ⟨properties, required⟩ := selfMade_iff.mp made
  rw [InheritsAlike, selfMade_iff, properties, required]
  exact and_congr eq_comm eq_comm

theorem Grows.declaring : Declaring Grows where
  refl := .refl
  trans := .trans
  declare := declare_grows
  requireName m name _ := requireName_grows m name
  refresh m := m.refresh_rearranges.grows

theorem Agrees.lasting (settings : GeneratorSettings) : Lasting settings Agrees where
  member child same := same.trans (addMember_agrees _ child)
  linked link same := same.trans (Cache.implement_agrees _ link)
  completed same := same.trans (complete_rearranges settings _).toAgrees
  shown union same := (addInterface_agrees _ union).symm.trans same

end Model

namespace Progress
variable {project : Project} {k : Progress}

theorem Passes.asks_nothing (passes : Passes project k) {build : Build} (under : build ∈ k.builds) {s : Schema}
    (begins : project.Begins build.name s) (bare : s.hasStructure = false) : build.stage.requests = [] := by
  have written : build.written = s := (passes.accounted.sound build under).begun.unique begins
  have traced := passes.traced build under
  have plain {target : Schema} (led : project.document.unalias build.written = .ok target) : ¬ target.isComposed :=
    Schema.plain_of_bare (Document.bare_of_led led (written ▸ bare))
  cases stage : build.stage with
  | opening => rfl
  | inheriting target outlined parents rest =>
      obtain ⟨opens, done, split, -⟩ := traced.inheriting stage
      rw [Schema.parentRequests_plain (plain opens.led)] at split
      exact (List.append_eq_nil_iff.mp split.symm).2
  | linking m rest =>
      obtain ⟨target, parents, settled, settles, done, split, -, -⟩ := traced.linking stage
      rw [Schema.armRequests_plain (plain settles.described.1)] at split
      exact (List.append_eq_nil_iff.mp split.symm).2

end Progress

namespace Project
variable {project : Project} {name heir a b : String} {s : Schema} {m parent : Model}

theorem Finishes.agrees (finishes : project.Finishes name m) (begins : project.Begins name s) :
    ∃ target parents settled, project.Settles name s target parents settled ∧ settled.Agrees m :=
  finishes.lasts (Model.Agrees.lasting project.settings) begins fun _ => .refl _

theorem Finishes.bare (finishes : project.Finishes name m) (begins : project.Begins name s) (bare : s.hasStructure = false) :
    m.Bare := by
  obtain ⟨target, parents, settled, settles, same⟩ := finishes.agrees begins
  obtain ⟨outlined, gathers, ⟨t, last, ran, rfl⟩⟩ := settles
  have fresh := gathers.opens.fresh
  have empty := Document.bare_of_led gathers.opens.led bare
  have alone := gathers.alone (Schema.memberless_of_plain (Schema.plain_of_bare empty))
  refine same.bare ?_
  rcases Drafting.groundwork_rounds (Model.Tallied.rounded project _) gathers.alone (.start _) ran with tallied | ⟨-, -, still⟩
  · rw [alone] at tallied
    have nameless (name : String) : name ∉ (outlined.adopt []).propertyNames := by simp [fresh.mem_propertyNames_adopt]
    have undeclared := Schema.not_declares_of_bare empty
    refine ⟨List.eq_nil_iff_forall_not_mem.mpr fun name listed => ?_, fun name listed => ?_⟩
    · exact ((tallied.names name).mp listed).elim (nameless name) (undeclared name)
    · rcases (tallied.required name).mp listed with started | ⟨before, round, starts, -, seen⟩
      · exact absurd (fresh.mem_allRequiredNames_adopt.mp started) (by simp)
      · exact seen.elim (nameless name) fun ⟨earlier, among, declares⟩ =>
          undeclared name ⟨earlier, starts.subset among, declares⟩
  · exact still ▸ fresh.bare

-- It is never handed over before it is finished, since its build asks for nothing.
theorem Bequeaths.bare {request : Request} (bequeaths : project.Bequeaths heir request parent)
    (begins : project.Begins request.name s) (bare : s.hasStructure = false) : parent.Bare := by
  obtain ⟨k, passes, ⟨written, target, outlined, parents, rest, below, top⟩, -, answered⟩ := bequeaths
  rcases Cache.lookup_ok.mp answered with ready | building
  · exact (passes.finishes ready).bare begins bare
  · exfalso
    have listed := (passes.coherent.ended _ _ (Cache.phase?_of_get? building)).resolve_right (by simp [CacheEntry.phase])
    obtain ⟨build, under, same⟩ := List.mem_map.mp listed
    have silent := passes.asks_nothing under (same ▸ begins) bare
    have asking := passes.coherent.asking build
    rw [top] at under asking
    rcases List.mem_cons.mp under with rfl | inner
    · cases silent
    · exact asking inner silent

-- A child inherits the same whether the last of its parents is named by an alias or by what the alias leads to.
def Transparent (settings : GeneratorSettings) : Prop :=
  ∀ (document : Document) (name a b : String) (s t upper : Schema), document.get? name = some s → s.Reparents t →
    s.lastParent? = some a → t.lastParent? = some b → document.Renames a b →
    document.get? b = some upper → upper.isObject ∨ upper.isComposed →
    (∃ parent ∈ (of settings document).run.models, parent.name = b) →
    ∀ m ∈ (of settings document).run.models, m.name = name →
      ∀ n ∈ (of settings (document.rewrite name t)).run.models, n.name = name → m.InheritsAlike n

-- A child whose parent is written as a reference has this parent and nothing of what the reference names.
theorem run_inherits_through_alias (project : Project) {m : Model} (known : m ∈ project.run.models) {s : Schema}
    (composes : project.Composes m.name s) {a b : String} (last : s.lastParent? = some a)
    (renames : project.document.Renames a b)
    (own : ∀ written, project.Begins a written → project.document.get? a = some written) :
    m.parentName = some a ∧ m.SelfMade ∧ ∀ other : Model, m.InheritsAlike other ↔ other.SelfMade := by
  obtain ⟨written, begins, led⟩ := composes
  have finishes := (Progress.passes_done project).finishes (project.mem_run_models.mp known)
  obtain ⟨target, parents, settled, settles, same⟩ := finishes.agrees begins
  have described := settles.described
  cases led.symm.trans described.1
  obtain ⟨outlined, gathers, ⟨t, final, ran, rfl⟩⟩ := settles
  have adopted : (outlined.adopt parents).SelfMade := by
    rcases gathers.last with ⟨none_, -⟩ | ⟨request, parent, listed, kept, bequeaths⟩
    · simp [Schema.lastParent?, none_] at last
    have named : request.name = a := by simpa [Schema.lastParent?, listed] using last
    obtain ⟨entry, found, -⟩ := bequeaths.hands.known
    obtain ⟨written, begun⟩ := (Progress.passes_done project).begun (Table.mem_names_of_get? found)
    obtain ⟨reference, carries⟩ := renames.written
    cases carries.symm.trans (own written (named ▸ begun))
    have bare := bequeaths.bare begun (Schema.bare_of_reference reference)
    rcases gathers.opens.fresh.adopt parents with ⟨none_, -⟩ | ⟨other, start, also, started, extended⟩
    · cases none_.symm.trans kept
    · cases also.symm.trans kept
      exact extended ▸ Model.extend_selfMade started.merged started.selfMade bare
  have grows := Drafting.groundwork_moves (Model.Grows.declaring.admitting project) gathers.alone ran
  have made : m.SelfMade := same.selfMade (grows.selfMade adopted)
  exact ⟨same.parentName.trans (described.2.2.2.trans last), made, fun other => made.alike_iff⟩

-- Two references on the way from a child to the schema that it means to inherit from.
def renamed : Document where
  schemas := Table.ofEntries [
    ("Animal", { properties := [("legs", { type := some (.single "integer") })], required := ["legs"] }),
    ("Being", Schema.referenceTo "Animal"),
    ("Creature", Schema.referenceTo "Being"),
    ("Pet", { allOf := some [Schema.referenceTo "Creature"] })]
  fingerprint := ""

theorem renames_renamed : renamed.Renames "Creature" "Animal" := by
  have first : renamed.Redirects "Creature" "Being" := ⟨_, rfl, by decide +kernel⟩
  have second : renamed.Redirects "Being" "Animal" := ⟨_, rfl, by decide +kernel⟩
  exact .tail (.single first) second

theorem run_renamed : (∃ parent ∈ (of GeneratorSettings.defaults renamed).run.models, parent.name = "Animal") ∧
    ∃ m ∈ (of GeneratorSettings.defaults renamed).run.models, m.name = "Pet" ∧ m.SelfMade := by
  decide +kernel

theorem run_inherits_through_alias_renamed : ∃ m ∈ (of GeneratorSettings.defaults renamed).run.models,
    m.name = "Pet" ∧ m.parentName = some "Creature" ∧ m.SelfMade := by
  obtain ⟨-, m, known, named, -⟩ := run_renamed
  have begins : (of GeneratorSettings.defaults renamed).Begins "Pet" { allOf := some [Schema.referenceTo "Creature"] } :=
    begins_of_digitless rfl (by decide)
  rw [← named] at begins
  have composes : (of GeneratorSettings.defaults renamed).Composes m.name { allOf := some [Schema.referenceTo "Creature"] } :=
    ⟨_, begins, Document.follow_eq _ _ _⟩
  have last : Schema.lastParent? { allOf := some [Schema.referenceTo "Creature"] } = some "Creature" := by decide +kernel
  obtain ⟨parentName, made, -⟩ := run_inherits_through_alias _ known composes last renames_renamed
    fun _ begun => begun.own_of_digitless (by decide)
  exact ⟨m, known, named, parentName, made⟩

-- Named by its own name, the same schema hands down its property.
theorem not_transparent_renamed : ¬ Transparent GeneratorSettings.defaults := by
  intro transparent
  have direct : ∃ n ∈ (of GeneratorSettings.defaults (renamed.rewrite "Pet"
      { allOf := some [Schema.referenceTo "Animal"] })).run.models, n.name = "Pet" ∧ ¬ n.SelfMade := by
    decide +kernel
  obtain ⟨ready, m, known, named, made⟩ := run_renamed
  obtain ⟨n, also, same, inherits⟩ := direct
  have reparents : Schema.Reparents { allOf := some [Schema.referenceTo "Creature"] }
      { allOf := some [Schema.referenceTo "Animal"] } :=
    ⟨[], [], _, _, rfl, fun _ none_ => absurd none_ List.not_mem_nil, rfl⟩
  have alike := transparent renamed "Pet" "Creature" "Animal" _ _ _ rfl reparents (by decide +kernel) (by decide +kernel)
    renames_renamed rfl (.inl (by decide +kernel)) ready m known named n also same
  exact inherits (made.alike_iff.mp alike)

end Project
end ApiModels
