import ApiModels.Proofs.Json.Decoding
import ApiModels.Proofs.Resolution.AliasedProperties
import ApiModels.Proofs.Resolution.Signatures
import ApiModels.Proofs.Schema.Containers

namespace ApiModels

namespace Resolution
variable {project : Project} {owner text : String} {s : Schema}

theorem infer_ok (project : Project) (subject : String) (s : Schema) (session : Session) :
    ∃ after, infer project subject s session = .ok (s.inferTag project.settings.typeMappings) after := by
  obtain ⟨after, noted⟩ := reportNote_ok subject (s.infer project.settings.typeMappings).note session
  exact ⟨after, bind_ok.mpr ⟨(), after, noted, rfl⟩⟩

theorem typeName_of_ok (named : project.typeName? owner s = .ok text) (session : Session) :
    ∃ after, typeName project owner s session = .ok text after := by
  unfold Project.typeName? at named
  unfold typeName
  split
  · rename_i own
    rw [if_pos own] at named
    cases named
    exact ⟨session, rfl⟩
  · rename_i foreign
    rw [if_neg foreign] at named
    obtain ⟨target, led, named⟩ := map_eq_ok.mp named
    have walked : unalias project owner s session = .ok target session := by
      rw [unalias, led]
      rfl
    cases refers : target.refName? with
    | some other =>
        rw [refers] at named
        refine ⟨session, bind_ok.mpr ⟨target, session, walked, ?_⟩⟩
        rw [refers, ← named]
        rfl
    | none =>
        rw [refers] at named
        obtain ⟨after, inferred⟩ := infer_ok project owner target session
        refine ⟨after, bind_ok.mpr ⟨target, session, walked, ?_⟩⟩
        rw [refers, ← named]
        exact bind_ok.mpr ⟨_, after, inferred, rfl⟩

end Resolution

namespace Unfolding
variable {project : Project} {met : List String} {owner key : String} {s target : Schema} {kind : ContainerKind}
  {unfolding : Unfolding}

theorem Reads.shows (reads : Reads project.document met s target)
    (unfolds : Unfolding.of project.document project.settings.typeMappings met s = .ok unfolding) :
    (unfolding.toProperty project.settings key).dataType = (target.inferTag project.settings.typeMappings).text ∧
      (unfolding.toProperty project.settings key).containerType =
        (target.inferTag project.settings.typeMappings).container? := by
  rw [of_reads reads] at unfolds
  split at unfolds
  · rename_i plain
    cases unfolds
    simp only [toProperty, valueLevel, plain]
    split <;> exact ⟨rfl, rfl⟩
  · rename_i kind container
    rw [container]
    split at unfolds
    · cases unfolds
      exact ⟨rfl, rfl⟩
    · obtain ⟨inner, -, rfl⟩ := map_eq_ok.mp unfolds
      exact ⟨rfl, rfl⟩

theorem Reads.of_container {document : Document} {mappings : TypeMappings} (reads : Reads document met s target)
    (container : (target.inferTag mappings).container? = some kind) : Unfolding.of document mappings met s =
      (Unfolding.of document mappings (met ++ s.refName?.toList) ((target.content? kind).getD Schema.blank)).map
        (.container s target kind) := by
  have bare : Unfolding.of document mappings (met ++ s.refName?.toList) Schema.blank =
      .ok (.value Schema.blank Schema.blank) := by
    rw [of_reads (.self _ rfl)]
    rfl
  rw [of_reads reads, container]
  dsimp only
  cases target.content? kind with
  | none =>
      rw [Option.getD_none, bare]
      rfl
  | some inner => rfl

-- The names met on the way to a level may be any that tell the owner from the other names there.
theorem of_typeName? (unfolds : Unfolding.of project.document project.settings.typeMappings met s = .ok unfolding)
    (tells : ∀ name, s.refName? = some name → (name ∈ met ↔ name = owner)) :
    project.typeName? owner s = .ok (unfolding.toProperty project.settings key).dataType := by
  by_cases read : ∃ target, Reads project.document met s target
  · obtain ⟨target, reads⟩ := read
    have foreign : s.refName? ≠ some owner := fun refers => reads.fresh owner refers ((tells owner refers).mpr rfl)
    rw [Project.typeName?, if_neg foreign, reads.led, (reads.shows unfolds).1]
    simp [Except.map, reads.ends]
  · have unread := not_exists.mp read
    rw [of_eq] at unfolds
    cases refers : s.refName? with
    | none => exact absurd (Reads.self met refers) (unread s)
    | some name =>
        simp only [refers] at unfolds
        split at unfolds
        · rename_i known
          obtain rfl := (tells name refers).mp known
          cases unfolds
          rw [Project.typeName?, if_pos refers]
          rfl
        · rename_i fresh
          have foreign : s.refName? ≠ some owner := by
            intro own
            cases refers.symm.trans own
            exact fresh ((tells owner own).mpr rfl)
          split at unfolds
          · cases unfolds
          · rename_i target led
            cases ends : target.refName? with
            | none =>
                refine absurd ⟨fun other named => ?_, led, ends⟩ (unread target)
                cases refers.symm.trans named
                exact fresh
            | some other =>
                rw [ends] at unfolds
                cases unfolds
                rw [Project.typeName?, if_neg foreign, led]
                simp only [Except.map, ends]
                rfl

end Unfolding

-- The signature names the types that the property holds, where the schema gives them.
def Model.NamesContent (project : Project) (m : Model) (s : Schema) (p : Property) : Prop :=
  match p.containerType with
  | none => True
  | some .map => ∀ target value, project.document.unalias s = .ok target →
      target.additionalProperties = some (.schema value) →
        ∃ content, p.items? = some content ∧ m.additionalPropertiesType = some content.dataType
  | some _ => ∃ content, p.items? = some content ∧ m.arrayModelType = some content.dataType

namespace Project
variable {project : Project} {name key : String} {s own target : Schema} {m : Model} {kind : ContainerKind}
  {unfolding : Unfolding}

theorem reads_named (held : project.document.get? name = some own) (led : project.document.unalias own = .ok target)
    (refers : s.refName? = some name)
    (unfolds : Unfolding.of project.document project.settings.typeMappings [] s = .ok unfolding)
    (container : (unfolding.toProperty project.settings key).containerType = some kind) :
    Unfolding.Reads project.document [] s target := by
  by_contra unread
  have kept : ∃ target name, unfolding = .model s target name := by
    refine Unfolding.of_unread (fun other reads => unread ?_) unfolds
    have bare : own.hasStructure = false := by
      by_contra structured
      have rests : project.document.Rests s := fun other named => by
        cases refers.symm.trans named
        exact ⟨own, held, by simpa using structured⟩
      cases rests.unalias.symm.trans reads.led
      cases refers.symm.trans reads.ends
    have forwards : project.document.Forwards s own := ⟨name, refers, held, bare⟩
    cases (forwards.unalias.mp reads.led).symm.trans led
    exact reads
  obtain ⟨_, _, rfl⟩ := kept
  cases container

theorem namesContent (held : project.document.get? name = some own) (led : project.document.unalias own = .ok target)
    (signed : m.Signed project name target) (refers : s.refName? = some name)
    (unfolds : Unfolding.of project.document project.settings.typeMappings [] s = .ok unfolding) :
    m.NamesContent project s (unfolding.toProperty project.settings key) := by
  unfold Model.NamesContent
  cases container : (unfolding.toProperty project.settings key).containerType with
  | none => trivial
  | some kind =>
      have reads := reads_named held led refers unfolds container
      have tagged := (reads.shows unfolds).2.symm.trans container
      rw [reads.of_container tagged, refers] at unfolds
      obtain ⟨inner, below, rfl⟩ := map_eq_ok.mp unfolds
      have named : project.typeName? name _ = .ok (inner.toProperty project.settings key).dataType :=
        Unfolding.of_typeName? below fun other _ => by simp
      cases kind with
      | map =>
          intro other value led' extras
          cases reads.led.symm.trans led'
          obtain ⟨text, named', stored⟩ := signed.extras value extras
          rw [Schema.content?, extras] at named
          cases named.symm.trans named'
          exact ⟨_, rfl, stored⟩
      | array | set =>
          obtain ⟨text, named', stored⟩ := signed.items (Schema.isArray_of_container tagged (by decide))
          cases named.symm.trans named'
          exact ⟨_, rfl, stored⟩

-- A container of itself comes to an end where its name is met again.
theorem property_of_itself {inner : Schema} (refers : s.refName? = some name) (held : project.document.get? name = some own)
    (bare : own.hasStructure = false) (ends : own.refName? = none)
    (container : (own.inferTag project.settings.typeMappings).container? = some kind)
    (holds : own.content? kind = some inner) (again : inner.refName? = some name) (owner key : String) (session : Session) :
    ∃ p next, Resolution.property project owner key s session = .ok p next ∧ p.containerType = some kind ∧
      p.items?.map (·.dataType) = some (project.naming.modelName name) := by
  have reads : Unfolding.Reads project.document [] s own :=
    ⟨fun _ _ => List.not_mem_nil, Document.unalias_of_bare refers held bare ends, ends⟩
  have below : Unfolding.of project.document project.settings.typeMappings [name] inner = .ok (.model inner inner name) := by
    rw [Unfolding.of_eq]
    simp only [again, List.mem_singleton, if_true]
  have unfolds := reads.of_container container
  rw [refers, holds, Option.toList_some, List.nil_append, Option.getD_some, below] at unfolds
  obtain ⟨next, ran⟩ := property_of_unfolds unfolds owner key session
  exact ⟨_, next, ran, rfl, rfl⟩

-- Where a reference does not name the owner, the signature of the owner names what a property shows. So a model
-- made of the document's own schema of its name says what any reference to this name holds.
theorem types_named_alike (project : Project) :
    (∀ owner s, s.refName? ≠ some owner → ∀ requester key session p next,
      Resolution.property project requester key s session = .ok p next →
        ∀ other, ∃ after, Resolution.typeName project owner s other = .ok p.dataType after) ∧
    ∀ calls k name own m, Progress.Began project (Progress.upon project calls) k name own →
      project.document.get? name = some own → k.cache.entries.get? name = some (.ready m) →
      ∀ s, s.refName? = some name → ∀ requester key session p next,
        Resolution.property project requester key s session = .ok p next → m.NamesContent project s p := by
  constructor
  · intro owner s foreign requester key session p next ran other
    obtain ⟨unfolding, unfolds, rfl⟩ := property_unfolds requester key s session p next ran
    refine Resolution.typeName_of_ok (Unfolding.of_typeName? unfolds fun name refers => ?_) other
    simp only [List.not_mem_nil, false_iff]
    exact fun own => foreign (own ▸ refers)
  · intro calls k name own m began held ready s refers requester key session p next ran
    obtain ⟨unfolding, unfolds, rfl⟩ := property_unfolds requester key s session p next ran
    obtain ⟨target, led, signed⟩ := began.signs ready
    exact namesContent held led signed refers unfolds

def tree : Schema := { type := some (.single "array"), items := some (Schema.referenceTo "Tree") }

def index : Schema := { additionalProperties := some (.schema (Schema.referenceTo "Index")) }

-- An array of itself and a map of itself.
def selfContained : Project :=
  of GeneratorSettings.defaults { schemas := Table.ofEntries [("Tree", tree), ("Index", index)], fingerprint := "" }

theorem types_named_alike_selfContained :
    (∃ p next after m, Resolution.property selfContained "Wood" "oak" (Schema.referenceTo "Tree") {} = .ok p next ∧
      Resolution.typeName selfContained "Wood" (Schema.referenceTo "Tree") {} = .ok p.dataType after ∧
      (selfContained.perform [.resolve "Tree"]).cache.entries.get? "Tree" = some (.ready m) ∧
      p.containerType = some .array ∧ p.items?.map (·.dataType) = some "Tree" ∧ m.arrayModelType = some "Tree") ∧
    ∃ p next m, Resolution.property selfContained "Book" "index" (Schema.referenceTo "Index") {} = .ok p next ∧
      (selfContained.perform [.resolve "Index"]).cache.entries.get? "Index" = some (.ready m) ∧
      p.containerType = some .map ∧ p.items?.map (·.dataType) = some "Index" ∧
      m.additionalPropertiesType = some "Index" := by
  obtain ⟨alike, contents⟩ := types_named_alike selfContained
  constructor
  · have refers : (Schema.referenceTo "Tree").refName? = some "Tree" := by decide +kernel
    have held : selfContained.document.get? "Tree" = some tree := rfl
    have classname : selfContained.naming.modelName "Tree" = "Tree" := by decide +kernel
    have found : ((selfContained.perform [.resolve "Tree"]).cache.get? "Tree").isSome := by decide +kernel
    obtain ⟨m, ready⟩ := Cache.exists_ready found
    obtain ⟨p, next, ran, container, shown⟩ := property_of_itself refers held rfl rfl rfl rfl refers "Wood" "oak" {}
    rw [classname] at shown
    obtain ⟨after, named⟩ := alike "Wood" _ (by decide +kernel) _ _ _ _ _ ran {}
    have agree := contents [.resolve "Tree"] _ _ _ m (.of_call [] rfl) held ready _ refers _ _ _ _ _ ran
    rw [Model.NamesContent, container] at agree
    obtain ⟨content, items, stored⟩ := agree
    refine ⟨p, next, after, m, ran, named, ready, container, shown, stored.trans ?_⟩
    rwa [items] at shown
  · have refers : (Schema.referenceTo "Index").refName? = some "Index" := by decide +kernel
    have held : selfContained.document.get? "Index" = some index := rfl
    have classname : selfContained.naming.modelName "Index" = "Index" := by decide +kernel
    have found : ((selfContained.perform [.resolve "Index"]).cache.get? "Index").isSome := by decide +kernel
    obtain ⟨m, ready⟩ := Cache.exists_ready found
    obtain ⟨p, next, ran, container, shown⟩ := property_of_itself refers held rfl rfl rfl rfl refers "Book" "index" {}
    rw [classname] at shown
    have agree := contents [.resolve "Index"] _ _ _ m (.of_call [] rfl) held ready _ refers _ _ _ _ _ ran
    rw [Model.NamesContent, container] at agree
    obtain ⟨content, items, stored⟩ :=
      agree index (Schema.referenceTo "Index") (Document.unalias_of_bare refers held rfl rfl) rfl
    refine ⟨p, next, m, ran, ready, container, shown, stored.trans ?_⟩
    rwa [items] at shown

end Project
end ApiModels
