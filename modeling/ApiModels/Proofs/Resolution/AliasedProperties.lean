import ApiModels.Proofs.Resolution.ItemChains

namespace ApiModels

theorem Schema.hasStructure_of_eligible {own : Schema} (eligible : own.isAliasEligible) :
    own.hasStructure = false ↔ own.properties = [] := by
  simp only [isAliasEligible, Bool.not_eq_true', Bool.or_eq_false_iff] at eligible
  obtain ⟨⟨-, plain⟩, open_⟩ := eligible
  simp [hasStructure, plain, open_]

namespace Unfolding
variable {document : Document} {settings : GeneratorSettings} {s own target : Schema} {name : String} {unfolding : Unfolding}

theorem of_kept (refers : s.refName? = some name) (held : document.get? name = some own) (structured : own.hasStructure)
    (mappings : TypeMappings) : Unfolding.of document mappings [] s = .ok (.model s s name) := by
  have rests : document.Rests s := fun other named => by
    cases refers.symm.trans named
    exact ⟨own, held, structured⟩
  rw [of_eq]
  simp only [refers, List.not_mem_nil, if_false, rests.unalias]

theorem Reads.typed {met : List String} (reads : Reads document met s target)
    (unfolds : Unfolding.of document settings.typeMappings met s = .ok unfolding) (key : String) :
    (unfolding.toProperty settings key).typeTag = target.inferTag settings.typeMappings ∧
      (unfolding.toProperty settings key).complexType = none := by
  rw [of_reads reads] at unfolds
  split at unfolds
  · cases unfolds
    simp only [toProperty, valueLevel]
    split <;> exact ⟨rfl, rfl⟩
  · split at unfolds
    · cases unfolds
      exact ⟨rfl, rfl⟩
    · rename_i inner _
      cases below : Unfolding.of document settings.typeMappings (met ++ s.refName?.toList) inner with
      | error issue => simp [below, Except.map] at unfolds
      | ok inside =>
          rw [below] at unfolds
          cases unfolds
          exact ⟨rfl, rfl⟩

end Unfolding

namespace Project
variable {project : Project} {name : String} {tag : TypeTag} {own target : Schema}

-- An alias, the schema of its name, and the schema without a reference that this leads to.
structure Aliased (project : Project) (name : String) (tag : TypeTag) (own target : Schema) : Prop where
  listed : project.aliases.get? name = some tag
  held : project.document.get? name = some own
  led : project.document.unalias own = .ok target
  ends : target.refName? = none

def Unwraps (project : Project) : Prop :=
  ∀ name tag own target, project.Aliased name tag own target → ∀ s : Schema, s.refName? = some name →
    ∀ owner key session p next, Resolution.property project owner key s session = .ok p next →
      p.typeTag = tag ∧ p.complexType = none

def Defers (project : Project) (name : String) : Prop :=
  ∀ s : Schema, s.refName? = some name → ∀ owner key session, ∃ p next,
    Resolution.property project owner key s session = .ok p next ∧
      p.typeTag = .object ∧ p.complexType = some (project.naming.modelName name)

theorem Aliased.unwraps (analysed : project.aliases = project.document.aliases project.settings.typeMappings)
    (aliased : project.Aliased name tag own target) (bare : own.properties = []) {s : Schema}
    (refers : s.refName? = some name) (owner key : String) :
    Returns (fun p => p.typeTag = tag ∧ p.complexType = none) (Resolution.property project owner key s) := by
  intro session p next ran
  obtain ⟨unfolding, unfolds, rfl⟩ := property_unfolds owner key s session p next ran
  have listed := aliased.listed
  rw [analysed] at listed
  obtain ⟨same, held, eligible, told⟩ := Document.aliases_get?.mp listed
  cases aliased.held.symm.trans held
  have forwards : project.document.Forwards s own :=
    ⟨name, refers, held, (Schema.hasStructure_of_eligible eligible).mpr bare⟩
  rw [Document.aliasTag, aliased.led] at told
  have reads : Unfolding.Reads project.document [] s target :=
    ⟨fun _ _ => List.not_mem_nil, forwards.unalias.mpr aliased.led, aliased.ends⟩
  exact told ▸ reads.typed unfolds key

theorem Aliased.defers (aliased : project.Aliased name tag own target) (declares : own.properties ≠ []) :
    project.Defers name := by
  intro s refers owner key session
  have structured : own.hasStructure := by simp [Schema.hasStructure, declares]
  have unfolds := Unfolding.of_kept refers aliased.held structured project.settings.typeMappings
  obtain ⟨next, ran⟩ := property_of_unfolds unfolds owner key session
  exact ⟨_, next, ran, rfl, rfl⟩

theorem Unwraps.bare (unwraps : project.Unwraps) (aliased : project.Aliased name tag own target) {s : Schema}
    (refers : s.refName? = some name) : own.properties = [] := by
  by_contra declares
  obtain ⟨p, next, ran, -, named⟩ := aliased.defers declares s refers "" "" {}
  have unnamed := (unwraps name tag own target aliased s refers "" "" {} p next ran).2
  cases unnamed.symm.trans named

-- The table is right about what it calls an alias exactly where no alias that can be referred to declares
-- properties.
theorem property_unwraps_iff (settings : GeneratorSettings) (document : Document) :
    ((of settings document).Unwraps ↔ ∀ name tag own target, (of settings document).Aliased name tag own target →
      (∃ s : Schema, s.refName? = some name) → own.properties = []) ∧
    ∀ name tag own target, (of settings document).Aliased name tag own target → own.properties ≠ [] →
      (of settings document).Defers name := by
  refine ⟨⟨fun unwraps name tag own target aliased => ?_, fun bare name tag own target aliased s refers => ?_⟩,
    fun name tag own target aliased declares => aliased.defers declares⟩
  · intro ⟨s, refers⟩
    exact unwraps.bare aliased refers
  · exact fun owner key => aliased.unwraps rfl (bare name tag own target aliased ⟨s, refers⟩) refers owner key

def coded : Document where
  schemas := Table.ofEntries [
    ("Code", { type := some (.single "string"), properties := [("digits", { type := some (.single "integer") })] }),
    ("Item", { properties := [("code", Schema.referenceTo "Code")] })]
  fingerprint := ""

-- The table takes it for a string, and a property that refers to it for a model.
theorem not_unwraps_coded : ¬ (of GeneratorSettings.defaults coded).Unwraps := by
  intro unwraps
  have rests : coded.Rests
      { type := some (.single "string"), properties := [("digits", { type := some (.single "integer") })] } :=
    fun name refers => nomatch refers
  have aliased : (of GeneratorSettings.defaults coded).Aliased "Code" .string _ _ :=
    ⟨by decide +kernel, rfl, rests.unalias, rfl⟩
  have referred : (Schema.referenceTo "Code").refName? = some "Code" := by decide +kernel
  cases unwraps.bare aliased referred

end Project
end ApiModels
