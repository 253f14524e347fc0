import ApiModels.Proofs.Resolution.Drafts

namespace ApiModels

structure Level.Wraps (l : Level) : Prop where
  isContainer : l.isContainer
  containerType : ∃ kind, l.containerType = some kind ∧ l.typeTag.container? = some kind
  complexType : l.complexType = none

inductive Level.Means (project : Project) (l : Level) : Prop where
  | model {name : String} : name ∈ project.document.names → l.complexType = some (project.naming.modelName name) →
      l.dataType = project.naming.modelName name → l.imports = NameSet.ofList [project.naming.modelName name] →
      Means project l
  | type : l.complexType = none → l.dataType = l.typeTag.text → l.imports =
      (if project.settings.needsImport l.typeTag.text then NameSet.ofList [l.typeTag.text] else NameSet.empty) →
      Means project l

structure Level.Ends (project : Project) (l : Level) : Prop where
  isContainer : l.isContainer = false
  containerType : l.containerType = none
  typeTag : l.typeTag.container? = none
  means : l.Means project

inductive Level.Chain (project : Project) : Level → List Level → Prop where
  | single {level : Level} : level.Ends project → Chain project level []
  | wrap {level next : Level} {rest : List Level} : level.Wraps → level.imports = next.imports →
      Chain project next rest → Chain project level (next :: rest)

def Property.Chained (project : Project) (p : Property) : Prop := Level.Chain project p.toLevel p.inner

namespace Level.Chain
variable {project : Project} {level : Level} {rest : List Level}

theorem mark (chain : Chain project level rest) (required : Bool) : Chain project { level with required } rest := by
  cases chain with
  | single ends =>
      refine .single ⟨ends.isContainer, ends.containerType, ends.typeTag, ?_⟩
      cases ends.means with
      | model known complexType dataType imports => exact .model known complexType dataType imports
      | type complexType dataType imports => exact .type complexType dataType imports
  | wrap wraps imports chain => exact .wrap ⟨wraps.isContainer, wraps.containerType, wraps.complexType⟩ imports chain

theorem last (chain : Chain project level rest) : (rest.getLastD level).Ends project := by
  induction chain with
  | single ends => exact ends
  | @wrap level next rest wraps imports chain ih =>
      rw [List.getLastD_cons]
      exact ih

theorem imports (chain : Chain project level rest) : (rest.getLastD level).imports = level.imports := by
  induction chain with
  | single ends => rfl
  | @wrap level next rest wraps imports chain ih =>
      rw [List.getLastD_cons, imports]
      exact ih

theorem complexType (chain : Chain project level rest) {l : Level} (listed : l ∈ level :: rest) {name : String}
    (refers : l.complexType = some name) : name ∈ level.imports := by
  induction chain with
  | single ends =>
      cases List.mem_singleton.mp listed
      cases ends.means with
      | model known complexType dataType imports =>
          cases complexType.symm.trans refers
          rw [imports]
          exact (NameSet.mem_ofList _ _).mpr List.mem_cons_self
      | type complexType => cases complexType.symm.trans refers
  | @wrap level next rest wraps imports chain ih =>
      rcases List.mem_cons.mp listed with rfl | inner
      · cases wraps.complexType.symm.trans refers
      · rw [imports]
        exact ih inner

theorem containerType (chain : Chain project level rest) {l : Level} (listed : l ∈ level :: rest) {kind : ContainerKind}
    (holds : l.containerType = some kind) : level.isContainer := by
  cases chain with
  | single ends =>
      cases List.mem_singleton.mp listed
      cases ends.containerType.symm.trans holds
  | wrap wraps => exact wraps.isContainer

theorem mapped (chain : Chain project level rest) (plain : (rest.getLastD level).complexType = none)
    (needed : project.settings.needsImport (rest.getLastD level).typeTag.text) :
    (rest.getLastD level).typeTag.text ∈ level.imports := by
  rw [← chain.imports]
  cases chain.last.means with
  | model known complexType => cases complexType.symm.trans plain
  | type complexType dataType imports =>
      rw [imports, if_pos needed]
      exact (NameSet.mem_ofList _ _).mpr List.mem_cons_self

theorem of_imports (chain : Chain project level rest) {name : String} (listed : name ∈ level.imports) :
    (∃ other ∈ project.document.names, name = project.naming.modelName other) ∨ project.settings.needsImport name := by
  rw [← chain.imports] at listed
  cases chain.last.means with
  | @model other known complexType dataType imports =>
      rw [imports] at listed
      exact .inl ⟨other, known, List.mem_singleton.mp ((NameSet.mem_ofList _ _).mp listed)⟩
  | type complexType dataType imports =>
      rw [imports] at listed
      split at listed
      · rename_i needed
        exact .inr (List.mem_singleton.mp ((NameSet.mem_ofList _ _).mp listed) ▸ needed)
      · cases listed

end Level.Chain

theorem Property.Chained.mark {project : Project} {p : Property} (chained : p.Chained project) (required : Bool) :
    Property.Chained project { p with required } := Level.Chain.mark chained required

namespace Unfolding
variable {project : Project} {name : String}

theorem value_chained {written target : Schema} (plain : (target.inferTag project.settings.typeMappings).container? = none) :
    ((Unfolding.value written target).toProperty project.settings name).Chained project := by
  unfold toProperty valueLevel
  dsimp only
  split
  · rename_i needed
    exact .single ⟨rfl, rfl, plain, .type rfl rfl (if_pos needed).symm⟩
  · rename_i needless
    exact .single ⟨rfl, rfl, plain, .type rfl rfl (if_neg needless).symm⟩

theorem model_chained {written target : Schema} {other : String} (known : other ∈ project.document.names) :
    ((Unfolding.model written target other).toProperty project.settings name).Chained project :=
  .single ⟨rfl, rfl, rfl, .model known rfl rfl rfl⟩

theorem container_chained {written target : Schema} {kind : ContainerKind} {inner : Unfolding}
    (container : (target.inferTag project.settings.typeMappings).container? = some kind)
    (chained : (inner.toProperty project.settings name).Chained project) :
    ((Unfolding.container written target kind inner).toProperty project.settings name).Chained project :=
  .wrap ⟨rfl, ⟨kind, rfl, container⟩, rfl⟩ rfl chained

-- The names met on the way down are names of the document, and so are those that are kept as references.
theorem of_chained {met : List String} {s : Schema} {unfolding : Unfolding}
    (unfolds : Unfolding.of project.document project.settings.typeMappings met s = .ok unfolding)
    (known : ∀ other ∈ met, other ∈ project.document.names) :
    (unfolding.toProperty project.settings name).Chained project := by
  have blank : ((Unfolding.value Schema.blank Schema.blank).toProperty project.settings name).Chained project :=
    value_chained rfl
  fun_induction Unfolding.of project.document project.settings.typeMappings met s generalizing unfolding with
  | case1 met s refers plain =>
      cases unfolds
      exact value_chained plain
  | case2 met s refers kind container holds =>
      cases unfolds
      exact container_chained container blank
  | case3 met s refers kind container inner holds ih =>
      cases below : Unfolding.of project.document project.settings.typeMappings met inner with
      | error issue => simp [below, Except.map] at unfolds
      | ok inside =>
          simp only [below, Except.map, Except.ok.injEq] at unfolds
          subst unfolds
          exact container_chained container (ih below known)
  | case4 met s other refers listed =>
      cases unfolds
      exact model_chained (known other listed)
  | case5 met s other refers fresh issue followed => cases unfolds
  | case6 met s other refers fresh target followed last ends =>
      cases unfolds
      exact model_chained (Document.unalias_known followed ends)
  | case7 met s other refers fresh target followed ends plain =>
      cases unfolds
      exact value_chained plain
  | case8 met s other refers fresh target followed ends kind container within =>
      cases unfolds
      exact container_chained container blank
  | case9 met s other refers fresh target followed ends kind container inner within ih =>
      cases below : Unfolding.of project.document project.settings.typeMappings (met ++ [other]) inner with
      | error issue => simp [below, Except.map] at unfolds
      | ok inside =>
          simp only [below, Except.map, Except.ok.injEq] at unfolds
          subst unfolds
          refine container_chained container (ih below fun passed listed => ?_)
          rcases List.mem_append.mp listed with old | new
          · exact known passed old
          · cases List.mem_singleton.mp new
            exact Document.mem_names_of_unalias refers followed

end Unfolding

theorem Project.Makes.chained {project : Project} {p : Property} (makes : project.Makes p) : p.Chained project := by
  obtain ⟨name, s, unfolding, unfolds, rfl⟩ := makes
  exact Unfolding.of_chained unfolds fun _ none => absurd none List.not_mem_nil

end ApiModels
