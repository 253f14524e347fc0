import ApiModels.Proofs.Resolution.Segments

namespace ApiModels
namespace Model

structure Declaring (R : Model → Model → Prop) : Prop where
  refl : ∀ m, R m m
  trans : ∀ {a b c}, R a b → R b c → R a c
  declare : ∀ (m : Model) (p : Property), R m (m.declare p)
  requireName : ∀ (m : Model) (name : String), (m.property? name).isSome → R m (m.requireName name)
  refresh : ∀ m : Model, R m m.refresh

end Model

theorem Resolution.reportNote_ok (subject : String) (note : Option InferenceNote) (session : Session) :
    ∃ after, reportNote subject note session = .ok () after := by
  unfold reportNote
  cases note <;> exact ⟨_, rfl⟩

namespace Project
variable {project : Project}

def Makes (project : Project) (p : Property) : Prop :=
  ∃ name s unfolding, Unfolding.of project.document project.settings.typeMappings [] s = .ok unfolding ∧
    p = unfolding.toProperty project.settings name

theorem property_unfolds (owner name : String) (s : Schema) : Returns
    (fun p => ∃ unfolding, Unfolding.of project.document project.settings.typeMappings [] s = .ok unfolding ∧
      p = unfolding.toProperty project.settings name)
    (Resolution.property project owner name s) := by
  intro session p next ran
  obtain ⟨unfolding, _, unfolds, ran⟩ := bind_ok.mp ran
  obtain ⟨_, _, _, ran⟩ := bind_ok.mp ran
  cases ran
  exact ⟨unfolding, (Resolution.ofExcept_ok unfolds).1, rfl⟩

theorem property_of_unfolds {s : Schema} {unfolding : Unfolding}
    (unfolds : Unfolding.of project.document project.settings.typeMappings [] s = .ok unfolding) (owner name : String)
    (session : Session) :
    ∃ next, Resolution.property project owner name s session = .ok (unfolding.toProperty project.settings name) next := by
  obtain ⟨after, noted⟩ := Resolution.reportNote_ok owner (unfolding.guess? project.settings.typeMappings) session
  refine ⟨after, bind_ok.mpr ⟨unfolding, session, ?_, bind_ok.mpr ⟨(), after, noted, rfl⟩⟩⟩
  rw [unfolds]
  rfl

theorem property_makes (owner name : String) (s : Schema) : Returns project.Makes (Resolution.property project owner name s) :=
  fun session p next ran => ⟨name, s, property_unfolds owner name s session p next ran⟩

end Project

namespace Model

structure Admitting (project : Project) (R : Model → Model → Prop) : Prop where
  refl : ∀ m, R m m
  trans : ∀ {a b c}, R a b → R b c → R a c
  declare : ∀ (m : Model) (p : Property), project.Makes p → R m (m.declare p)
  requireName : ∀ (m : Model) (name : String), (m.property? name).isSome → R m (m.requireName name)
  refresh : ∀ m : Model, R m m.refresh

theorem Declaring.admitting {R : Model → Model → Prop} (law : Declaring R) (project : Project) : Admitting project R where
  refl := law.refl
  trans := law.trans
  declare m p _ := law.declare m p
  requireName := law.requireName
  refresh := law.refresh

-- Parents listed before the kept one are collapsed.
def adopt (m : Model) (parents : List Model) : Model :=
  match parents.getLast? with
  | none => m
  | some parent =>
      let collapsed := parents.dropLast.map (·.name)
      (if collapsed.isEmpty then m else { m with collapsedParents := collapsed }).extend parent

def lineage (m : Model) : List String := m.collapsedParents ++ m.parentName.toList

@[simp] theorem extend_collapsedParents (m parent : Model) : (m.extend parent).collapsedParents = m.collapsedParents := by
  simp [extend, inherit, addImport_eq]

structure SameOutline (m next : Model) : Prop where
  classname : next.classname = m.classname
  modelJson : next.modelJson = m.modelJson
  isAlias : next.isAlias = m.isAlias
  isEnum : next.isEnum = m.isEnum

theorem SameOutline.refl (m : Model) : m.SameOutline m := ⟨rfl, rfl, rfl, rfl⟩

theorem SameOutline.trans {a b c : Model} (first : a.SameOutline b) (second : b.SameOutline c) : a.SameOutline c where
  classname := second.classname.trans first.classname
  modelJson := second.modelJson.trans first.modelJson
  isAlias := second.isAlias.trans first.isAlias
  isEnum := second.isEnum.trans first.isEnum

theorem extend_sameOutline (m parent : Model) : m.SameOutline (m.extend parent) := by
  constructor <;> simp [extend, inherit, addImport_eq]

theorem adopt_sameOutline (m : Model) (parents : List Model) : m.SameOutline (m.adopt parents) := by
  unfold adopt
  split
  · exact .refl m
  · have collapsed (names : List String) : m.SameOutline { m with collapsedParents := names } := ⟨rfl, rfl, rfl, rfl⟩
    dsimp only
    split
    · exact extend_sameOutline m _
    · exact (collapsed _).trans (extend_sameOutline _ _)

theorem adopt_lineage {m : Model} (first : m.lineage = []) (parents : List Model) :
    (m.adopt parents).lineage = parents.map (·.name) := by
  obtain ⟨none_, single⟩ := List.append_eq_nil_iff.mp first
  unfold adopt
  cases last : parents.getLast? with
  | none =>
      rw [List.getLast?_eq_none_iff.mp last]
      exact first
  | some parent =>
      obtain ⟨before, rfl⟩ := List.getLast?_eq_some_iff.mp last
      dsimp only
      rw [List.dropLast_concat, List.map_append]
      split
      · rename_i alone
        simp [lineage, extend_parentName, none_, List.isEmpty_iff.mp alone]
      · simp [lineage, extend_parentName]

theorem adopt_parentName {m : Model} (first : m.lineage = []) (parents : List Model) :
    (m.adopt parents).parentName = parents.getLast?.map (·.name) := by
  unfold adopt
  cases parents.getLast? with
  | none => simpa using (List.append_eq_nil_iff.mp first).2
  | some parent => exact extend_parentName _ _

theorem adopt_keeps {P : Model → Prop} {m : Model} {parents : List Model}
    (collapsed : ∀ {m : Model} (names : List String), P m → P { m with collapsedParents := names })
    (extended : ∀ {m parent : Model}, P m → P parent → P (m.extend parent))
    (holds : P m) (elders : ∀ parent ∈ parents, P parent) : P (m.adopt parents) := by
  unfold adopt
  cases last : parents.getLast? with
  | none => exact holds
  | some parent =>
      have elder := elders parent (List.mem_of_getLast? last)
      dsimp only
      split
      · exact extended holds elder
      · exact extended (collapsed _ holds) elder

-- What declaring properties leaves alone.
structure Retains (m next : Model) : Prop extends SameOutline m next where
  parentName : next.parentName = m.parentName
  collapsedParents : next.collapsedParents = m.collapsedParents

theorem Retains.lineage {m next : Model} (kept : m.Retains next) : next.lineage = m.lineage := by
  unfold Model.lineage
  rw [kept.collapsedParents, kept.parentName]

theorem retains : Declaring Retains where
  refl m := ⟨.refl m, rfl, rfl⟩
  trans first second := ⟨first.toSameOutline.trans second.toSameOutline, second.parentName.trans first.parentName,
    second.collapsedParents.trans first.collapsedParents⟩
  declare _ _ := ⟨⟨rfl, rfl, rfl, rfl⟩, rfl, rfl⟩
  requireName _ _ _ := ⟨⟨rfl, rfl, rfl, rfl⟩, rfl, rfl⟩
  refresh _ := ⟨⟨rfl, rfl, rfl, rfl⟩, rfl, rfl⟩

theorem addImports_retains (m : Model) (names : List String) : m.Retains (m.addImports names) := by
  obtain ⟨imports, eq⟩ := addImports_eq m names
  rw [eq]
  exact ⟨⟨rfl, rfl, rfl, rfl⟩, rfl, rfl⟩

theorem setItems_retains (m : Model) (settings : GeneratorSettings) (target items : Schema) (itemType : String) :
    m.Retains (m.setItems settings target items itemType) := by
  have array : m.Retains { m with isArrayModel := true, arrayModelType := some itemType } :=
    ⟨⟨rfl, rfl, rfl, rfl⟩, rfl, rfl⟩
  have instantiated (m : Model) (instantiation : String) : m.Retains (m.importInstantiation instantiation itemType) := by
    have parented : m.Retains { m with containerParent := some (instantiation ++ "<" ++ itemType ++ ">") } :=
      ⟨⟨rfl, rfl, rfl, rfl⟩, rfl, rfl⟩
    exact retains.trans parented (addImports_retains _ [instantiation])
  unfold setItems
  dsimp only
  split <;> split
  · exact retains.trans array (retains.trans (instantiated _ _) (addImports_retains _ [itemType]))
  · exact retains.trans array (addImports_retains _ [itemType])
  · exact retains.trans array (instantiated _ _)
  · exact array

theorem arrange_retains (settings : GeneratorSettings) (m : Model) : m.Retains
    ((sortIfAsked settings (m.collectImports settings).dedupeProperties.refresh).addImports settings.modelImports) := by
  have sorted (m : Model) : m.Retains (sortIfAsked settings m) := by
    unfold sortIfAsked
    split <;> exact ⟨⟨rfl, rfl, rfl, rfl⟩, rfl, rfl⟩
  have arranged (m : Model) : m.Retains m.dedupeProperties.refresh := ⟨⟨rfl, rfl, rfl, rfl⟩, rfl, rfl⟩
  exact retains.trans (addImports_retains m _) <| retains.trans (arranged _) <| retains.trans (sorted _) <|
    addImports_retains _ _

theorem complete_retains (settings : GeneratorSettings) (m : Model) : m.Retains (m.complete settings) := by
  refine retains.trans (arrange_retains settings m) ?_
  unfold complete converterImport
  dsimp only
  split
  · exact retains.refl _
  · exact addImports_retains _ [_]

theorem implement_retains (m : Model) (links : List PendingLink) : m.Retains (links.foldl Cache.implement m) := by
  have linked (m : Model) (link : PendingLink) : m.Retains (Cache.implement m link) := by
    have imported : (m.addInterface link.parent).Retains (Cache.implement m link) := addImports_retains _ [link.parentClass]
    exact ⟨⟨imported.classname, imported.modelJson, imported.isAlias, imported.isEnum⟩, imported.parentName,
      imported.collapsedParents⟩
  exact List.foldlRecOn links Cache.implement (retains.refl m) fun _ kept link _ => retains.trans kept (linked _ link)

end Model

namespace Drafting
variable {project : Project} {R : Model → Model → Prop}

def Between (R : Model → Model → Prop) (d next : Draft) : Prop := R d.model next.model

def AnyFault (_ : Draft) (_ : ModelError) : Prop := True

def Moves {α : Type} (R : Model → Model → Prop) (action : Drafting α) : Prop := Within (Between R) AnyFault action

theorem ofResolution_returns {α : Type} {P : α → Prop} {action : Resolution α} (gives : Returns P action) :
    Returns P (ofResolution action) := by
  intro d a next ran
  unfold ofResolution at ran
  cases outcome : action d.session with
  | ok b session =>
      rw [outcome] at ran
      cases ran
      exact gives d.session a session outcome
  | error e session =>
      rw [outcome] at ran
      cases ran

variable (law : Model.Admitting project R)
include law

theorem moves : Discipline (Between R) AnyFault where
  refl d := law.refl d.model
  trans := law.trans
  stable _ _ := trivial

theorem ofResolution_moves {α : Type} (action : Resolution α) : Moves R (ofResolution action) := by
  intro d
  unfold WithinAt ofResolution
  cases action d.session with
  | ok a session => exact law.refl d.model
  | error e session => exact ⟨law.refl d.model, trivial⟩

theorem report_moves (code : DiagnosticCode) (message : String) : Moves R (report code message) := by
  intro d
  exact ofResolution_moves law (Resolution.report d.model.name code message) d

theorem declareProperty_moves (name : String) (s : Schema) : Moves R (declareProperty project name s) := by
  intro d
  change WithinAt (Between R) AnyFault (ofResolution (Resolution.property project d.model.name name s) >>= fun p => edit (·.declare p)) d
  have made : Returns project.Makes (ofResolution (Resolution.property project d.model.name name s)) :=
    ofResolution_returns (Project.property_makes d.model.name name s)
  exact WithinAt.bind_returns (moves law) (ofResolution_moves law _ d) made fun p makes d => law.declare d.model p makes

theorem declareRequired_moves (name : String) : Moves R (declareRequired name) := by
  intro d
  change WithinAt (Between R) AnyFault (if (d.model.property? name).isSome then edit (·.requireName name) else _) d
  split
  · exact law.requireName d.model name ‹_›
  · exact report_moves law _ _ d

theorem declaration_moves : Declaration project (Between R) AnyFault where
  toDiscipline := moves law
  property := declareProperty_moves law
  required := declareRequired_moves law
  refresh d := law.refresh d.model
  report code message _ := report_moves law code message

theorem declare_moves (properties : List (String × Schema)) (required : List String) :
    Moves R (declare project properties required) := (declaration_moves law).declare properties required

omit law in
theorem linkParent_run (parents : List Model) (d : Draft) :
    ∃ session, linkParent parents d = .ok () ⟨session, d.model.adopt parents⟩ := by
  unfold linkParent Model.adopt
  cases parents.getLast? with
  | none => exact ⟨d.session, rfl⟩
  | some parent =>
      dsimp only
      unfold noteCollapsed
      split
      · exact ⟨d.session, rfl⟩
      · exact ⟨_, rfl⟩

theorem inheritFrom_moves {members : List Schema} {parents : List Model} {d next : Draft}
    (alone : members = [] → parents = []) (ran : inheritFrom project members parents d = .ok () next) :
    R (d.model.adopt parents) next.model := by
  unfold inheritFrom at ran
  split at ran
  · rename_i empty
    cases ran
    rw [alone (List.isEmpty_iff.mp empty)]
    exact law.refl d.model
  obtain ⟨_, linked, links, ran⟩ := bind_ok.mp ran
  obtain ⟨session, adopted⟩ := linkParent_run parents d
  cases adopted.symm.trans links
  have inlined : Moves R ((members.filter (·.reference.isNone)).forM fun member =>
      declare project member.properties member.required) :=
    Within.forM (moves law) _ fun member _ => declare_moves law member.properties member.required
  obtain ⟨_, declared, declares, ran⟩ := bind_ok.mp ran
  cases ran
  exact law.trans ((inlined _).ok declares) (law.refresh declared.model)

-- Before its arms are asked for, a draft adopts its parents and then declares properties.
theorem groundwork_moves {target : Schema} {parents : List Model} {d next : Draft}
    (alone : target.allOfMembers = [] → parents = [])
    (ran : groundwork project target parents d = .ok () next) : R (d.model.adopt parents) next.model := by
  have declares : Declaration project (Between R) AnyFault := declaration_moves law
  unfold groundwork at ran
  split at ran
  · obtain ⟨_, d₁, inherited, ran⟩ := bind_ok.mp ran
    obtain ⟨_, d₂, declared, ran⟩ := bind_ok.mp ran
    obtain ⟨_, d₃, reported, ran⟩ := bind_ok.mp ran
    have last : R d₂.model d₃.model := (declares.reportBranches target d₂).ok reported
    obtain ⟨session, announced, -⟩ := announce_run target d₃
    cases announced.symm.trans ran
    exact law.trans (inheritFrom_moves law alone inherited) (law.trans ((declares.declare _ _ d₁).ok declared) last)
  · rename_i plain
    have memberless : target.allOfMembers = [] := by
      by_contra some
      exact plain (by simp [Schema.isComposed, some])
    rw [alone memberless]
    exact (declares.flat target d).ok ran

end Drafting

namespace Resolution

structure Outlines (project : Project) (name : String) (written target : Schema) (m : Model) : Prop where
  classname : m.classname = project.naming.modelName name
  modelJson : m.modelJson = written.prettyText
  isAlias : m.isAlias = ((project.aliases.get? name).isSome || target.isAliasEligible)
  isEnum : m.isEnum = target.hasEnum
  lineage : m.lineage = []

theorem Outlines.retains {project : Project} {name : String} {written target : Schema} {m next : Model}
    (outlines : Outlines project name written target m) (kept : m.Retains next) :
    Outlines project name written target next where
  classname := kept.classname.trans outlines.classname
  modelJson := kept.modelJson.trans outlines.modelJson
  isAlias := kept.isAlias.trans outlines.isAlias
  isEnum := kept.isEnum.trans outlines.isEnum
  lineage := kept.lineage.trans outlines.lineage

theorem outline_described {project : Project} (name : String) (written target : Schema) :
    Returns (Outlines project name written target) (outline project name written target) := by
  refine Returns.bind fun tag => Returns.bind fun _ => Returns.bind fun extrasType => ?_
  have typed : Outlines project name written target
      (((((Model.new project.naming name).describe written target).setType project target tag).setNullable
        written target).setExtras target extrasType) := ⟨rfl, rfl, rfl, rfl, rfl⟩
  unfold withItems
  split
  · exact Returns.bind fun itemType => Returns.pure (typed.retains (Model.setItems_retains _ _ _ _ _))
  · exact Returns.pure typed

theorem opening_outline {project : Project} {name : String} {written target : Schema} {outlined : Model}
    {s next : Session} (ran : opening project name written s = .ok (target, outlined) next) :
    ∃ before after, outline project name written target before = .ok outlined after := by
  obtain ⟨_, s₁, -, ran⟩ := bind_ok.mp ran
  obtain ⟨target', s₂, -, ran⟩ := bind_ok.mp ran
  obtain ⟨outlined', s₃, outlines, ran⟩ := bind_ok.mp ran
  obtain ⟨_, s₄, -, ran⟩ := bind_ok.mp ran
  cases ran
  exact ⟨s₂, s₃, outlines⟩

theorem opening_described {project : Project} {name : String} {written target : Schema} {outlined : Model}
    {s next : Session} (ran : opening project name written s = .ok (target, outlined) next) :
    Outlines project name written target outlined := by
  obtain ⟨before, after, outlines⟩ := opening_outline ran
  exact outline_described name written target before outlined after outlines

end Resolution
end ApiModels
