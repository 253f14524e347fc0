import ApiModels.Proofs.Resolution.Calls
import ApiModels.Proofs.Resolution.Origins
import ApiModels.Proofs.Resolution.TypeNames

namespace ApiModels
namespace Model
variable {project : Project} {name : String} {target : Schema} {m next : Model}

structure Signature where
  dataType : String
  isMapModel : Bool
  isArrayModel : Bool
  additionalPropertiesType : Option String
  arrayModelType : Option String

def signature (m : Model) : Signature where
  dataType := m.dataType
  isMapModel := m.isMapModel
  isArrayModel := m.isArrayModel
  additionalPropertiesType := m.additionalPropertiesType
  arrayModelType := m.arrayModelType

@[simp] theorem addImports_signature (m : Model) (names : List String) : (m.addImports names).signature = m.signature := by
  obtain ⟨imports, eq⟩ := addImports_eq m names
  rw [eq]
  rfl

@[simp] theorem addImport_signature (m : Model) (name : String) : (m.addImport name).signature = m.signature :=
  addImports_signature m [name]

theorem extend_signature (m parent : Model) : (m.extend parent).signature = m.signature := by
  simp [extend, inherit, addImport_eq, signature]

theorem adopt_signature (m : Model) (parents : List Model) : (m.adopt parents).signature = m.signature := by
  unfold adopt
  split
  · rfl
  · dsimp only
    rw [extend_signature]
    split <;> rfl

theorem setItems_signature (m : Model) (settings : GeneratorSettings) (target items : Schema) (itemType : String) :
    (m.setItems settings target items itemType).signature =
      { m.signature with isArrayModel := true, arrayModelType := some itemType } := by
  unfold setItems
  dsimp only
  split <;> split
  · exact (addImport_signature _ _).trans (addImport_signature _ _)
  · exact addImport_signature _ _
  · exact addImport_signature _ _
  · rfl

theorem complete_signature (settings : GeneratorSettings) (m : Model) : (m.complete settings).signature = m.signature := by
  have sorted (m : Model) : (sortIfAsked settings m).signature = m.signature := by
    unfold sortIfAsked
    split <;> rfl
  have imported (m : Model) : (converterImport settings m).signature = m.signature := by
    unfold converterImport
    split
    · rfl
    · exact addImport_signature _ _
  have arranged (m : Model) : m.dedupeProperties.refresh.signature = m.signature := rfl
  unfold complete collectImports
  rw [imported, addImports_signature, sorted, arranged, addImports_signature]

theorem implement_signature (m : Model) (links : List PendingLink) :
    (links.foldl Cache.implement m).signature = m.signature :=
  List.foldlRecOn (motive := (·.signature = m.signature)) links Cache.implement rfl fun linked kept link _ =>
    (addImport_signature (linked.addInterface link.parent) link.parentClass).trans kept

theorem signature_kept (project : Project) : Admitting project fun m next => next.signature = m.signature where
  refl _ := rfl
  trans first second := second.trans first
  declare _ _ _ := rfl
  requireName _ _ _ := rfl
  refresh _ := rfl

structure Signed (project : Project) (name : String) (target : Schema) (m : Model) : Prop where
  dataType : m.dataType =
    (target.refName?.map project.naming.modelName).getD (target.inferTag project.settings.typeMappings).text
  isMapModel : m.isMapModel = target.isMap
  isArrayModel : m.isArrayModel = target.isArray
  extras : ∀ value, target.additionalProperties = some (.schema value) →
    ∃ text, project.typeName? name value = .ok text ∧ m.additionalPropertiesType = some text
  items : target.isArray → ∃ text, project.typeName? name (target.items.getD Schema.blank) = .ok text ∧
    m.arrayModelType = some text

theorem Signed.keeps (signed : m.Signed project name target) (same : next.signature = m.signature) :
    next.Signed project name target where
  dataType := (congrArg Signature.dataType same).trans signed.dataType
  isMapModel := (congrArg Signature.isMapModel same).trans signed.isMapModel
  isArrayModel := (congrArg Signature.isArrayModel same).trans signed.isArrayModel
  extras value held := by
    obtain ⟨text, named, stored⟩ := signed.extras value held
    exact ⟨text, named, (congrArg Signature.additionalPropertiesType same).trans stored⟩
  items array := by
    obtain ⟨text, named, stored⟩ := signed.items array
    exact ⟨text, named, (congrArg Signature.arrayModelType same).trans stored⟩

theorem setItems_signed {items : Schema} {itemType : String}
    (dataType : m.dataType =
      (target.refName?.map project.naming.modelName).getD (target.inferTag project.settings.typeMappings).text)
    (isMapModel : m.isMapModel = target.isMap)
    (extras : ∀ value, target.additionalProperties = some (.schema value) →
      ∃ text, project.typeName? name value = .ok text ∧ m.additionalPropertiesType = some text)
    (array : target.isArray) (named : project.typeName? name (target.items.getD Schema.blank) = .ok itemType) :
    (m.setItems project.settings target items itemType).Signed project name target := by
  have shown := setItems_signature m project.settings target items itemType
  refine ⟨(congrArg Signature.dataType shown).trans dataType, (congrArg Signature.isMapModel shown).trans isMapModel,
    (congrArg Signature.isArrayModel shown).trans array.symm, fun value held => ?_, fun _ => ?_⟩
  · obtain ⟨text, typed, stored⟩ := extras value held
    exact ⟨text, typed, (congrArg Signature.additionalPropertiesType shown).trans stored⟩
  · exact ⟨itemType, named, congrArg Signature.arrayModelType shown⟩

end Model

namespace Resolution
variable {project : Project} {name : String} {written target : Schema} {m : Model}

theorem infer_returns (project : Project) (subject : String) (s : Schema) :
    Returns (· = s.inferTag project.settings.typeMappings) (infer project subject s) :=
  Returns.bind fun _ => Returns.pure rfl

theorem extrasType_returns (project : Project) (name : String) (target : Schema) :
    Returns (fun extras => ∀ value, target.additionalProperties = some (.schema value) →
      ∃ text, project.typeName? name value = .ok text ∧ extras = some text) (extrasType project name target) := by
  unfold extrasType
  split
  · rename_i value held
    intro session extras next ran other found
    obtain ⟨text, _, named, ran⟩ := bind_ok.mp ran
    cases ran
    cases held.symm.trans found
    exact ⟨text, typeName_ok named, rfl⟩
  · rename_i open_
    exact Returns.pure fun value found => absurd found (open_ value)

theorem outline_signed (name : String) (written target : Schema) :
    Returns (Model.Signed project name target) (outline project name written target) := by
  intro session m next ran
  obtain ⟨tag, _, inferred, ran⟩ := bind_ok.mp ran
  obtain ⟨_, _, -, ran⟩ := bind_ok.mp ran
  obtain ⟨extras, _, typed, ran⟩ := bind_ok.mp ran
  obtain rfl := infer_returns project name target _ _ _ inferred
  have told := extrasType_returns project name target _ _ _ typed
  unfold withItems at ran
  split at ran
  · rename_i array
    obtain ⟨itemType, _, named, ran⟩ := bind_ok.mp ran
    cases ran
    exact Model.setItems_signed rfl rfl told array (typeName_ok named)
  · rename_i plain
    cases ran
    exact ⟨rfl, rfl, (Bool.eq_false_iff.mpr plain).symm, told, fun array => absurd array plain⟩

theorem opening_signed {session next : Session} (ran : opening project name written session = .ok (target, m) next) :
    m.Signed project name target := by
  obtain ⟨before, after, outlines⟩ := opening_outline ran
  exact outline_signed name written target before m after outlines

end Resolution

namespace Drafting
variable {project : Project} {target : Schema} {parents : List Model} {d next : Draft}

theorem groundwork_signature (alone : target.allOfMembers = [] → parents = [])
    (ran : groundwork project target parents d = .ok () next) : next.model.signature = d.model.signature :=
  (groundwork_moves (Model.signature_kept project) alone ran).trans (Model.adopt_signature d.model parents)

end Drafting

-- The model that a build works on is signed by what the references of its schema lead to.
inductive Build.Signed (project : Project) : Build → Prop where
  | opening {name : String} {written : Schema} : Signed project ⟨name, written, .opening⟩
  | inheriting {name : String} {written target : Schema} {outlined : Model} {parents : List Model} {rest : List Request} :
      project.document.unalias written = .ok target → outlined.Signed project name target →
      target.parentRequests.length = parents.length + rest.length →
      Signed project ⟨name, written, .inheriting target outlined parents rest⟩
  | linking {name : String} {written target : Schema} {m : Model} {rest : List Request} :
      project.document.unalias written = .ok target → m.Signed project name target →
      Signed project ⟨name, written, .linking m rest⟩

namespace Progress
variable {project : Project} {start k next : Progress} {name : String} {s written : Schema} {m : Model}

-- On the way to this moment the name was begun with the schema.
def Began (project : Project) (start k : Progress) (name : String) (written : Schema) : Prop :=
  ∃ before, Run project start before ∧ before.builds.head? = some ⟨name, written, .opening⟩ ∧ Run project before k

theorem Began.later (began : Began project start k name written) (step : Step project k next) :
    Began project start next name written := by
  obtain ⟨before, reached, top, run⟩ := began
  exact ⟨before, reached, top, run.tail step⟩

theorem Began.of_call {call : Call} (calls : List Call) (asks : call.request? project.document = some (name, s)) :
    Began project (upon project (call :: calls)) ⟨project.perform (call :: calls), [], []⟩ name s := by
  have run := performed project (call :: calls)
  rw [upon, List.filterMap_cons, asks] at run ⊢
  have begins : Run project ⟨{}, [], (name, s) :: calls.filterMap (Call.request? project.document)⟩ _ :=
    .single (Step.begin .run rfl)
  rcases run.total begins with ended | onward
  · rcases Relation.ReflTransGen.cases_head ended with same | ⟨next, step, -⟩
    · cases congrArg builds same
    · exact step.not_ended.elim
  · exact ⟨_, begins, rfl, onward⟩

theorem Treats.run (valid : Coherent k) (treats : k.Treats name s) (run : Run project k next) : next.Treats name s := by
  induction run with
  | refl => exact treats
  | tail before step ih => exact ih.step (Kept.run (Coherent.kept project) before valid) step

theorem Began.unique (valid : Coherent start) (one : Began project start k name s)
    (two : Began project start next name written) : s = written := by
  have ordered {before after : Progress} {s written : Schema} (reached : Run project start before)
      (first : before.builds.head? = some ⟨name, s, .opening⟩) (run : Run project before after)
      (second : after.builds.head? = some ⟨name, written, .opening⟩) : s = written := by
    have sound := Kept.run (Coherent.kept project) reached valid
    have later := Kept.run (Coherent.kept project) run sound
    have under := List.mem_of_mem_head? second
    rcases Treats.run sound (.inl ⟨_, List.mem_of_mem_head? first, rfl, rfl⟩) run with
      ⟨build, other, same, rfl⟩ | ⟨entry, found, final⟩
    · rw [later.same_build other under same]
    · exact absurd rfl (later.apart under found final)
  obtain ⟨before, reached, first, -⟩ := one
  obtain ⟨after, reached', second, -⟩ := two
  rcases reached.total reached' with run | run
  · exact ordered reached first run second
  · exact (ordered reached' second run first).symm

-- Every model of the session comes of the schema that its name was begun with.
structure Founded (project : Project) (start k : Progress) : Prop where
  begun : ∀ build ∈ k.builds, Began project start k build.name build.written
  builds : ∀ build ∈ k.builds, build.Signed project
  models : ∀ name m, k.cache.entries.get? name = some (.ready m) → ∃ written target,
    Began project start k name written ∧ project.document.unalias written = .ok target ∧ m.Signed project name target

theorem Founded.moved_signed (founded : Founded project start k) {build : Build} (moved : Moved project k next build) :
    build.Signed project := by
  have top {inner : Build} {below : List Build} (same : k.builds = inner :: below) : inner.Signed project :=
    founded.builds inner (same ▸ List.mem_cons_self)
  cases moved with
  | stayed old => exact founded.builds build old
  | begun asks shape => exact .opening
  | opened same opened =>
      exact .inheriting (Resolution.opening_ok opened).1 (Resolution.opening_signed opened) (Nat.zero_add _).symm
  | inherited same known answered =>
      cases top same with
      | inheriting led signed count =>
          refine .inheriting led signed ?_
          rw [List.length_append, count, List.length_cons, List.length_singleton]
          omega
  | @settled name written target outlined parents after below same settled =>
      cases top same with
      | inheriting led signed count =>
          refine .linking led (signed.keeps (Drafting.groundwork_signature (fun memberless => ?_) settled))
          rw [Schema.parentRequests, memberless] at count
          exact List.eq_nil_of_length_eq_zero count.symm
  | linked same known answered kept =>
      cases top same with
      | linking led signed => exact .linking led (signed.keeps rfl)

theorem Founded.step (valid : Coherent k) (reached : Run project start k) (founded : Founded project start k)
    (step : Step project k next) : Founded project start next where
  begun build under := by
    have top {name : String} {written : Schema} {stage : Stage} {below : List Build}
        (same : k.builds = ⟨name, written, stage⟩ :: below) : Began project start next name written :=
      (founded.begun ⟨name, written, stage⟩ (same ▸ List.mem_cons_self)).later step
    cases step.moved under with
    | stayed old => exact (founded.begun build old).later step
    | begun asks shape => exact ⟨next, reached.tail step, by rw [shape]; rfl, .refl⟩
    | opened same => exact top same
    | inherited same => exact top same
    | settled same => exact top same
    | linked same => exact top same
  builds build under := founded.moved_signed (step.moved under)
  models name m ready := by
    rcases valid.ready step ready with old | ⟨before, link, old, rfl, -, -⟩ | ⟨written, draft, below, top, rfl⟩
    · obtain ⟨written, target, began, led, signed⟩ := founded.models name m old
      exact ⟨written, target, began.later step, led, signed⟩
    · obtain ⟨written, target, began, led, signed⟩ := founded.models name before old
      exact ⟨written, target, began.later step, led, signed.keeps (Model.implement_signature before [link])⟩
    · have under : ⟨name, written, .linking draft []⟩ ∈ k.builds := top ▸ List.mem_cons_self
      have began := (founded.begun _ under).later step
      cases founded.builds _ under with
      | @linking name written target _ _ led signed =>
          have kept := (Model.implement_signature (draft.complete project.settings) (k.cache.linksOf name)).trans
            (Model.complete_signature project.settings draft)
          exact ⟨written, target, began, led, signed.keeps kept⟩

theorem Run.founded {waiting : List (String × Schema)} (run : Run project ⟨{}, [], waiting⟩ k) :
    Founded project ⟨{}, [], waiting⟩ k := by
  induction run with
  | refl => exact ⟨fun _ under => (nomatch under), fun _ under => (nomatch under), fun _ _ found => (nomatch found)⟩
  | tail before step ih =>
      exact ih.step (Kept.run (Coherent.kept project) before (Coherent.initial waiting)) before step

theorem Began.signs {waiting : List (String × Schema)} (began : Began project ⟨{}, [], waiting⟩ k name written)
    (ready : k.cache.entries.get? name = some (.ready m)) :
    ∃ target, project.document.unalias written = .ok target ∧ m.Signed project name target := by
  have run : Run project ⟨{}, [], waiting⟩ k := by
    obtain ⟨before, reached, -, run⟩ := began
    exact reached.trans run
  obtain ⟨other, target, began', led, signed⟩ := run.founded.models name m ready
  cases began'.unique (Coherent.initial waiting) began
  exact ⟨target, led, signed⟩

end Progress
end ApiModels
