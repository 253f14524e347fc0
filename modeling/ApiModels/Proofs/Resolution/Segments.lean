import ApiModels.Proofs.Document.References
import ApiModels.Proofs.Model.Entries
import ApiModels.Proofs.Model.Views
import ApiModels.Proofs.Resolution.Actions

namespace ApiModels

def SameCache (s next : Session) : Prop := next.cache = s.cache

-- A reference in the schema of `owner` leads nowhere.
def RefFault (project : Project) (owner : String) (e : ModelError) : Prop :=
  ∃ issue : RefIssue, issue.Genuine project.document ∧ e = issue.toError owner

-- Nothing but the identity of the model is known to others.
structure Model.Fresh (name : String) (m : Model) : Prop where
  name : m.name = name
  parentName : m.parentName = none
  interfaces : m.interfaces = []
  unionMembers : m.unionMembers = []
  own : m.ownProperties = []
  all : m.allProperties = []
  required : m.requiredNames = NameSet.empty
  allRequired : m.allRequiredNames = NameSet.empty

namespace Model.Fresh
variable {name : String} {m : Model}

theorem bare (fresh : m.Fresh name) : m.Bare := by
  refine ⟨by simp [propertyNames, fresh.all], ?_⟩
  intro other listed
  rw [fresh.allRequired] at listed
  cases listed

theorem selfMade (fresh : m.Fresh name) : m.SelfMade := by
  refine ⟨by simp [propertyNames, fresh.all], ?_⟩
  rw [fresh.required, fresh.allRequired]
  exact fun _ listed => listed

theorem merged (fresh : m.Fresh name) : m.Merged := by
  refine ⟨by simp [ownNames, fresh.own], ?_⟩
  rw [fresh.required, fresh.allRequired]
  exact fun _ listed => listed

theorem new (rules : NamingRules) (name : String) : (Model.new rules name).Fresh name := by
  constructor <;> rfl

theorem addImport (fresh : m.Fresh name) (import_ : String) : (m.addImport import_).Fresh name := by
  rw [addImport_eq]
  exact ⟨fresh.name, fresh.parentName, fresh.interfaces, fresh.unionMembers, fresh.own, fresh.all,
    fresh.required, fresh.allRequired⟩

theorem importInstantiation (fresh : m.Fresh name) (instantiation item : String) :
    (m.importInstantiation instantiation item).Fresh name := by
  have wrapped : Model.Fresh name { m with containerParent := some (instantiation ++ "<" ++ item ++ ">") } :=
    ⟨fresh.name, fresh.parentName, fresh.interfaces, fresh.unionMembers, fresh.own, fresh.all,
      fresh.required, fresh.allRequired⟩
  exact wrapped.addImport _

theorem setItems (fresh : m.Fresh name) (settings : GeneratorSettings) (target items : Schema)
    (itemType : String) : (m.setItems settings target items itemType).Fresh name := by
  have array : Model.Fresh name { m with isArrayModel := true, arrayModelType := some itemType } :=
    ⟨fresh.name, fresh.parentName, fresh.interfaces, fresh.unionMembers, fresh.own, fresh.all,
      fresh.required, fresh.allRequired⟩
  unfold Model.setItems
  dsimp only
  split <;> split
  · exact (array.importInstantiation _ _).addImport _
  · exact array.addImport _
  · exact array.importInstantiation _ _
  · exact array

end Model.Fresh

namespace Resolution
variable {project : Project}

theorem quiet (B : ModelError → Prop) : Discipline SameCache (fun _ => B) where
  refl _ := rfl
  trans first second := Eq.trans second first
  stable _ allowed := allowed

variable {B : ModelError → Prop}

theorem push_within (item : Diagnostic) : Within SameCache (fun _ => B) (push item) := fun _ => rfl

theorem report_within (schema : String) (code : DiagnosticCode) (message : String) :
    Within SameCache (fun _ => B) (report schema code message) := push_within _

theorem reportNote_within (subject : String) (note : Option InferenceNote) :
    Within SameCache (fun _ => B) (reportNote subject note) := by
  cases note with
  | none => exact Within.pure (quiet B) _
  | some note => exact push_within _

theorem infer_within (project : Project) (subject : String) (s : Schema) :
    Within SameCache (fun _ => B) (infer project subject s) :=
  Within.bind (quiet B) (reportNote_within subject _) fun _ => Within.pure (quiet B) _

theorem ofExcept_within {α : Type} {owner : String} {x : Except RefIssue α}
    (genuine : ∀ issue, x = .error issue → issue.Genuine project.document) :
    Within SameCache (fun _ => RefFault project owner) (ofExcept (x.mapError (RefIssue.toError owner))) := by
  intro s
  cases x with
  | ok value => exact (quiet (RefFault project owner)).refl s
  | error issue => exact ⟨rfl, issue, genuine issue rfl, rfl⟩

theorem unalias_within (owner : String) (s : Schema) :
    Within SameCache (fun _ => RefFault project owner) (unalias project owner s) :=
  ofExcept_within fun _ => Document.unalias_genuine

theorem typeName_within (owner : String) (s : Schema) :
    Within SameCache (fun _ => RefFault project owner) (typeName project owner s) := by
  have law := quiet (RefFault project owner)
  unfold typeName
  split
  · exact Within.pure law _
  · refine Within.bind law (unalias_within owner s) fun target => ?_
    split
    · exact Within.pure law _
    · exact Within.bind law (infer_within project owner target) fun _ => Within.pure law _

theorem property_within (owner name : String) (s : Schema) :
    Within SameCache (fun _ => RefFault project owner) (property project owner name s) := by
  have law := quiet (RefFault project owner)
  refine Within.bind law (ofExcept_within fun _ => Unfolding.of_genuine) fun unfolding => ?_
  exact Within.bind law (reportNote_within owner _) fun _ => Within.pure law _

theorem reportContradiction_within (name : String) (target : Schema) :
    Within SameCache (fun _ => B) (reportContradiction name target) := by
  unfold reportContradiction
  split
  · exact report_within _ _ _
  · exact Within.pure (quiet B) _

theorem extrasType_within (name : String) (target : Schema) :
    Within SameCache (fun _ => RefFault project name) (extrasType project name target) := by
  have law := quiet (RefFault project name)
  unfold extrasType
  split
  · exact Within.bind law (typeName_within name _) fun _ => Within.pure law _
  · exact Within.pure law _

theorem withItems_within (name : String) (target : Schema) (m : Model) :
    Within SameCache (fun _ => RefFault project name) (withItems project name target m) := by
  have law := quiet (RefFault project name)
  unfold withItems
  split
  · exact Within.bind law (typeName_within name _) fun _ => Within.pure law _
  · exact Within.pure law _

theorem outline_within (name : String) (written target : Schema) :
    Within SameCache (fun _ => RefFault project name) (outline project name written target) := by
  have law := quiet (RefFault project name)
  refine Within.bind law (infer_within project name target) fun tag => ?_
  refine Within.bind law (reportContradiction_within name target) fun _ => ?_
  refine Within.bind law (extrasType_within name target) fun extrasType => ?_
  exact withItems_within name target _

theorem outline_fresh (name : String) (written target : Schema) :
    Returns (Model.Fresh name) (outline project name written target) := by
  refine Returns.bind fun tag => Returns.bind fun _ => Returns.bind fun extrasType => ?_
  have fresh := Model.Fresh.new project.naming name
  have opened : ((((((Model.new project.naming name).describe written target).setType project target tag).setNullable
      written target).setExtras target extrasType)).Fresh name :=
    ⟨fresh.name, fresh.parentName, fresh.interfaces, fresh.unionMembers, fresh.own, fresh.all,
      fresh.required, fresh.allRequired⟩
  unfold withItems
  split
  · exact Returns.bind fun itemType => Returns.pure (opened.setItems _ _ _ _)
  · exact Returns.pure opened

def OpeningFault (project : Project) (name : String) (e : ModelError) : Prop :=
  (∃ cycle, project.inheritance.cycleOf? name = some cycle ∧ e = .cyclicInheritance name cycle) ∨
    RefFault project name e

theorem refuseCycle_run (name : String) (s : Session) : refuseCycle project name s =
    match project.inheritance.cycleOf? name with
    | some cycle => .error (.cyclicInheritance name cycle) s
    | none => .ok () s := by
  unfold refuseCycle
  cases project.inheritance.cycleOf? name <;> rfl

theorem ofExcept_ok {α : Type} {x : Except RefIssue α} {blame : RefIssue → ModelError} {a : α} {session next : Session}
    (ran : ofExcept (x.mapError blame) session = .ok a next) : x = .ok a ∧ next = session := by
  cases x with
  | ok reached =>
      cases ran
      exact ⟨rfl, rfl⟩
  | error issue => cases ran

theorem unalias_ok {owner : String} {s target : Schema} {session next : Session}
    (ran : unalias project owner s session = .ok target next) : project.document.unalias s = .ok target :=
  (ofExcept_ok ran).1

theorem opening_ok {name : String} {written target : Schema} {outlined : Model} {s next : Session}
    (ran : opening project name written s = .ok (target, outlined) next) :
    project.document.unalias written = .ok target ∧ outlined.Fresh name ∧
      next.cache = s.cache.publish outlined := by
  obtain ⟨_, s₁, refused, ran⟩ := bind_ok.mp ran
  obtain ⟨target', s₂, unaliased, ran⟩ := bind_ok.mp ran
  obtain ⟨outlined', s₃, outlines, ran⟩ := bind_ok.mp ran
  obtain ⟨_, s₄, published, ran⟩ := bind_ok.mp ran
  cases ran
  have same : s₃.cache = s.cache := by
    rw [refuseCycle_run] at refused
    split at refused <;> cases refused
    exact ((outline_within name written target _).ok outlines).trans ((unalias_within name written _).ok unaliased)
  refine ⟨unalias_ok unaliased, outline_fresh name written target _ _ _ outlines, ?_⟩
  cases published
  exact congrArg (·.publish outlined) same

theorem opening_error {name : String} {written : Schema} {e : ModelError} {s next : Session}
    (ran : opening project name written s = .error e next) :
    next.cache = s.cache ∧ OpeningFault project name e := by
  rcases bind_error.mp ran with refused | ⟨_, s₁, refused, ran⟩
  · rw [refuseCycle_run] at refused
    split at refused
    · rename_i cycle found
      cases refused
      exact ⟨rfl, .inl ⟨cycle, found, rfl⟩⟩
    · cases refused
  rw [refuseCycle_run] at refused
  split at refused <;> cases refused
  rcases bind_error.mp ran with failed | ⟨target, s₂, unaliased, ran⟩
  · exact ((unalias_within name written _).error failed).imp id .inr
  have same : s₂.cache = s.cache := (unalias_within name written _).ok unaliased
  rcases bind_error.mp ran with failed | ⟨outlined, s₃, _, ran⟩
  · obtain ⟨kept, fault⟩ := (outline_within name written target _).error failed
    exact ⟨kept.trans same, .inr fault⟩
  · rcases bind_error.mp ran with published | ⟨_, _, _, ran⟩
    · cases published
    · cases ran

end Resolution
namespace Drafting
variable {project : Project}

-- A law on drafts that covers what the declaration of properties does to them.
structure Declaration (project : Project) (R : Draft → Draft → Prop) (B : Draft → ModelError → Prop) : Prop
    extends Discipline R B where
  property : ∀ name s, Within R B (declareProperty project name s)
  required : ∀ name, Within R B (declareRequired name)
  refresh : Within R B (edit Model.refresh)
  report : ∀ code message, code.severity = .warning → Within R B (report code message)

namespace Declaration
variable {R : Draft → Draft → Prop} {B : Draft → ModelError → Prop} (law : Declaration project R B)
include law

theorem declare (properties : List (String × Schema)) (required : List String) :
    Within R B (declare project properties required) := by
  refine Within.bind law.toDiscipline (Within.forM law.toDiscipline properties fun property _ => ?_) fun _ => ?_
  · exact law.property property.1 property.2
  refine Within.bind law.toDiscipline (Within.forM law.toDiscipline required fun name _ => ?_) fun _ => law.refresh
  exact law.required name

theorem reportBranches (s : Schema) : Within R B (reportBranches s) := by
  unfold Drafting.reportBranches
  split
  · exact Within.pure law.toDiscipline _
  · split <;> exact law.report _ _ rfl

theorem flat (target : Schema) : Within R B (Resolution.flat project target) := by
  intro d
  change WithinAt R B (if d.model.isAlias then _ else Drafting.declare project target.properties target.required) d
  split
  · split
    · exact law.report _ _ rfl d
    · exact Within.pure law.toDiscipline _ d
  · exact law.declare _ _ d

end Declaration

structure Declares (d next : Draft) : Prop where
  cache : SameCache d.session next.session
  grows : d.model.Grows next.model

def OwnFault (project : Project) (d : Draft) (e : ModelError) : Prop := RefFault project d.model.name e

theorem declares : Discipline Declares (OwnFault project) where
  refl d := ⟨rfl, .refl d.model⟩
  trans first second := ⟨second.cache.trans first.cache, first.grows.trans second.grows⟩
  stable moved fault := by
    unfold OwnFault at fault
    rwa [moved.grows.name] at fault

theorem ofResolution_within {α : Type} {action : Resolution α} {d : Draft}
    (within : Within SameCache (fun _ => RefFault project d.model.name) action) :
    WithinAt Declares (OwnFault project) (ofResolution action) d := by
  unfold WithinAt ofResolution
  cases ran : action d.session with
  | ok a session => exact ⟨(within _).ok ran, .refl d.model⟩
  | error e session =>
      obtain ⟨same, fault⟩ := (within _).error ran
      exact ⟨⟨same, .refl d.model⟩, fault⟩

theorem report_declares (code : DiagnosticCode) (message : String) :
    Within Declares (OwnFault project) (report code message) := by
  intro d
  change WithinAt Declares (OwnFault project) (ofResolution (Resolution.report d.model.name code message)) d
  exact ofResolution_within (Resolution.report_within d.model.name code message)

theorem edit_declares {change : Model → Model} (grows : ∀ m : Model, m.Grows (change m)) :
    Within Declares (OwnFault project) (edit change) := fun d => ⟨rfl, grows d.model⟩

theorem declareProperty_declares (name : String) (s : Schema) :
    Within Declares (OwnFault project) (declareProperty project name s) := by
  intro d
  change WithinAt _ _ (ofResolution (Resolution.property project d.model.name name s) >>=
    fun p => edit (·.declare p)) d
  refine WithinAt.bind declares (ofResolution_within (Resolution.property_within d.model.name name s)) fun p => ?_
  exact edit_declares fun m => m.declare_grows p

theorem declareRequired_declares (name : String) :
    Within Declares (OwnFault project) (declareRequired name) := by
  intro d
  change WithinAt _ _ (if (d.model.property? name).isSome then edit (·.requireName name) else _) d
  split
  · exact edit_declares (fun m => m.requireName_grows name) d
  · exact report_declares _ _ d

theorem declaration : Declaration project Declares (OwnFault project) where
  toDiscipline := declares
  property := declareProperty_declares
  required := declareRequired_declares
  refresh := edit_declares fun m => m.refresh_rearranges.grows
  report code message _ := report_declares code message

theorem noteCollapsed_declares (kept : Model) (collapsed : List String) :
    Within Declares (OwnFault project) (noteCollapsed kept collapsed) := by
  unfold noteCollapsed
  split
  · exact Within.pure declares _
  · refine Within.bind declares (report_declares _ _) fun _ => edit_declares fun m => ?_
    exact ⟨rfl, rfl, rfl, rfl, .refl m, id, id⟩

-- Some properties taken in, a parent extended perhaps, and more properties taken in.
def Extended (m : Model) (parents : List Model) (next : Model) : Prop :=
  m.Grows next ∨ ∃ parent ∈ parents, ∃ base, m.Grows base ∧ (base.extend parent).Grows next

theorem Extended.grows {m next last : Model} {parents : List Model} (extended : Extended m parents next)
    (grows : next.Grows last) : Extended m parents last := by
  rcases extended with alone | ⟨parent, listed, base, before, after⟩
  · exact .inl (alone.trans grows)
  · exact .inr ⟨parent, listed, base, before, after.trans grows⟩

theorem Extended.name {m next : Model} {parents : List Model} (extended : Extended m parents next) :
    next.name = m.name := by
  rcases extended with alone | ⟨parent, -, base, before, after⟩
  · exact alone.name
  · exact after.name.trans ((Model.extend_name base parent).trans before.name)

theorem Extended.interfaces {m next : Model} {parents : List Model} (extended : Extended m parents next) :
    next.interfaces = m.interfaces := by
  rcases extended with alone | ⟨parent, -, base, before, after⟩
  · exact alone.interfaces
  · exact after.interfaces.trans ((Model.extend_interfaces base parent).trans before.interfaces)

theorem Extended.unionMembers {m next : Model} {parents : List Model} (extended : Extended m parents next) :
    next.unionMembers = m.unionMembers := by
  rcases extended with alone | ⟨parent, -, base, before, after⟩
  · exact alone.unionMembers
  · exact after.unionMembers.trans ((Model.extend_unionMembers base parent).trans before.unionMembers)

structure Steady (d next : Draft) : Prop where
  cache : SameCache d.session next.session
  name : next.model.name = d.model.name

theorem Steady.trans {a b c : Draft} (first : Steady a b) (second : Steady b c) : Steady a c :=
  ⟨second.cache.trans first.cache, second.name.trans first.name⟩

theorem steadies : Discipline Steady (OwnFault project) where
  refl d := ⟨rfl, rfl⟩
  trans := Steady.trans
  stable moved fault := by
    unfold OwnFault at fault
    rwa [moved.name] at fault

theorem Declares.steady {d next : Draft} (declares : Declares d next) : Steady d next :=
  ⟨declares.cache, declares.grows.name⟩

theorem Declares.steadies {α : Type} {action : Drafting α} (within : Within Declares (OwnFault project) action) :
    Within Steady (OwnFault project) action :=
  within.weaken Declares.steady id

theorem linkParent_steady (parents : List Model) : Within Steady (OwnFault project) (linkParent parents) := by
  unfold linkParent
  split
  · exact Within.pure steadies _
  · refine Within.bind steadies (Declares.steadies (noteCollapsed_declares _ _)) fun _ => ?_
    exact fun d => ⟨rfl, Model.extend_name d.model _⟩

theorem linkParent_ok (project : Project) {parents : List Model} {d next : Draft}
    (ran : linkParent parents d = .ok () next) : Extended d.model parents next.model := by
  unfold linkParent at ran
  cases last : parents.getLast? with
  | none =>
      rw [last] at ran
      cases ran
      exact .inl (.refl _)
  | some parent =>
      rw [last] at ran
      obtain ⟨_, middle, noted, ran⟩ := bind_ok.mp ran
      have within : Within Declares (OwnFault project) (noteCollapsed parent (parents.dropLast.map (·.name))) :=
        noteCollapsed_declares parent _
      have known := (within d).ok noted
      cases ran
      exact .inr ⟨parent, List.mem_of_getLast? last, middle.model, known.grows, .refl _⟩

theorem inheritFrom_steady (members : List Schema) (parents : List Model) :
    Within Steady (OwnFault project) (inheritFrom project members parents) := by
  unfold inheritFrom
  split
  · exact Within.pure steadies _
  refine Within.bind steadies (linkParent_steady parents) fun _ => Declares.steadies ?_
  refine Within.bind declares (Within.forM declares _ fun member _ => ?_) fun _ => ?_
  · exact declaration.declare member.properties member.required
  · exact edit_declares fun m => m.refresh_rearranges.grows

theorem inheritFrom_ok {members : List Schema} {parents : List Model} {d next : Draft}
    (ran : inheritFrom project members parents d = .ok () next) : Extended d.model parents next.model := by
  unfold inheritFrom at ran
  split at ran
  · cases ran
    exact .inl (.refl _)
  obtain ⟨_, linked, links, ran⟩ := bind_ok.mp ran
  obtain ⟨_, declared, declaring, ran⟩ := bind_ok.mp ran
  have within : Within Declares (OwnFault project) ((members.filter (·.reference.isNone)).forM fun member =>
      declare project member.properties member.required) :=
    Within.forM declares _ fun member _ => declaration.declare member.properties member.required
  have inlined := (within linked).ok declaring
  cases ran
  exact ((linkParent_ok project links).grows inlined.grows).grows (Model.refresh_rearranges _).grows

theorem announce_run (s : Schema) (d : Draft) : ∃ session, announce s d = .ok () ⟨session, d.model⟩ ∧
    session.cache = if s.oneOfArms.isEmpty then d.session.cache else d.session.cache.publish d.model := by
  unfold announce
  split
  · exact ⟨d.session, rfl, rfl⟩
  · unfold reportMixed
    split <;> exact ⟨_, rfl, rfl⟩

-- What a build does once its parents are known and before its arms are asked for.
def groundwork (project : Project) (target : Schema) (parents : List Model) : Drafting Unit :=
  if target.isComposed then settle project target parents else Resolution.flat project target

theorem isComposed_of_arms {target : Schema} (some : ¬ target.oneOfArms.isEmpty) : target.isComposed := by
  simp_all [Schema.isComposed]

theorem groundwork_ok {target : Schema} {parents : List Model} {d next : Draft}
    (ran : groundwork project target parents d = .ok () next) :
    Extended d.model parents next.model ∧ next.session.cache =
      if target.oneOfArms.isEmpty then d.session.cache else d.session.cache.publish next.model := by
  unfold groundwork at ran
  split at ran
  · obtain ⟨_, d₁, inherited, ran⟩ := bind_ok.mp ran
    obtain ⟨_, d₂, declared, ran⟩ := bind_ok.mp ran
    obtain ⟨_, d₃, reported, ran⟩ := bind_ok.mp ran
    have first := (inheritFrom_steady _ _ d).ok inherited
    have second := (declaration.declare _ _ d₁).ok declared
    have within : Within Declares (OwnFault project) (reportBranches target) := declaration.reportBranches target
    have third := (within d₂).ok reported
    obtain ⟨session, announced, cache⟩ := announce_run target d₃
    rw [announced] at ran
    cases ran
    refine ⟨((inheritFrom_ok inherited).grows second.grows).grows third.grows, ?_⟩
    rw [cache, third.cache, second.cache, first.cache]
  · rename_i plain
    have settled := (declaration.flat target d).ok ran
    have armless : target.oneOfArms.isEmpty := by
      by_contra some
      exact plain (isComposed_of_arms some)
    rw [if_pos armless]
    exact ⟨.inl settled.grows, settled.cache⟩

theorem groundwork_error {target : Schema} {parents : List Model} {d next : Draft} {e : ModelError}
    (ran : groundwork project target parents d = .error e next) :
    next.session.cache = d.session.cache ∧ RefFault project d.model.name e := by
  unfold groundwork at ran
  split at ran
  · rcases bind_error.mp ran with failed | ⟨_, d₁, inherited, ran⟩
    · exact ((inheritFrom_steady _ _ d).error failed).imp Steady.cache id
    have first := (inheritFrom_steady _ _ d).ok inherited
    rcases bind_error.mp ran with failed | ⟨_, d₂, declared, ran⟩
    · obtain ⟨moved, fault⟩ := (declaration.declare _ _ d₁).error failed
      exact ⟨moved.cache.trans first.cache, steadies.stable first fault⟩
    have second := first.trans ((declaration.declare _ _ d₁).ok declared).steady
    rcases bind_error.mp ran with failed | ⟨_, d₃, _, ran⟩
    · obtain ⟨moved, fault⟩ := (declaration.reportBranches target d₂).error failed
      exact ⟨moved.cache.trans second.cache, steadies.stable second fault⟩
    · obtain ⟨session, announced, _⟩ := announce_run target d₃
      rw [announced] at ran
      cases ran
  · exact ((declaration.flat target d).error ran).imp Declares.cache id

end Drafting
end ApiModels
