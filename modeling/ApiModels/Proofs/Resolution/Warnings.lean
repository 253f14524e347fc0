import ApiModels.Proofs.Resolution.Drafts
import ApiModels.Proofs.Resolution.Progress

namespace ApiModels

-- The others are only raised for what the schema of a build leaves out.
def DiagnosticCode.isCommon : DiagnosticCode → Bool
  | .aliasPropertiesIgnored | .unsupportedComposition | .ignoredAnyOf => false
  | _ => true

def Schema.branchCode (s : Schema) : DiagnosticCode :=
  if s.oneOfArms.isEmpty then .unsupportedComposition else .ignoredAnyOf

namespace Diagnostic

def Permits (P : Diagnostic → Prop) : Prop :=
  ∀ schema code message, code.severity = .warning → code.isCommon → P (.new schema code message)

-- Holds of what the build of the name may say about the schema that it is made of.
structure Remarks (P : Diagnostic → Prop) (name : String) (target : Schema) : Prop where
  ignored : ¬ target.isComposed → target.properties ≠ [] → ∀ message, P (.new name .aliasPropertiesIgnored message)
  branches : target.anyOfBranches ≠ [] → ∀ message, P (.new name target.branchCode message)

theorem permits_mild : Permits (·.severity = .warning) := fun _ _ _ mild _ => mild

theorem remarks_mild (name : String) (target : Schema) : Remarks (·.severity = .warning) name target where
  ignored _ _ _ := rfl
  branches _ message := by
    unfold Schema.branchCode
    split <;> rfl

end Diagnostic

def Session.Warned (s next : Session) : Prop :=
  ∃ added, next.diagnostics.items = s.diagnostics.items ++ added ∧ ∀ item ∈ added, item.severity = .warning

def Session.Adds (P : Diagnostic → Prop) (s next : Session) : Prop :=
  ∃ added, next.diagnostics.items = s.diagnostics.items ++ added ∧ ∀ item ∈ added, P item

namespace Session
variable {P : Diagnostic → Prop} {s next last : Session}

theorem Adds.refl (s : Session) : s.Adds P s := ⟨[], (List.append_nil _).symm, fun _ listed => nomatch listed⟩

theorem Adds.trans (first : s.Adds P next) (second : next.Adds P last) : s.Adds P last := by
  obtain ⟨added, more, kinds⟩ := first
  obtain ⟨later, most, others⟩ := second
  refine ⟨added ++ later, by rw [most, more, List.append_assoc], fun item listed => ?_⟩
  rcases List.mem_append.mp listed with early | late
  · exact kinds item early
  · exact others item late

theorem Adds.all (adds : s.Adds P next) (before : ∀ item ∈ s.diagnostics.items, P item) :
    ∀ item ∈ next.diagnostics.items, P item := by
  obtain ⟨added, more, kinds⟩ := adds
  intro item listed
  rw [more] at listed
  exact (List.mem_append.mp listed).elim (before item) (kinds item)

theorem adding (P : Diagnostic → Prop) : Discipline (Adds P) fun _ (_ : ModelError) => True where
  refl := Adds.refl
  trans := Adds.trans
  stable _ _ := trivial

theorem Warned.log (warned : s.Warned next) : s.diagnostics.items <+: next.diagnostics.items := by
  obtain ⟨added, more, -⟩ := warned
  exact ⟨added, more.symm⟩

theorem Warned.errors (warned : s.Warned next) : next.diagnostics.errors = s.diagnostics.errors := by
  obtain ⟨added, more, mild⟩ := warned
  have none_ : added.filter (·.severity = .error) = [] := by
    rw [List.filter_eq_nil_iff]
    intro item listed
    simp [mild item listed]
  unfold Diagnostics.errors
  rw [more, List.filter_append, none_, List.append_nil]

end Session

namespace Resolution
variable {project : Project} {P : Diagnostic → Prop}

def Adds (P : Diagnostic → Prop) {α : Type} (action : Resolution α) : Prop :=
  Within (Session.Adds P) (fun _ _ => True) action

open Session (adding)

theorem push_adds {item : Diagnostic} (holds : P item) : Adds P (push item) := by
  intro s
  refine ⟨[item], rfl, fun other listed => ?_⟩
  rw [List.mem_singleton.mp listed]
  exact holds

theorem publish_adds (m : Model) : Adds P (publish m) := fun s => Session.Adds.refl s

theorem ofExcept_adds {α : Type} (x : Except ModelError α) : Adds P (ofExcept x) := by
  intro s
  cases x with
  | ok value => exact Session.Adds.refl s
  | error e => exact ⟨Session.Adds.refl s, trivial⟩

variable (permits : Diagnostic.Permits P)
include permits

theorem reportNote_adds (subject : String) (note : Option InferenceNote) : Adds P (reportNote subject note) := by
  cases note with
  | none => exact Within.pure (adding P) _
  | some note => exact push_adds (permits _ _ _ (by cases note <;> rfl) (by cases note <;> rfl))

theorem infer_adds (subject : String) (s : Schema) : Adds P (infer project subject s) :=
  Within.bind (adding P) (reportNote_adds permits subject _) fun _ => Within.pure (adding P) _

theorem typeName_adds (owner : String) (s : Schema) : Adds P (typeName project owner s) := by
  unfold typeName
  split
  · exact Within.pure (adding P) _
  · refine Within.bind (adding P) (ofExcept_adds _) fun target => ?_
    split
    · exact Within.pure (adding P) _
    · exact Within.bind (adding P) (infer_adds permits owner target) fun _ => Within.pure (adding P) _

theorem property_adds (owner name : String) (s : Schema) : Adds P (property project owner name s) := by
  refine Within.bind (adding P) (ofExcept_adds _) fun unfolding => ?_
  exact Within.bind (adding P) (reportNote_adds permits owner _) fun _ => Within.pure (adding P) _

theorem outline_adds (name : String) (written target : Schema) : Adds P (outline project name written target) := by
  refine Within.bind (adding P) (infer_adds permits name target) fun tag => ?_
  refine Within.bind (adding P) ?_ fun _ => Within.bind (adding P) ?_ fun extrasType => ?_
  · unfold reportContradiction
    split
    · exact push_adds (permits _ _ _ rfl rfl)
    · exact Within.pure (adding P) _
  · unfold extrasType
    split
    · exact Within.bind (adding P) (typeName_adds permits name _) fun _ => Within.pure (adding P) _
    · exact Within.pure (adding P) _
  · unfold withItems
    split
    · exact Within.bind (adding P) (typeName_adds permits name _) fun _ => Within.pure (adding P) _
    · exact Within.pure (adding P) _

theorem opening_adds (name : String) (written : Schema) : Adds P (opening project name written) := by
  refine Within.bind (adding P) ?_ fun _ => ?_
  · unfold refuseCycle
    split
    · exact ofExcept_adds (.error _)
    · exact Within.pure (adding P) _
  refine Within.bind (adding P) (ofExcept_adds _) fun target => ?_
  refine Within.bind (adding P) (outline_adds permits name written target) fun outlined => ?_
  exact Within.bind (adding P) (publish_adds outlined) fun _ => Within.pure (adding P) _

end Resolution

namespace Drafting
variable {project : Project} {P : Diagnostic → Prop} {name : String}

def AddsIn (P : Diagnostic → Prop) (name : String) (d next : Draft) : Prop :=
  d.model.name = name → next.model.name = name ∧ d.session.Adds P next.session

def Adds (P : Diagnostic → Prop) (name : String) {α : Type} (action : Drafting α) : Prop :=
  Within (AddsIn P name) AnyFault action

theorem adding (P : Diagnostic → Prop) (name : String) : Discipline (AddsIn P name) AnyFault where
  refl d named := ⟨named, .refl d.session⟩
  trans first second named := by
    obtain ⟨kept, adds⟩ := first named
    exact (second kept).imp id adds.trans
  stable _ _ := trivial

theorem ofResolution_adds {α : Type} {action : Resolution α} (adds : Resolution.Adds P action) :
    Adds P name (ofResolution action) := by
  intro d
  unfold WithinAt ofResolution
  cases ran : action d.session with
  | ok a session => exact fun named => ⟨named, (adds d.session).ok ran⟩
  | error e session => exact ⟨fun named => ⟨named, ((adds d.session).error ran).1⟩, trivial⟩

theorem edit_adds {change : Model → Model} (keeps : ∀ m, (change m).name = m.name) : Adds P name (edit change) :=
  fun d named => ⟨(keeps d.model).trans named, .refl d.session⟩

theorem report_adds {code : DiagnosticCode} {message : String} (holds : P (.new name code message)) :
    Adds P name (report code message) := fun _ named =>
  ⟨named, _, rfl, fun _ listed => by rw [List.mem_singleton.mp listed, named]; exact holds⟩

variable (permits : Diagnostic.Permits P)
include permits

theorem declareProperty_adds (key : String) (s : Schema) : Adds P name (declareProperty project key s) := by
  intro d
  change WithinAt (AddsIn P name) AnyFault
    (ofResolution (Resolution.property project d.model.name key s) >>= fun p => edit (·.declare p)) d
  exact WithinAt.bind (adding P name) (ofResolution_adds (Resolution.property_adds permits d.model.name key s) d)
    fun p => edit_adds fun _ => rfl

theorem declareRequired_adds (key : String) : Adds P name (declareRequired key) := by
  intro d
  change WithinAt (AddsIn P name) AnyFault (if (d.model.property? key).isSome then edit (·.requireName key) else _) d
  split
  · exact edit_adds (fun _ => rfl) d
  · exact report_adds (permits _ _ _ rfl rfl) d

theorem declare_adds (properties : List (String × Schema)) (required : List String) :
    Adds P name (declare project properties required) := by
  refine Within.bind (adding P name) (Within.forM (adding P name) properties fun property _ => ?_) fun _ => ?_
  · exact declareProperty_adds permits property.1 property.2
  refine Within.bind (adding P name) (Within.forM (adding P name) required fun key _ => ?_) fun _ => edit_adds fun _ => rfl
  exact declareRequired_adds permits key

theorem linkParent_adds (parents : List Model) : Adds P name (linkParent parents) := by
  unfold linkParent
  split
  · exact Within.pure (adding P name) _
  · refine Within.bind (adding P name) ?_ fun _ => edit_adds fun m => m.extend_name _
    unfold noteCollapsed
    split
    · exact Within.pure (adding P name) _
    · exact Within.bind (adding P name) (report_adds (permits _ _ _ rfl rfl)) fun _ => edit_adds fun _ => rfl

theorem inheritFrom_adds (members : List Schema) (parents : List Model) :
    Adds P name (inheritFrom project members parents) := by
  unfold inheritFrom
  split
  · exact Within.pure (adding P name) _
  refine Within.bind (adding P name) (linkParent_adds permits parents) fun _ => ?_
  refine Within.bind (adding P name) (Within.forM (adding P name) _ fun member _ => ?_) fun _ => edit_adds fun _ => rfl
  exact declare_adds permits member.properties member.required

theorem announce_adds (s : Schema) : Adds P name (announce s) := by
  unfold announce
  split
  · exact Within.pure (adding P name) _
  · refine Within.bind (adding P name) ?_ fun _ => fun d => ofResolution_adds (Resolution.publish_adds d.model) d
    unfold reportMixed
    split
    · exact Within.pure (adding P name) _
    · exact report_adds (permits _ _ _ rfl rfl)

omit permits in
theorem reportBranches_adds {s : Schema} (remarks : Diagnostic.Remarks P name s) : Adds P name (reportBranches s) := by
  unfold reportBranches
  split
  · exact Within.pure (adding P name) _
  · rename_i some
    have holds := remarks.branches fun none_ => some (List.isEmpty_iff.mpr none_)
    unfold Schema.branchCode at holds
    split
    · rename_i armless
      exact report_adds (by simpa [armless] using holds _)
    · rename_i arms
      exact report_adds (by simpa [arms] using holds _)

omit permits in
theorem flat_adds {target : Schema} (plain : ¬ target.isComposed) (remarks : Diagnostic.Remarks P name target)
    (declares : Adds P name (declare project target.properties target.required)) :
    Adds P name (Resolution.flat project target) := by
  intro d
  change WithinAt (AddsIn P name) AnyFault
    (if d.model.isAlias then _ else declare project target.properties target.required) d
  split
  · split
    · rename_i some
      have declared : target.properties ≠ [] := fun none_ => by simp [none_] at some
      exact report_adds (remarks.ignored plain declared _) d
    · exact Within.pure (adding P name) _ d
  · exact declares d

theorem groundwork_adds {target : Schema} (remarks : Diagnostic.Remarks P name target) (parents : List Model) :
    Adds P name (groundwork project target parents) := by
  unfold groundwork
  split
  · refine Within.bind (adding P name) (inheritFrom_adds permits _ parents) fun _ => ?_
    refine Within.bind (adding P name) (declare_adds permits _ _) fun _ => ?_
    exact Within.bind (adding P name) (reportBranches_adds remarks) fun _ => announce_adds permits target
  · rename_i plain
    exact flat_adds plain remarks (declare_adds permits _ _)

end Drafting

namespace Progress
variable {project : Project} {P : Diagnostic → Prop} {k next : Progress}

def Remarks (P : Diagnostic → Prop) (build : Build) : Prop :=
  ∀ target outlined parents rest, build.stage = .inheriting target outlined parents rest →
    Diagnostic.Remarks P outlined.name target

theorem Fault.adds {session after : Session} {build : Build} {e : ModelError} (permits : Diagnostic.Permits P)
    (remarks : Remarks P build) (fault : Fault project session build e after) : session.Adds P after := by
  cases fault with
  | opening _ failed => exact ((Resolution.opening_adds permits _ _ _).error failed).1
  | missing => exact .refl _
  | refused => exact .refl _
  | settling stage failed =>
      exact (((Drafting.groundwork_adds permits (remarks _ _ _ _ stage) _ _).error failed).1 rfl).2

-- A step adds such items, unless it is the end of a build that fails.
theorem Step.adds (permits : Diagnostic.Permits P) (remarks : ∀ build ∈ k.builds, Remarks P build)
    (step : Step project k next) : k.session.Adds P next.session ∨
    ∃ build below e after, k.builds = build :: below ∧ Fault project k.session build e after ∧
      next.session = after.failed build.name e := by
  cases step with
  | begin | reuse | inherit | link | close => exact .inl (.refl _)
  | opened opened => exact .inl ((Resolution.opening_adds permits _ _ _).ok opened)
  | settle settled =>
      have remark := remarks _ List.mem_cons_self _ _ _ _ rfl
      exact .inl (((Drafting.groundwork_adds permits remark _ _).ok settled) rfl).2
  | fail fault => exact .inr ⟨_, _, _, _, rfl, fault, rfl⟩

theorem Fault.warned {session after : Session} {build : Build} {e : ModelError}
    (fault : Fault project session build e after) : session.Warned after :=
  fault.adds Diagnostic.permits_mild fun _ _ _ _ _ => Diagnostic.remarks_mild _ _

theorem Step.warned (step : Step project k next) : k.session.Warned next.session ∨
    ∃ build below e after, k.builds = build :: below ∧ Fault project k.session build e after ∧
      next.session = after.failed build.name e :=
  step.adds Diagnostic.permits_mild fun _ _ _ _ _ _ _ => Diagnostic.remarks_mild _ _

end Progress
end ApiModels
