import ApiModels.Proofs.Resolution.Courses
import ApiModels.Proofs.Resolution.Mirrors

namespace ApiModels
namespace Project

-- The build of a name asks for it, unless it fails before.
def Needs (project : Project) (name : String) (written : Schema) (request : Request) : Prop :=
  ∃ target outlined, project.Opens name written target outlined ∧
    request ∈ target.parentRequests ++ target.armRequests name

-- The schema cannot become a model, or it needs one that cannot.
inductive Unfit (project : Project) : String → Schema → Prop where
  | opening {name : String} {written : Schema} {s next : Session} {e : ModelError} :
      Resolution.opening project name written s = .error e next → Unfit project name written
  | ground {name : String} {written target : Schema} {outlined : Model} {parents : List Model} {s : Session}
      {next : Draft} {e : ModelError} : project.Opens name written target outlined →
      Drafting.groundwork project target parents ⟨s, outlined⟩ = .error e next → Unfit project name written
  | missing {name : String} {written : Schema} {request : Request} : project.Needs name written request →
      request.schema? project.document = none → Unfit project name written
  | needs {name : String} {written s : Schema} {request : Request} : project.Needs name written request →
      request.schema? project.document = some s → Unfit project request.name s → Unfit project name written

def Fit (project : Project) (request : Request) : Prop :=
  ∃ s, request.schema? project.document = some s ∧ ¬ project.Unfit request.name s

-- Arms are asked for one after the other, once everything else has gone well.
structure Offers (project : Project) (name : String) (written target : Schema) (done : List Request) : Prop where
  grounds : ∃ outlined parents settled, project.Opens name written target outlined ∧
    project.Grounds target outlined parents settled
  parents : ∀ request ∈ target.parentRequests, project.Fit request
  arms : ∀ request ∈ done, project.Fit request

def Admits (project : Project) (name : String) (written : Schema) (request : Request) : Prop :=
  ∃ target done rest, project.Offers name written target done ∧ target.armRequests name = done ++ request :: rest

-- Inline arms that no union comes to ask for are never built.
inductive Reached (project : Project) : String → Schema → Prop where
  | document {name : String} {s : Schema} : project.document.get? name = some s → Reached project name s
  | arm {union name : String} {written s : Schema} : Reached project union written →
      project.Admits union written (.arm name s) → Reached project name s

def Joins (project : Project) (union child : String) : Prop :=
  ∃ written request, project.Reached union written ∧ project.Admits union written request ∧ project.Fit request ∧
    request.name = child

-- The properties of a schema on top of those of the last parent.
inductive Amounts (project : Project) : String → Schema → Model → Prop where
  | root {name : String} {written target : Schema} {outlined settled : Model} :
      project.Opens name written target outlined → target.parentRequests.getLast? = none →
      project.Grounds target outlined [] settled → Amounts project name written settled
  | child {name : String} {written target s : Schema} {outlined parent elder settled : Model} {parents : List Model}
      {request : Request} :
      project.Opens name written target outlined → target.parentRequests.getLast? = some request →
      request.schema? project.document = some s → Amounts project request.name s elder →
      parents.getLast? = some parent → parent.Twins elder → project.Grounds target outlined parents settled →
      Amounts project name written settled

section Alike
variable {one two : Project} {name : String} {written target : Schema} {outlined settled : Model} {request : Request}
variable (alike : one.Alike two)
include alike

theorem Alike.schema? (request : Request) : request.schema? two.document = request.schema? one.document := by
  cases request with
  | reference target => exact alike.schemas target
  | arm name s => rfl

theorem Opens.transfer (opens : one.Opens name written target outlined) : two.Opens name written target outlined := by
  obtain ⟨s, next, opened⟩ := opens
  have both := Resolution.opening_matches alike name written s s trivial
  rw [opened] at both
  obtain ⟨pair, later, opened', same, -⟩ := both.ok
  exact ⟨s, later, same ▸ opened'⟩

theorem Opens.same {target' : Schema} {outlined' : Model} (opens : one.Opens name written target outlined)
    (other : two.Opens name written target' outlined') : target' = target ∧ outlined' = outlined := by
  obtain ⟨s, next, opened⟩ := opens
  obtain ⟨t, last, opened'⟩ := other
  have both := Resolution.opening_matches alike name written s t trivial
  rw [opened, opened'] at both
  cases both.1
  exact ⟨rfl, rfl⟩

theorem Opens.not_failed {s next : Session} {e : ModelError} (opens : one.Opens name written target outlined) :
    Resolution.opening two name written s ≠ .error e next := by
  intro failed
  obtain ⟨t, last, opened⟩ := opens
  have both := Resolution.opening_matches alike name written t s trivial
  rw [opened, failed] at both
  exact both

theorem groundwork_alike (target : Schema) (outlined : Model) (parents elders : List Model) (s t : Session) :
    Concur (fun d e => d.model.Namesakes e.model) Eq (Drafting.groundwork one target parents ⟨s, outlined⟩)
      (Drafting.groundwork two target elders ⟨t, outlined⟩) := by
  have same : outlined.Namesakes outlined := ⟨rfl, rfl⟩
  exact Drafting.groundwork_concur alike Model.Namesakes.pairing target same (same.adopt parents elders)

theorem Grounds.transfer {parents : List Model} (grounds : one.Grounds target outlined parents settled)
    (elders : List Model) : ∃ settled', two.Grounds target outlined elders settled' := by
  obtain ⟨s, next, ran, -⟩ := grounds
  have both := groundwork_alike alike target outlined parents elders s s
  rw [ran] at both
  obtain ⟨_, later, ran', -⟩ := both.ok
  exact ⟨later.model, s, later, ran', rfl⟩

theorem Grounds.not_failed {parents elders : List Model} {s : Session} {next : Draft} {e : ModelError}
    (grounds : one.Grounds target outlined parents settled) :
    Drafting.groundwork two target elders ⟨s, outlined⟩ ≠ .error e next := by
  intro failed
  obtain ⟨t, last, ran, -⟩ := grounds
  have both := groundwork_alike alike target outlined parents elders t s
  rw [ran, failed] at both
  exact both

theorem Grounds.twins {parents elders : List Model} {settled' : Model}
    (grounds : one.Grounds target outlined parents settled) (other : two.Grounds target outlined elders settled')
    (last : Option.Rel Model.Twins parents.getLast? elders.getLast?) : settled.Twins settled' := by
  obtain ⟨s, next, ran, rfl⟩ := grounds
  obtain ⟨t, later, ran', rfl⟩ := other
  have both := Drafting.groundwork_concur alike Model.Twins.pairing target (d := ⟨s, outlined⟩) (e := ⟨t, outlined⟩)
    (.refl outlined) ((Model.Twins.refl outlined).adopt last)
  rw [ran, ran'] at both
  exact both.2

theorem Needs.transfer (needs : one.Needs name written request) : two.Needs name written request := by
  obtain ⟨target, outlined, opens, listed⟩ := needs
  exact ⟨target, outlined, opens.transfer alike, listed⟩

theorem Unfit.transfer (unfit : one.Unfit name written) : two.Unfit name written := by
  induction unfit with
  | @opening name written s next e failed =>
      have both := Resolution.opening_matches alike name written s s trivial
      rw [failed] at both
      obtain ⟨f, later, failed'⟩ := both.error
      exact .opening failed'
  | @ground name written target outlined parents s next e opens failed =>
      have both := groundwork_alike alike target outlined parents parents s s
      rw [failed] at both
      obtain ⟨f, later, failed'⟩ := both.error
      exact .ground (opens.transfer alike) failed'
  | missing needs absent => exact .missing (needs.transfer alike) ((alike.schema? _).trans absent)
  | needs needs known _ ih => exact .needs (needs.transfer alike) ((alike.schema? _).trans known) ih

theorem Fit.transfer (fit : one.Fit request) : two.Fit request := by
  obtain ⟨s, known, sound⟩ := fit
  exact ⟨s, (alike.schema? request).trans known, fun unfit => sound (unfit.transfer alike.symm)⟩

theorem Admits.transfer (admits : one.Admits name written request) : two.Admits name written request := by
  obtain ⟨target, done, rest, ⟨⟨outlined, parents, settled, opens, grounds⟩, elders, arms⟩, split⟩ := admits
  obtain ⟨settled', grounds'⟩ := grounds.transfer alike parents
  exact ⟨target, done, rest, ⟨⟨outlined, parents, settled', opens.transfer alike, grounds'⟩,
    fun r listed => (elders r listed).transfer alike, fun r listed => (arms r listed).transfer alike⟩, split⟩

theorem Reached.transfer (reached : one.Reached name written) : two.Reached name written := by
  induction reached with
  | document found => exact .document ((alike.schemas _).trans found)
  | arm _ admits ih => exact .arm ih (admits.transfer alike)

theorem Joins.transfer {union child : String} (joins : one.Joins union child) : two.Joins union child := by
  obtain ⟨written, request, reached, admits, fit, named⟩ := joins
  exact ⟨written, request, reached.transfer alike, admits.transfer alike, fit.transfer alike, named⟩

theorem Amounts.twins {other : Model} (amounts : one.Amounts name written settled)
    (amounts' : two.Amounts name written other) : settled.Twins other := by
  induction amounts generalizing other with
  | root opens last grounds =>
      cases amounts' with
      | root opens' _ grounds' =>
          obtain ⟨rfl, rfl⟩ := opens.same alike opens'
          exact grounds.twins alike grounds' .none
      | child opens' last' =>
          obtain ⟨rfl, rfl⟩ := opens.same alike opens'
          cases last.symm.trans last'
  | child opens last known _ youngest like grounds ih =>
      cases amounts' with
      | root opens' last' =>
          obtain ⟨rfl, rfl⟩ := opens.same alike opens'
          cases last.symm.trans last'
      | child opens' last' known' amounts' youngest' like' grounds' =>
          obtain ⟨rfl, rfl⟩ := opens.same alike opens'
          cases last.symm.trans last'
          cases ((alike.schema? _).trans known).symm.trans known'
          refine grounds.twins alike grounds' ?_
          rw [youngest, youngest']
          exact .some ((like.trans (ih amounts')).trans like'.symm)

end Alike

end Project
end ApiModels
