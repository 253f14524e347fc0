import Mathlib.Logic.Relation
import ApiModels.Proofs.Resolution.Segments
import ApiModels.Report.Basic

namespace ApiModels

inductive Request where
  | reference (target : String)
  | arm (name : String) (s : Schema)

namespace Request

def name : Request → String
  | .reference target => target
  | .arm name _ => name

def schema? (document : Document) : Request → Option Schema
  | .reference target => document.get? target
  | .arm _ s => some s

def blame (requester : String) : Request → ModelError → ModelError
  | .reference _, .cyclicReference _ chain => .cyclicReference requester chain
  | request, _ => .dependencyFailed requester request.name

def ofArm (parent : String) (arm : Schema) (index : Nat) : Request :=
  match arm.reference with
  | some target => .reference (refName target)
  | none => .arm (Drafting.armName parent index) arm

end Request

namespace Schema

def parentRequests (s : Schema) : List Request :=
  (s.allOfMembers.filterMap (·.reference)).map fun reference => .reference (refName reference)

def armRequests (parent : String) (s : Schema) : List Request :=
  s.oneOfArms.zipIdx.map fun (arm, index) => .ofArm parent arm index

end Schema

inductive Stage where
  | opening
  | inheriting (target : Schema) (outlined : Model) (parents : List Model) (rest : List Request)
  | linking (model : Model) (rest : List Request)

def Stage.requests : Stage → List Request
  | .opening => []
  | .inheriting _ _ _ rest => rest
  | .linking _ rest => rest

structure Build where
  name : String
  written : Schema
  stage : Stage

def Session.failed (session : Session) (name : String) (e : ModelError) : Session :=
  { session with
    diagnostics := session.diagnostics.failure name e
    cache := session.cache.fail name e }

structure Progress where
  session : Session
  -- The innermost build comes first.
  builds : List Build
  waiting : List (String × Schema)

namespace Progress

def cache (k : Progress) : Cache := k.session.cache

def buildNames (k : Progress) : List String := k.builds.map (·.name)

-- Asks for a name: the innermost build, or the run itself when nothing is under way.
inductive Asks (document : Document) : List Build → List (String × Schema) → String → Schema → Prop where
  | run {name : String} {s : Schema} {rest : List (String × Schema)} :
      Asks document [] ((name, s) :: rest) name s
  | build {build : Build} {below : List Build} {waiting : List (String × Schema)} {request : Request} {s : Schema}
      {rest : List Request} :
      build.stage.requests = request :: rest → request.schema? document = some s →
      Asks document (build :: below) waiting request.name s

-- The ways in which the innermost build fails.
inductive Fault (project : Project) (session : Session) (build : Build) : ModelError → Session → Prop where
  | opening {e : ModelError} {next : Session} : build.stage = .opening →
      Resolution.opening project build.name build.written session = .error e next →
      Fault project session build e next
  | missing {request : Request} {rest : List Request} : build.stage.requests = request :: rest →
      request.schema? project.document = none →
      Fault project session build (.unresolvedReference build.name request.name) session
  | refused {request : Request} {rest : List Request} {s : Schema} {e : ModelError} :
      build.stage.requests = request :: rest → request.schema? project.document = some s →
      session.cache.lookup request.name = some (.error e) →
      Fault project session build (request.blame build.name e) session
  | settling {target : Schema} {outlined : Model} {parents : List Model} {e : ModelError} {next : Draft} :
      build.stage = .inheriting target outlined parents [] →
      Drafting.groundwork project target parents ⟨session, outlined⟩ = .error e next →
      Fault project session build e next.session

variable (project : Project)

inductive Step : Progress → Progress → Prop where
  | begin {session : Session} {builds : List Build} {waiting : List (String × Schema)} {name : String} {s : Schema} :
      Asks project.document builds waiting name s → session.cache.lookup name = none →
      Step ⟨session, builds, waiting⟩
        ⟨{ session with cache := session.cache.begin name }, ⟨name, s, .opening⟩ :: builds, waiting⟩
  | reuse {session : Session} {name : String} {s : Schema} {rest : List (String × Schema)}
      {answer : Except ModelError Model} :
      session.cache.lookup name = some answer → Step ⟨session, [], (name, s) :: rest⟩ ⟨session, [], rest⟩
  | opened {session next : Session} {name : String} {written target : Schema} {outlined : Model}
      {below : List Build} {waiting : List (String × Schema)} :
      Resolution.opening project name written session = .ok (target, outlined) next →
      Step ⟨session, ⟨name, written, .opening⟩ :: below, waiting⟩
        ⟨next, ⟨name, written, .inheriting target outlined [] target.parentRequests⟩ :: below, waiting⟩
  | inherit {session : Session} {name : String} {written target s : Schema} {outlined parent : Model}
      {parents : List Model} {request : Request} {rest : List Request} {below : List Build}
      {waiting : List (String × Schema)} :
      request.schema? project.document = some s → session.cache.lookup request.name = some (.ok parent) →
      Step ⟨session, ⟨name, written, .inheriting target outlined parents (request :: rest)⟩ :: below, waiting⟩
        ⟨session, ⟨name, written, .inheriting target outlined (parents ++ [parent]) rest⟩ :: below, waiting⟩
  | settle {session : Session} {next : Draft} {name : String} {written target : Schema} {outlined : Model}
      {parents : List Model} {below : List Build} {waiting : List (String × Schema)} :
      Drafting.groundwork project target parents ⟨session, outlined⟩ = .ok () next →
      Step ⟨session, ⟨name, written, .inheriting target outlined parents []⟩ :: below, waiting⟩
        ⟨next.session, ⟨name, written, .linking next.model (target.armRequests name)⟩ :: below, waiting⟩
  | link {session : Session} {name : String} {written s : Schema} {m child : Model} {request : Request}
      {rest : List Request} {below : List Build} {waiting : List (String × Schema)} :
      request.schema? project.document = some s → session.cache.lookup request.name = some (.ok child) →
      Step ⟨session, ⟨name, written, .linking m (request :: rest)⟩ :: below, waiting⟩
        ⟨{ session with cache := session.cache.registerInterface request.name name (project.naming.modelName name) },
          ⟨name, written, .linking (m.addMember request.name) rest⟩ :: below, waiting⟩
  | close {session : Session} {name : String} {written : Schema} {m : Model} {below : List Build}
      {waiting : List (String × Schema)} :
      Step ⟨session, ⟨name, written, .linking m []⟩ :: below, waiting⟩
        ⟨{ session with cache := (session.cache.finish (m.complete project.settings)).1 }, below, waiting⟩
  | fail {session next : Session} {build : Build} {below : List Build} {waiting : List (String × Schema)}
      {e : ModelError} :
      Fault project session build e next →
      Step ⟨session, build :: below, waiting⟩ ⟨next.failed build.name e, below, waiting⟩

def Run : Progress → Progress → Prop := Relation.ReflTransGen (Step project)

-- Before the first schema of the document, and after the last.
def start : Progress := ⟨{}, [], project.document.schemas.entries⟩

def done : Progress := ⟨project.resolveAll, [], []⟩

def Passes (k : Progress) : Prop := Run project (start project) k ∧ Run project k (done project)

variable {project}

theorem Fault.cache {session next : Session} {build : Build} {e : ModelError}
    (fault : Fault project session build e next) : next.cache = session.cache := by
  cases fault with
  | opening _ failed => exact (Resolution.opening_error failed).1
  | missing => rfl
  | refused => rfl
  | settling _ failed => exact (Drafting.groundwork_error failed).1

-- How a build that is under way after a step has come there: it was there before, or the step is its own.
inductive Moved (project : Project) (k next : Progress) : Build → Prop where
  | stayed {build : Build} : build ∈ k.builds → Moved project k next build
  | begun {name : String} {s : Schema} : Asks project.document k.builds k.waiting name s →
      next.builds = ⟨name, s, .opening⟩ :: k.builds → Moved project k next ⟨name, s, .opening⟩
  | opened {name : String} {written target : Schema} {outlined : Model} {below : List Build} :
      k.builds = ⟨name, written, .opening⟩ :: below →
      Resolution.opening project name written k.session = .ok (target, outlined) next.session →
      Moved project k next ⟨name, written, .inheriting target outlined [] target.parentRequests⟩
  | inherited {name : String} {written target s : Schema} {outlined parent : Model} {parents : List Model}
      {request : Request} {rest : List Request} {below : List Build} :
      k.builds = ⟨name, written, .inheriting target outlined parents (request :: rest)⟩ :: below →
      request.schema? project.document = some s → k.cache.lookup request.name = some (.ok parent) →
      Moved project k next ⟨name, written, .inheriting target outlined (parents ++ [parent]) rest⟩
  | settled {name : String} {written target : Schema} {outlined : Model} {parents : List Model} {after : Draft}
      {below : List Build} :
      k.builds = ⟨name, written, .inheriting target outlined parents []⟩ :: below →
      Drafting.groundwork project target parents ⟨k.session, outlined⟩ = .ok () after →
      Moved project k next ⟨name, written, .linking after.model (target.armRequests name)⟩
  | linked {name : String} {written s : Schema} {m child : Model} {request : Request} {rest : List Request}
      {below : List Build} :
      k.builds = ⟨name, written, .linking m (request :: rest)⟩ :: below →
      request.schema? project.document = some s → k.cache.lookup request.name = some (.ok child) →
      next.cache = k.cache.registerInterface request.name name (project.naming.modelName name) →
      Moved project k next ⟨name, written, .linking (m.addMember request.name) rest⟩

theorem Step.moved {k next : Progress} (step : Step project k next) {build : Build} (under : build ∈ next.builds) :
    Moved project k next build := by
  cases step with
  | begin asks fresh =>
      rcases List.mem_cons.mp under with rfl | below
      · exact .begun asks rfl
      · exact .stayed below
  | reuse known => cases under
  | opened opened =>
      rcases List.mem_cons.mp under with rfl | below
      · exact .opened rfl opened
      · exact .stayed (List.mem_cons_of_mem _ below)
  | inherit known answered =>
      rcases List.mem_cons.mp under with rfl | below
      · exact .inherited rfl known answered
      · exact .stayed (List.mem_cons_of_mem _ below)
  | settle settled =>
      rcases List.mem_cons.mp under with rfl | below
      · exact .settled rfl settled
      · exact .stayed (List.mem_cons_of_mem _ below)
  | link known answered =>
      rcases List.mem_cons.mp under with rfl | below
      · exact .linked rfl known answered rfl
      · exact .stayed (List.mem_cons_of_mem _ below)
  | close => exact .stayed (List.mem_cons_of_mem _ under)
  | fail fault => exact .stayed (List.mem_cons_of_mem _ under)

theorem Step.remains {k next : Progress} (step : Step project k next) {build : Build} (under : build ∈ k.builds) :
    build ∈ next.builds ∨ ∃ below, k.builds = build :: below := by
  cases step with
  | begin asks fresh => exact .inl (List.mem_cons_of_mem _ under)
  | reuse known => cases under
  | close =>
      rcases List.mem_cons.mp under with rfl | below
      · exact .inr ⟨_, rfl⟩
      · exact .inl below
  | fail fault =>
      rcases List.mem_cons.mp under with rfl | below
      · exact .inr ⟨_, rfl⟩
      · exact .inl below
  | _ =>
      rcases List.mem_cons.mp under with rfl | below
      · exact .inr ⟨_, rfl⟩
      · exact .inl (List.mem_cons_of_mem _ below)

theorem Step.names {k next : Progress} (step : Step project k next) {name : String}
    (listed : name ∈ k.cache.entries.names) : name ∈ next.cache.entries.names := by
  cases step with
  | begin asks fresh => exact Table.mem_names_put.mpr (.inr listed)
  | reuse known => exact listed
  | opened opened =>
      change name ∈ Table.names (Session.cache _).entries
      rw [(Resolution.opening_ok opened).2.2]
      exact Cache.mem_names_publish.mpr listed
  | inherit known answered => exact listed
  | settle settled =>
      change name ∈ Table.names (Session.cache _).entries
      rw [(Drafting.groundwork_ok settled).2]
      split
      · exact listed
      · exact Cache.mem_names_publish.mpr listed
  | link known answered => exact Cache.mem_names_registerInterface.mpr listed
  | close => exact Table.mem_names_put.mpr (.inr listed)
  | fail fault =>
      refine Table.mem_names_put.mpr (.inr ?_)
      rw [fault.cache]
      exact listed

theorem Run.names {k next : Progress} (run : Run project k next) {name : String}
    (listed : name ∈ k.cache.entries.names) : name ∈ next.cache.entries.names := by
  induction run with
  | refl => exact listed
  | tail _ step ih => exact step.names ih

theorem Passes.induction {P : Progress → Prop} (initial : P (start project))
    (keeps : ∀ k next, Passes project k → Passes project next → Step project k next → P k → P next)
    {k : Progress} (passes : Passes project k) : P k := by
  obtain ⟨before, after⟩ := passes
  induction before with
  | refl => exact initial
  | tail before step ih =>
      have earlier := after.head step
      exact keeps _ _ ⟨before, earlier⟩ ⟨before.tail step, after⟩ step (ih earlier)

theorem Passes.onward {P : Progress → Prop} {k : Progress} (passes : Passes project k) (holds : P k)
    (keeps : ∀ k next, Passes project k → Passes project next → Step project k next → P k → P next) :
    P (done project) := by
  obtain ⟨before, after⟩ := passes
  induction after using Relation.ReflTransGen.head_induction_on with
  | refl => exact holds
  | head step rest ih =>
      have further := before.tail step
      exact ih (keeps _ _ ⟨before, rest.head step⟩ ⟨further, rest⟩ step holds) further

end Progress
end ApiModels
