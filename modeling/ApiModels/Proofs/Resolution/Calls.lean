import ApiModels.Proofs.Report.Failures
import ApiModels.Proofs.Resolution.Sequence

namespace ApiModels
namespace Cache
variable {cache : Cache} {name : String}

-- The names on the stack are the ones under construction. All but the innermost are shown by a
-- placeholder, and links wait for none but these.
structure InOrder (cache : Cache) : Prop where
  distinct : cache.stack.Nodup
  under : ∀ name, name ∈ cache.stack ↔ cache.entries.get? name = some .pending ∨
    ∃ placeholder, cache.entries.get? name = some (.building placeholder)
  outer : ∀ name ∈ cache.stack.dropLast, ∃ placeholder, cache.entries.get? name = some (.building placeholder)
  links : ∀ child ∈ cache.pendingLinks.names, child ∈ cache.stack

-- How a request for the name finds the cache. No name is pending, so no error is made up from the stack.
structure Poised (cache : Cache) (name : String) : Prop where
  ordered : cache.InOrder
  published : ∀ other, cache.entries.get? other ≠ some .pending
  again : name ∈ cache.stack → ∃ placeholder,
    cache.entries.get? name = some (.building placeholder) ∧ cache.lookup name = some (.ok placeholder)
  refused : ∀ e, cache.lookup name = some (.error e) → cache.entries.get? name = some (.failed e)

theorem InOrder.poised (ordered : cache.InOrder) (published : ∀ other, cache.entries.get? other ≠ some .pending) :
    cache.Poised name where
  ordered := ordered
  published := published
  again under := by
    obtain ⟨placeholder, found⟩ := ((ordered.under name).mp under).resolve_left (published name)
    exact ⟨placeholder, found, lookup_ok.mpr (.inr found)⟩
  refused e answered := (lookup_error.mp answered).resolve_right fun stacked => published name stacked.1

end Cache

namespace Progress
variable {project : Project} {k next : Progress} {name : String} {s : Schema}

theorem Coherent.kept (project : Project) : Kept project Coherent := fun step valid => valid.step step

theorem Coherent.inOrder (valid : Coherent k) : k.cache.InOrder where
  distinct := valid.stack ▸ List.nodup_reverse.mpr valid.distinct
  under name := by
    rw [valid.stack, List.mem_reverse, ← Cache.phase?_pending, ← Cache.phase?_building]
    constructor
    · intro under
      obtain ⟨build, listed, rfl⟩ := List.mem_map.mp under
      have shown := (valid.shown build listed).phase
      cases stage : build.stage <;> simp [shown, stage, Stage.phase]
    · rintro (pending | building)
      · exact (valid.ended name _ pending).resolve_right (by simp)
      · exact (valid.ended name _ building).resolve_right (by simp)
  outer name listed := by
    rw [valid.stack, List.dropLast_reverse, List.mem_reverse, buildNames, ← List.map_tail] at listed
    obtain ⟨build, below, rfl⟩ := List.mem_map.mp listed
    have shown := (valid.shown build (List.mem_of_mem_tail below)).phase
    have asks := valid.asking build below
    rw [← Cache.phase?_building, shown]
    cases stage : build.stage with
    | opening => simp [stage, Stage.requests] at asks
    | inheriting => rfl
    | linking => rfl
  links child listed := by
    rw [valid.stack, List.mem_reverse]
    exact valid.waiting child listed

theorem Coherent.poised (valid : Coherent k) (asks : Asks project.document k.builds k.waiting name s) :
    k.cache.Poised name := by
  refine valid.inOrder.poised fun other pending => ?_
  obtain ⟨session, builds, waiting⟩ := k
  have phase := Cache.phase?_pending.mpr pending
  cases asks with
  | run => exact (valid.ended other _ phase).elim (fun under => nomatch under) (by simp)
  | build head known => exact valid.not_pending (head ▸ List.cons_ne_nil _ _) other phase

theorem Step.not_ended {session : Session} (step : Step project ⟨session, [], []⟩ next) : False := by
  cases step with
  | begin asks => cases asks

theorem Run.ended_unique {session other : Session} (one : Run project k ⟨session, [], []⟩)
    (two : Run project k ⟨other, [], []⟩) : session = other := by
  have halted {s t : Session} (run : Run project ⟨s, [], []⟩ ⟨t, [], []⟩) : s = t := by
    rcases Relation.ReflTransGen.cases_head run with same | ⟨next, step, -⟩
    · cases same
      rfl
    · exact step.not_ended.elim
  rcases one.total two with run | run
  · exact halted run
  · exact (halted run).symm

end Progress

namespace Resolution

theorem adaptExcept_id {α : Type} (action : Resolution α) : EStateM.adaptExcept id action = action := by
  funext session
  unfold EStateM.adaptExcept
  cases action session <;> rfl

theorem adaptExcept_ofExcept {α : Type} {action : Resolution α} {session : Session} {answer : Except ModelError α}
    {blame : ModelError → ModelError} (ran : action session = ofExcept answer session) :
    action.adaptExcept blame session = ofExcept (answer.mapError blame) session := by
  unfold EStateM.adaptExcept
  rw [ran]
  cases answer <;> rfl

end Resolution

-- What may be asked of a session from outside.
inductive Call where
  | resolve (name : String)
  | schema (name : String) (s : Schema)
  | reference (requester pointer : String)

namespace Call

def action (project : Project) : Call → Resolution Model
  | .resolve name => project.resolve name
  | .schema name s => project.resolveSchema name s
  | .reference requester pointer => project.resolveReference requester pointer

def through (project : Project) (resolver : Nat → Resolver) : Call → Resolution Model
  | .resolve name => match project.document.get? name with
    | some s => resolver (project.depthFor s) name s
    | none => throw (.unresolvedReference name name)
  | .schema name s => resolver (project.depthFor s) name s
  | .reference requester pointer =>
      Resolution.reference project (resolver (project.depthFor Schema.blank)) requester pointer

theorem through_request (project : Project) (call : Call) :
    call.through project (Resolution.request project) = call.action project := by
  cases call <;> rfl

def target : Call → String
  | .resolve name => name
  | .schema name _ => name
  | .reference _ pointer => refName pointer

def requester : Call → String
  | .resolve name => name
  | .schema name _ => name
  | .reference requester _ => requester

-- What the caller gets when its request fails: the error itself, or one that blames the requester.
def blame : Call → ModelError → ModelError
  | .resolve _ => id
  | .schema _ _ => id
  | .reference requester pointer => (Request.reference (refName pointer)).blame requester

def request? (document : Document) : Call → Option (String × Schema)
  | .resolve name => (document.get? name).map (name, ·)
  | .schema name s => some (name, s)
  | .reference _ pointer => (document.get? (refName pointer)).map (refName pointer, ·)

def depth (project : Project) : Call → Nat
  | .resolve name => ((project.document.get? name).map project.depthFor).getD 0
  | .schema _ s => project.depthFor s
  | .reference _ _ => project.depthFor Schema.blank

theorem through_eq (project : Project) (resolver : Nat → Resolver) (call : Call) :
    call.through project resolver = match call.request? project.document with
      | some (name, s) => (resolver (call.depth project) name s).adaptExcept call.blame
      | none => throw (.unresolvedReference call.requester call.target) := by
  cases call with
  | resolve name =>
      unfold through request? depth
      dsimp only
      cases project.document.get? name with
      | none => rfl
      | some s => exact (Resolution.adaptExcept_id _).symm
  | schema name s => exact (Resolution.adaptExcept_id _).symm
  | reference requester pointer =>
      unfold through request?
      dsimp only
      rw [Request.reference_eq, Request.resolve, Request.schema?]
      cases project.document.get? (refName pointer) <;> rfl

theorem enough {project : Project} (call : Call) {name : String} {s : Schema}
    (asks : call.request? project.document = some (name, s)) {session : Session}
    (fresh : session.cache.lookup name = none) :
    s.armDepth + project.budget (name :: session.cache.entries.names) ≤ call.depth project := by
  cases call with
  | resolve target =>
      obtain ⟨t, found, pair⟩ := Option.map_eq_some_iff.mp asks
      obtain ⟨rfl, rfl⟩ := Prod.mk.inj pair
      rw [depth, found]
      exact Project.budget_le_depthFor t
  | schema target t =>
      cases asks
      exact Project.budget_le_depthFor s
  | reference requester pointer =>
      obtain ⟨t, found, pair⟩ := Option.map_eq_some_iff.mp asks
      obtain ⟨rfl, rfl⟩ := Prod.mk.inj pair
      have absent := Table.get?_eq_none.mp (Cache.lookup_eq_none.mp fresh)
      have taken := Project.costOf_take (Table.get?_eq_some.mp found) absent
      have covers : _ + project.budget session.cache.entries.names ≤ _ := Project.budget_le_depthFor Schema.blank
      unfold Project.budget at covers ⊢
      dsimp only [depth]
      omega

end Call

namespace Progress

def upon (project : Project) (calls : List Call) : Progress :=
  ⟨{}, [], calls.filterMap (Call.request? project.document)⟩

theorem leftBy_adaptExcept (blame : ModelError → ModelError) (action : Resolution Model) (session : Session) :
    leftBy (action.adaptExcept blame session) = leftBy (action session) := by
  unfold EStateM.adaptExcept
  cases action session <;> rfl

end Progress

namespace Project
variable {project : Project} {Valid : Progress → Prop} {resolver : Nat → Resolver}

-- Call after call on one session; a call that fails leaves its session to the next one.
def performThrough (project : Project) (resolver : Nat → Resolver) (calls : List Call) : Session :=
  calls.foldl (fun session call => Progress.leftBy (call.through project resolver session)) {}

def perform (project : Project) (calls : List Call) : Session :=
  calls.foldl (fun session call => Progress.leftBy (call.action project session)) {}

theorem performThrough_request (project : Project) (calls : List Call) :
    project.performThrough (Resolution.request project) calls = project.perform calls := by
  unfold performThrough perform
  simp only [Call.through_request]

theorem call_runs (kept : Progress.Kept project Valid) (resolves : Progress.Resolves project Valid resolver) (call : Call)
    (session : Session) (rest : List (String × Schema))
    (valid : Valid ⟨session, [], (call.request? project.document).toList ++ rest⟩) :
    Progress.Run project ⟨session, [], (call.request? project.document).toList ++ rest⟩
      ⟨Progress.leftBy (call.through project resolver session), [], rest⟩ := by
  rw [Call.through_eq]
  cases asks : call.request? project.document with
  | none => exact .refl
  | some request =>
      obtain ⟨name, s⟩ := request
      rw [asks] at valid
      dsimp only
      rw [Progress.leftBy_adaptExcept]
      exact (resolves.serves kept (call.depth project) valid .run (call.enough asks)).onward

theorem calls_onward (kept : Progress.Kept project Valid) (resolves : Progress.Resolves project Valid resolver)
    (calls : List Call) (session : Session) (rest : List (String × Schema))
    (valid : Valid ⟨session, [], calls.filterMap (Call.request? project.document) ++ rest⟩) :
    Progress.Run project ⟨session, [], calls.filterMap (Call.request? project.document) ++ rest⟩
      ⟨calls.foldl (fun session call => Progress.leftBy (call.through project resolver session)) session, [], rest⟩ := by
  induction calls generalizing session with
  | nil => exact .refl
  | cons call calls ih =>
      have split : (call :: calls).filterMap (Call.request? project.document) ++ rest =
          (call.request? project.document).toList ++ (calls.filterMap (Call.request? project.document) ++ rest) := by
        rw [List.filterMap_cons]
        cases call.request? project.document <;> rfl
      rw [split] at valid ⊢
      have first := call_runs kept resolves call session _ valid
      exact first.trans (ih _ (kept.run first valid))

theorem calls_run (kept : Progress.Kept project Valid) (resolves : Progress.Resolves project Valid resolver)
    (calls : List Call) (valid : Valid (Progress.upon project calls)) :
    Progress.Run project (Progress.upon project calls) ⟨project.performThrough resolver calls, [], []⟩ := by
  unfold Progress.upon at *
  rw [← List.append_nil (calls.filterMap _)] at *
  exact calls_onward kept resolves calls {} [] valid

end Project

namespace Resolution

-- Resolves like `request`, but turns to another resolver whenever a request finds the cache otherwise
-- than poised.
open Classical in
noncomputable def guarded (project : Project) (other : Resolver) (depth : Nat) (name : String) (s : Schema) :
    Resolution Model := do
  let session ← get
  if session.cache.Poised name then
    match session.cache.lookup name with
    | some known => ofExcept known
    | none =>
        match depth with
        | 0 => throw (.invalidDocument "models are nested too deeply")
        | depth + 1 => store name (build project (guarded project other depth) name s)
  else other name s

theorem guarded_resolves (project : Project) (other : Resolver) :
    Progress.Resolves project Progress.Coherent (guarded project other) where
  known {k depth name s answer} valid asks known := by
    have poised : k.session.cache.Poised name := valid.poised asks
    have found : k.session.cache.lookup name = some answer := known
    unfold guarded
    rw [get_bind, if_pos poised, found]
  fresh {k depth name s} valid asks fresh := by
    have poised : k.session.cache.Poised name := valid.poised asks
    have absent : k.session.cache.lookup name = none := fresh
    rw [guarded, get_bind, if_pos poised, absent]

end Resolution

namespace Progress

theorem performed (project : Project) (calls : List Call) :
    Run project (upon project calls) ⟨project.perform calls, [], []⟩ :=
  project.performThrough_request calls ▸
    Project.calls_run (Coherent.kept project) (request_resolves project Coherent) calls (Coherent.initial _)

-- Every state that the calls on one session pass through has its cache in order, and every request finds it
-- poised: no resolver that requests would be turned to otherwise makes a difference.
theorem calls_inOrder (project : Project) (calls : List Call) :
    Run project (upon project calls) ⟨project.perform calls, [], []⟩ ∧
      (∀ k, Run project (upon project calls) k → k.cache.InOrder ∧
        ∀ name s, Asks project.document k.builds k.waiting name s → k.cache.Poised name) ∧
      ∀ other, project.performThrough (Resolution.guarded project other) calls = project.perform calls := by
  have coherent := Coherent.initial (calls.filterMap (Call.request? project.document))
  refine ⟨performed project calls, fun k run => ?_, fun other => ?_⟩
  · have valid := Kept.run (Coherent.kept project) run coherent
    exact ⟨valid.inOrder, fun name s asks => valid.poised asks⟩
  · have guarded := Project.calls_run (Coherent.kept project) (Resolution.guarded_resolves project other) calls coherent
    exact guarded.ended_unique (performed project calls)

end Progress
end ApiModels
