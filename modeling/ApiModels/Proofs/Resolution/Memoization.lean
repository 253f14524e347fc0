import ApiModels.Proofs.Resolution.Calls
import ApiModels.Proofs.Resolution.Warnings

namespace ApiModels

-- The same model, with more links perhaps.
structure Model.Gains (m next : Model) : Prop where
  same : next = { m with interfaces := next.interfaces, imports := next.imports }
  interfaces : m.interfaces <+: next.interfaces
  imports : ∀ name ∈ m.imports, name ∈ next.imports

namespace Model
variable {m next last : Model}

theorem Gains.refl (m : Model) : m.Gains m := ⟨rfl, List.prefix_rfl, fun _ listed => listed⟩

theorem Gains.trans (first : m.Gains next) (second : next.Gains last) : m.Gains last where
  same := by
    calc last = { next with interfaces := last.interfaces, imports := last.imports } := second.same
      _ = { m with interfaces := last.interfaces, imports := last.imports } := by rw [first.same]
  interfaces := first.interfaces.trans second.interfaces
  imports name listed := second.imports name (first.imports name listed)

theorem Gains.name (gains : m.Gains next) : next.name = m.name := by rw [gains.same]

theorem link_prefix (names : List String) (name : String) : names <+: link names name := by
  unfold link
  split
  · exact List.prefix_rfl
  · exact List.prefix_append names [name]

theorem addInterface_gains (m : Model) (parent : String) : m.Gains (m.addInterface parent) :=
  ⟨rfl, link_prefix m.interfaces parent, fun _ listed => listed⟩

theorem addImport_gains (m : Model) (name : String) : m.Gains (m.addImport name) := by
  unfold addImport
  split
  · exact .refl m
  · exact ⟨rfl, List.prefix_rfl, fun other listed => (m.imports.mem_insert name other).mpr (.inr listed)⟩

theorem implement_gains (m : Model) (link : PendingLink) : m.Gains (Cache.implement m link) :=
  (m.addInterface_gains link.parent).trans (addImport_gains _ link.parentClass)

end Model

namespace Session

-- Nothing that the first session knows is lost in the second.
structure KeptBy (s next : Session) : Prop where
  order : s.cache.entries.names <+: next.cache.entries.names
  log : s.diagnostics.items <+: next.diagnostics.items
  failed : ∀ name e, s.cache.entries.get? name = some (.failed e) → next.cache.entries.get? name = some (.failed e)
  ready : ∀ name m, s.cache.entries.get? name = some (.ready m) →
    ∃ later, m.Gains later ∧ next.cache.entries.get? name = some (.ready later)

variable {s next last : Session}

theorem KeptBy.refl (s : Session) : s.KeptBy s where
  order := List.prefix_rfl
  log := List.prefix_rfl
  failed _ _ found := found
  ready _ m found := ⟨m, .refl m, found⟩

theorem KeptBy.trans (first : s.KeptBy next) (second : next.KeptBy last) : s.KeptBy last where
  order := first.order.trans second.order
  log := first.log.trans second.log
  failed name e found := second.failed name e (first.failed name e found)
  ready name m found := by
    obtain ⟨later, gains, kept⟩ := first.ready name m found
    obtain ⟨latest, more, still⟩ := second.ready name later kept
    exact ⟨latest, gains.trans more, still⟩

theorem KeptBy.failed_before {name : String} {entry : CacheEntry} {e : ModelError} (kept : s.KeptBy next)
    (found : s.cache.entries.get? name = some entry) (final : entry.isFinal)
    (failed : next.cache.entries.get? name = some (.failed e)) : s.cache.entries.get? name = some (.failed e) := by
  cases entry with
  | failed f =>
      cases failed.symm.trans (kept.failed name f found)
      exact found
  | ready m =>
      obtain ⟨later, -, still⟩ := kept.ready name m found
      cases failed.symm.trans still
  | pending => cases final
  | building placeholder => cases final

theorem KeptBy.ready_before {name : String} {entry : CacheEntry} {later : Model} (kept : s.KeptBy next)
    (found : s.cache.entries.get? name = some entry) (final : entry.isFinal)
    (ready : next.cache.entries.get? name = some (.ready later)) :
    ∃ m, m.Gains later ∧ s.cache.entries.get? name = some (.ready m) := by
  cases entry with
  | failed e => cases ready.symm.trans (kept.failed name e found)
  | ready m =>
      obtain ⟨other, gains, still⟩ := kept.ready name m found
      cases ready.symm.trans still
      exact ⟨m, gains, found⟩
  | pending => cases final
  | building placeholder => cases final

-- What `name` has come to in the first session the action gives in the second, and no more happens.
structure Repeated (s next : Session) (name : String) (blame : ModelError → ModelError) (action : Resolution Model) :
    Prop where
  error : ∀ e, s.cache.entries.get? name = some (.failed e) → action next = .error (blame e) next
  model : ∀ m, s.cache.entries.get? name = some (.ready m) → ∃ later, m.Gains later ∧ action next = .ok later next

theorem KeptBy.repeated {name : String} {blame : ModelError → ModelError} {action : Resolution Model}
    (kept : s.KeptBy next)
    (answers : ∀ answer, next.cache.lookup name = some answer →
      action next = Resolution.ofExcept (answer.mapError blame) next) : s.Repeated next name blame action where
  error e failed := answers _ (Cache.lookup_error.mpr (.inl (kept.failed name e failed)))
  model m ready := by
    obtain ⟨later, gains, found⟩ := kept.ready name m ready
    exact ⟨later, gains, answers _ (Cache.lookup_ok.mpr (.inl found))⟩

end Session

namespace Call
variable {project : Project} {name : String} {s : Schema} {session : Session}

theorem answered (call : Call) (asks : call.request? project.document = some (name, s)) {answer : Except ModelError Model}
    (known : session.cache.lookup name = some answer) :
    call.action project session = Resolution.ofExcept (answer.mapError call.blame) session := by
  rw [← through_request, through_eq, asks]
  exact Resolution.adaptExcept_ofExcept (Progress.request_known known)

theorem refused (call : Call) (absent : call.request? project.document = none) :
    call.action project session = .error (.unresolvedReference call.requester call.target) session := by
  rw [← through_request, through_eq, absent]
  rfl

end Call

namespace Progress
variable {project : Project} {k next last : Progress}

theorem Coherent.order (valid : Coherent k) (step : Step project k next) :
    k.cache.entries.names <+: next.cache.entries.names := by
  cases valid.stores step with
  | same kept => exact kept ▸ List.prefix_rfl
  | begin asks fresh kept => exact kept ▸ Table.names_put _ _ _
  | publish top kept => exact kept ▸ Cache.names_publish
  | register answered linked kept => exact kept ▸ Cache.names_registerInterface
  | finish top same kept => exact kept ▸ Table.names_put _ _ _
  | fail top fault kept => exact kept ▸ Table.names_put _ _ _

theorem Step.log (step : Step project k next) : k.session.diagnostics.items <+: next.session.diagnostics.items := by
  rcases step.warned with warned | ⟨build, below, e, after, top, fault, failed⟩
  · exact warned.log
  · rw [failed]
    exact fault.warned.log.trans (List.prefix_append _ _)

theorem Coherent.keptBy (valid : Coherent k) (step : Step project k next) : k.session.KeptBy next.session where
  order := valid.order step
  log := step.log
  failed _ _ failed := valid.keeps_failure step failed
  ready name m ready := by
    rcases valid.keeps step ready rfl with kept | ⟨link, -, kept⟩
    · exact ⟨m, .refl m, kept⟩
    · exact ⟨_, m.implement_gains link, kept⟩

theorem Coherent.run_keptBy (valid : Coherent k) (run : Run project k next) : k.session.KeptBy next.session := by
  induction run with
  | refl => exact .refl _
  | tail before step ih => exact ih.trans ((Kept.run (Coherent.kept project) before valid).keptBy step)

theorem Coherent.built_once (valid : Coherent k) (name : String) : k.cache.buildCount name ≤ 1 := by
  rw [valid.once name]
  split <;> simp

theorem performs (project : Project) (calls : List Call) (session : Session) (rest : List (String × Schema)) :
    Run project ⟨session, [], calls.filterMap (Call.request? project.document) ++ rest⟩
      ⟨calls.foldl (fun session call => leftBy (call.action project session)) session, [], rest⟩ := by
  have runs := Project.calls_onward (fun _ _ => trivial) (request_resolves project fun _ => True) calls session rest trivial
  simp only [Call.through_request] at runs
  exact runs

-- Calls on one session, some of them made later than the others. Between any two moments nothing is lost and no
-- name is built twice; a request, nested or not, repeats what its name came to. Each call hands this on, or names
-- what the document lacks.
theorem calls_repeat (project : Project) (calls later : List Call) :
    (Run project (upon project (calls ++ later))
        ⟨project.perform calls, [], later.filterMap (Call.request? project.document)⟩ ∧
      Run project ⟨project.perform calls, [], later.filterMap (Call.request? project.document)⟩
        ⟨project.perform (calls ++ later), [], []⟩) ∧
      (∀ k l, Run project (upon project (calls ++ later)) k → Run project k l →
        (∀ name, l.cache.buildCount name ≤ 1) ∧ k.session.KeptBy l.session ∧
          ∀ depth name s, k.session.Repeated l.session name id (Resolution.request project depth name s)) ∧
      ∀ call : Call, match call.request? project.document with
        | some (name, _) => (project.perform calls).Repeated (project.perform (calls ++ later)) name call.blame
            (call.action project)
        | none => call.action project (project.perform calls) =
            .error (.unresolvedReference call.requester call.target) (project.perform calls) := by
  have first : Run project (upon project (calls ++ later))
      ⟨project.perform calls, [], later.filterMap (Call.request? project.document)⟩ := by
    unfold upon
    rw [List.filterMap_append]
    exact performs project calls {} _
  have second : Run project ⟨project.perform calls, [], later.filterMap (Call.request? project.document)⟩
      ⟨project.perform (calls ++ later), [], []⟩ := by
    have runs := performs project later (project.perform calls) []
    rw [List.append_nil] at runs
    unfold Project.perform at runs ⊢
    rw [List.foldl_append]
    exact runs
  have coherent {k : Progress} (run : Run project (upon project (calls ++ later)) k) : Coherent k :=
    Kept.run (Coherent.kept project) run (Coherent.initial _)
  refine ⟨⟨first, second⟩, fun k l before after => ⟨?_, ?_, fun depth name s => ?_⟩, fun call => ?_⟩
  · exact (coherent (before.trans after)).built_once
  · exact (coherent before).run_keptBy after
  · refine ((coherent before).run_keptBy after).repeated fun answer known => ?_
    rw [request_known known]
    cases answer <;> rfl
  · split
    · rename_i name s asks
      exact ((coherent first).run_keptBy second).repeated fun answer known => call.answered asks known
    · rename_i absent
      exact call.refused absent

end Progress

namespace Project

def straying : Document where
  schemas := Table.ofEntries [
    ("Stray", { allOf := some [Schema.referenceTo "Ghost"] }),
    ("Pet", { oneOf := some [{ type := some (.single "string") }] })]
  fingerprint := ""

-- Neither call gives what its target has come to: the first blames its requester, the second is refused.
theorem calls_not_repeating_straying :
    ¬ ((Project.of GeneratorSettings.defaults straying).perform [.resolve "Stray"]).Repeated
        ((Project.of GeneratorSettings.defaults straying).perform [.resolve "Stray"])
        (Call.reference "Owner" "#/components/schemas/Stray").target id
        (Call.action (Project.of GeneratorSettings.defaults straying) (.reference "Owner" "#/components/schemas/Stray")) ∧
      ¬ ((Project.of GeneratorSettings.defaults straying).perform [.resolve "Pet"]).Repeated
        ((Project.of GeneratorSettings.defaults straying).perform [.resolve "Pet"])
        (Call.resolve "PetOneOf0").target id
        (Call.action (Project.of GeneratorSettings.defaults straying) (.resolve "PetOneOf0")) := by
  constructor
  · intro repeated
    have failed : ((Project.of GeneratorSettings.defaults straying).perform [.resolve "Stray"]).cache.entries.get? "Stray" =
        some (.failed (.unresolvedReference "Stray" "Ghost")) := Cache.fault?_eq_some.mp (by decide +kernel)
    have known := Cache.lookup_error.mpr (.inl failed)
    have asks : (Call.reference "Owner" "#/components/schemas/Stray").request? straying =
        some ("Stray", { allOf := some [Schema.referenceTo "Ghost"] }) := rfl
    have returned := (repeated.error _ failed).symm.trans (Call.answered _ asks known)
    exact absurd (EStateM.Result.error.inj returned).1 (by decide)
  · intro repeated
    have finished : (((Project.of GeneratorSettings.defaults straying).perform [.resolve "Pet"]).cache.get? "PetOneOf0").isSome := by
      decide +kernel
    obtain ⟨m, ready⟩ := Cache.exists_ready finished
    obtain ⟨later, -, returned⟩ := repeated.model m ready
    have absent : (Call.resolve "PetOneOf0").request? straying = none := rfl
    cases returned.symm.trans (Call.refused _ absent)

end Project
end ApiModels
