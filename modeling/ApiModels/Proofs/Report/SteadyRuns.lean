import ApiModels.Proofs.Report.CyclicParents
import ApiModels.Proofs.Report.NameClashes
import ApiModels.Proofs.Resolution.Forecasts
import ApiModels.Proofs.Resolution.Tidiness

namespace ApiModels

structure Project.Steady (project : Project) : Prop where
  -- No schema of the document is named like an inline arm.
  apart : ∀ parent index arm own, ¬ project.Clash parent index arm own
  -- What is handed over under construction becomes a model.
  kept : ∀ asker request, project.Borrows asker request → request.name ∉ project.run.failed
  -- No model takes over the view of its parent before the parent has one.
  timely : ∀ m ∈ project.run.models, ∀ parent, m.parentName = some parent → ¬ project.Early m.name parent

theorem Project.steady_of_report {project : Project}
    (unnumbered : ∀ name ∈ project.document.names, ¬ (name.toList.getLast?).any Char.isDigit)
    (flawless : project.run.failed = []) (heirs : ∀ m ∈ project.run.models, m.parentName.isSome → ¬ m.SelfMade) :
    project.Steady where
  apart parent index arm own clash :=
    unnumbered _ (Table.mem_names_of_get? clash.taken) (Drafting.armName_last parent index)
  kept _ _ _ failed := by
    rw [flawless] at failed
    cases failed
  timely m known parent kept early :=
    heirs m known (kept ▸ rfl) (project.selfMade_of_early known early kept)

namespace Project
variable {project : Project} {name asker : String} {written s t : Schema} {request : Request} {m : Model}

section Requests

theorem Needs.holds (needs : project.Needs asker written (.arm name s)) (begun : project.Begins asker written) :
    ∃ index, project.Holds asker index s ∧ name = Drafting.armName asker index := by
  obtain ⟨target, outlined, opens, listed⟩ := needs
  rcases List.mem_append.mp listed with parent | arm
  · obtain ⟨reference, -, same⟩ := List.mem_map.mp parent
    cases same
  · obtain ⟨index, arm, found, same⟩ := Schema.mem_armRequests.mp arm
    obtain ⟨inline, rfl, rfl⟩ := Request.ofArm_eq_arm same
    exact ⟨index, ⟨⟨target, ⟨written, begun, opens.led⟩, found⟩, inline⟩, rfl⟩

theorem Needs.schema (steady : project.Steady) (needs : project.Needs asker written request)
    (begun : project.Begins asker written) (known : request.schema? project.document = some s)
    (begins : project.Begins request.name t) : t = s := by
  cases begins.origin with
  | document found =>
      cases request with
      | reference target => exact Option.some.inj (found.symm.trans known)
      | arm child arm =>
          cases known
          obtain ⟨index, holds, rfl⟩ := needs.holds begun
          exact (steady.apart _ _ _ _ ⟨holds, found⟩).elim
  | arm holds named =>
      cases request with
      | reference target =>
          have taken : project.document.get? target = some s := known
          rw [show target = _ from named] at taken
          exact (steady.apart _ _ _ _ ⟨holds, taken⟩).elim
      | arm child arm =>
          cases known
          obtain ⟨position, holds', same⟩ := needs.holds begun
          obtain ⟨rfl, rfl⟩ := Drafting.armName_inj (named.symm.trans same)
          exact holds.unique holds'

theorem Hands.ready (steady : project.Steady) (hands : project.Hands asker request m) :
    ∃ final, project.resolveAll.cache.entries.get? request.name = some (.ready final) := by
  rcases hands.ready_or_borrows with ready | borrows
  · exact ready
  · exact mem_models_names.mp (borrows.concluded.resolve_right (steady.kept asker request borrows))

theorem Begins.finishes (begins : project.Begins name written) (lives : name ∉ project.run.failed) :
    ∃ m ∈ project.run.models, m.name = name ∧ project.Finishes name m := by
  obtain ⟨m, known, rfl⟩ := ready_of_not_failed begins lives
  exact ⟨m, known, rfl, (Progress.passes_done project).finishes (project.mem_run_models.mp known)⟩

theorem Begins.grounds (begins : project.Begins name written) (lives : name ∉ project.run.failed) :
    ∃ target outlined parents settled, project.Opens name written target outlined ∧
      project.Grounds target outlined parents settled := by
  obtain ⟨m, -, -, other, target, parents, settled, begun, ⟨outlined, gathers, grounds⟩, -⟩ := begins.finishes lives
  cases begun.unique begins
  exact ⟨target, outlined, parents, settled, gathers.opens, grounds⟩

theorem Begins.hands (begins : project.Begins name written) (lives : name ∉ project.run.failed)
    (needs : project.Needs name written request) : ∃ child, project.Hands name request child := by
  obtain ⟨m, -, -, other, target, parents, settled, begun, ⟨outlined, gathers, -⟩, taken, -⟩ := begins.finishes lives
  cases begun.unique begins
  obtain ⟨target', outlined', opens, listed⟩ := needs
  obtain ⟨rfl, rfl⟩ := gathers.opens.same (.refl project) opens
  rcases List.mem_append.mp listed with parent | arm
  · obtain ⟨answer, bequeaths⟩ := gathers.bequeaths parent
    exact ⟨answer, bequeaths.hands⟩
  · exact (taken request arm).handed

end Requests

section Failures

theorem Unfit.failed (steady : project.Steady) (unfit : project.Unfit name written)
    (begins : project.Begins name written) : name ∈ project.run.failed := by
  induction unfit with
  | opening failed =>
      by_contra lives
      obtain ⟨target, outlined, parents, settled, opens, -⟩ := begins.grounds lives
      exact opens.not_failed (.refl project) failed
  | ground opens failed =>
      by_contra lives
      obtain ⟨target', outlined', parents', settled, opens', grounds⟩ := begins.grounds lives
      obtain ⟨rfl, rfl⟩ := opens.same (.refl project) opens'
      exact grounds.not_failed (.refl project) failed
  | missing needs absent =>
      by_contra lives
      obtain ⟨child, k, passes, -, ⟨s, known⟩, -⟩ := begins.hands lives needs
      cases absent.symm.trans known
  | needs needs known _ ih =>
      by_contra lives
      obtain ⟨child, hands⟩ := begins.hands lives needs
      obtain ⟨final, ready⟩ := hands.ready steady
      obtain ⟨t, begun⟩ := begun_of_found ready
      cases needs.schema steady begins known begun
      exact project.not_failed_of_model (mem_models_names.mpr ⟨final, ready⟩) (ih begun)

theorem Needs.unfit (needs : project.Needs name written request) (bad : ¬ project.Fit request) :
    project.Unfit name written := by
  cases known : request.schema? project.document with
  | none => exact .missing needs known
  | some s =>
      by_contra fit
      exact bad ⟨s, known, fun worse => fit (.needs needs known worse)⟩

theorem Halts.unfit {denied : Request → Prop} (halts : project.Halts denied name written)
    (bad : ∀ request, project.Needs name written request → denied request → ¬ project.Fit request) :
    project.Unfit name written := by
  have refused {target : Schema} {outlined : Model} {request : Request}
      (opens : project.Opens name written target outlined)
      (listed : request ∈ target.parentRequests ++ target.armRequests name) (denies : denied request) :
      project.Unfit name written := by
    have needs : project.Needs name written request := ⟨target, outlined, opens, listed⟩
    exact needs.unfit (bad request needs denies)
  cases halts with
  | opening failed => exact .opening failed
  | parent opens listed denies => exact refused opens (List.mem_append_left _ listed) denies
  | ground opens failed => exact .ground opens failed
  | arm settles split taken denies =>
      obtain ⟨outlined, gathers, -⟩ := settles
      refine refused gathers.opens (List.mem_append_right _ ?_) denies
      exact split ▸ List.mem_append_right _ List.mem_cons_self

end Failures
end Project

namespace Progress
variable {project : Project} {k : Progress} {name asker : String} {written s : Schema} {request : Request}

theorem Denied.not_fit (steady : project.Steady) (passes : Passes project k) (denied : Denied project k request)
    (needs : project.Needs asker written request) (begun : project.Begins asker written)
    (unfit : ∀ e s, k.cache.entries.get? request.name = some (.failed e) → project.Begins request.name s →
      project.Unfit request.name s) : ¬ project.Fit request := by
  rintro ⟨s, known, sound⟩
  rcases denied with absent | ⟨e, failed⟩
  · cases absent.symm.trans known
  · obtain ⟨t, begins⟩ := passes.begun (Table.mem_names_of_get? failed)
    cases needs.schema steady begun known begins
    exact sound (unfit e _ failed begins)

theorem Passes.unfit (steady : project.Steady) (passes : Passes project k) {e : ModelError}
    (failed : k.cache.entries.get? name = some (.failed e)) (begins : project.Begins name s) :
    project.Unfit name s := by
  refine passes.induction (P := fun k => ∀ name e s, k.cache.entries.get? name = some (.failed e) →
    project.Begins name s → project.Unfit name s) (fun _ _ _ found => nomatch found) ?_ name e s failed begins
  intro k next before _ step unfit name e s failed begins
  rcases before.coherent.failed step failed with old | ⟨build, below, after, top, rfl, fault⟩
  · exact unfit name e s old begins
  · obtain ⟨session, builds, waiting⟩ := k
    cases top
    cases begins.unique (before.accounted.sound build List.mem_cons_self).begun
    refine (fault.halts before).unfit fun request needs denied => ?_
    exact denied.not_fit steady before needs begins fun e _ => unfit request.name e _

end Progress

namespace Project
variable {project : Project} {name asker : String} {written s : Schema} {request : Request}

theorem Begins.failed_iff (steady : project.Steady) (begins : project.Begins name s) :
    name ∈ project.run.failed ↔ project.Unfit name s := by
  constructor
  · intro failed
    obtain ⟨e, stored⟩ := project.mem_run_failed.mp failed
    exact (Progress.passes_done project).unfit steady stored begins
  · exact fun unfit => unfit.failed steady begins

theorem Needs.not_fit (steady : project.Steady) (needs : project.Needs asker written request)
    (begun : project.Begins asker written) (denied : Progress.Denied project (Progress.done project) request) :
    ¬ project.Fit request :=
  denied.not_fit steady (Progress.passes_done project) needs begun fun e _ failed begins =>
    (begins.failed_iff steady).mp (project.mem_run_failed.mpr ⟨e, failed⟩)

theorem Needs.fit {m : Model} (steady : project.Steady) (needs : project.Needs asker written request)
    (begun : project.Begins asker written) (hands : project.Hands asker request m) : project.Fit request := by
  obtain ⟨final, ready⟩ := hands.ready steady
  obtain ⟨t, begins⟩ := begun_of_found ready
  obtain ⟨k, passes, -, ⟨s, known⟩, -⟩ := hands
  cases needs.schema steady begun known begins
  exact ⟨_, known, fun unfit =>
    project.not_failed_of_model (mem_models_names.mpr ⟨final, ready⟩) (unfit.failed steady begins)⟩

section Builds

theorem Admits.needs (admits : project.Admits name written request) : project.Needs name written request := by
  obtain ⟨target, done, rest, ⟨⟨outlined, parents, settled, opens, -⟩, -⟩, split⟩ := admits
  exact ⟨target, outlined, opens, List.mem_append_right _ (split ▸ List.mem_append_right _ List.mem_cons_self)⟩

theorem Settles.offers {target : Schema} {parents : List Model} {settled : Model} {done rest : List Request}
    (steady : project.Steady) (begun : project.Begins name written)
    (settles : project.Settles name written target parents settled) (split : target.armRequests name = done ++ rest)
    (taken : ∀ r ∈ done, project.Takes name r) : project.Offers name written target done := by
  obtain ⟨outlined, gathers, grounds⟩ := settles
  refine ⟨⟨outlined, parents, settled, gathers.opens, grounds⟩, fun r listed => ?_, fun r listed => ?_⟩
  · obtain ⟨answer, bequeaths⟩ := gathers.bequeaths listed
    have needs : project.Needs name written r := ⟨target, outlined, gathers.opens, List.mem_append_left _ listed⟩
    exact needs.fit steady begun bequeaths.hands
  · obtain ⟨answer, hands⟩ := (taken r listed).handed
    have arm : r ∈ target.armRequests name := split ▸ List.mem_append_left _ listed
    have needs : project.Needs name written r := ⟨target, outlined, gathers.opens, List.mem_append_right _ arm⟩
    exact needs.fit steady begun hands

theorem places {α : Type} {before after front back : List α} {a b : α}
    (same : before ++ a :: after = front ++ b :: back) : a ∈ front ∨ b ∈ before ∨ a = b := by
  rcases List.append_eq_append_iff.mp same with ⟨between, rfl, tail⟩ | ⟨between, rfl, tail⟩
  · cases between with
    | nil => exact .inr (.inr (List.cons.inj tail).1)
    | cons first more => exact .inl ((List.cons.inj tail).1 ▸ List.mem_append_right _ List.mem_cons_self)
  · cases between with
    | nil => exact .inr (.inr (List.cons.inj tail).1.symm)
    | cons first more => exact .inr (.inl ((List.cons.inj tail).1 ▸ List.mem_append_right _ List.mem_cons_self))

theorem Admits.meets (steady : project.Steady) (admits : project.Admits name written request)
    (begins : project.Begins name written) :
    project.Takes name request ∨ Progress.Denied project (Progress.done project) request := by
  obtain ⟨target, done, rest, ⟨⟨outlined, parents, settled, opens, grounds⟩, elders, arms⟩, split⟩ := admits
  by_cases fails : name ∈ project.run.failed
  · obtain ⟨e, stored⟩ := project.mem_run_failed.mp fails
    obtain ⟨other, begun, halts⟩ := (Progress.passes_done project).halts stored
    cases begun.unique begins
    have fit {r : Request} (listed : r ∈ target.parentRequests ++ target.armRequests name) (good : project.Fit r)
        (denied : Progress.Denied project (Progress.done project) r) : False := by
      have needs : project.Needs name written r := ⟨target, outlined, opens, listed⟩
      exact needs.not_fit steady begins denied good
    cases halts with
    | opening failed => exact (opens.not_failed (.refl project) failed).elim
    | parent opens' listed denied =>
        obtain ⟨rfl, rfl⟩ := opens.same (.refl project) opens'
        exact (fit (List.mem_append_left _ listed) (elders _ listed) denied).elim
    | ground opens' failed =>
        obtain ⟨rfl, rfl⟩ := opens.same (.refl project) opens'
        exact (grounds.not_failed (.refl project) failed).elim
    | @arm target' parents' settled' passed later request' settles split' taken denied =>
        obtain ⟨outlined', gathers, -⟩ := settles
        obtain ⟨rfl, rfl⟩ := opens.same (.refl project) gathers.opens
        have asked : request' ∈ target'.armRequests name := split' ▸ List.mem_append_right _ List.mem_cons_self
        rcases places (split.symm.trans split') with earlier | later | same
        · exact .inl (taken request earlier)
        · exact (fit (List.mem_append_right _ asked) (arms request' later) denied).elim
        · exact .inr (same ▸ denied)
  · obtain ⟨m, -, -, other, target', parents', settled', begun, ⟨outlined', gathers, -⟩, taken, -⟩ := begins.finishes fails
    cases begun.unique begins
    obtain ⟨rfl, rfl⟩ := opens.same (.refl project) gathers.opens
    exact .inl (taken request (split ▸ List.mem_append_right _ List.mem_cons_self))

end Builds
end Project

namespace Progress
variable {project : Project} {k : Progress}

theorem Passes.admits (steady : project.Steady) (passes : Passes project k) {build : Build} (under : build ∈ k.builds)
    {name : String} {s : Schema} {rest : List Request} (head : build.stage.requests = .arm name s :: rest) :
    project.Admits build.name build.written (.arm name s) := by
  have begun := (passes.accounted.sound build under).begun
  obtain ⟨m, stage⟩ := passes.links_arm under (head ▸ List.mem_cons_self)
  obtain ⟨target, parents, settled, settles, done, split, taken, -⟩ := (passes.traced build under).linking stage
  rw [head] at split
  exact ⟨target, done, rest, settles.offers steady begun split taken, split⟩

theorem Passes.reached (steady : project.Steady) (passes : Passes project k) {builds : List Build}
    (stands : builds <:+ k.builds) : ∀ build ∈ builds, project.Reached build.name build.written := by
  induction builds with
  | nil => exact fun _ none => absurd none List.not_mem_nil
  | cons build below ih =>
      have lower := ih ((List.suffix_cons _ _).trans stands)
      intro other listed
      rcases List.mem_cons.mp listed with rfl | under
      · have asks := passes.chained other below stands
        generalize waits : k.waiting = waiting at asks
        generalize other.name = name at asks
        generalize other.written = written at asks
        cases asks with
        | run => exact .document (Table.get?_eq_some.mpr (passes.accounted.listed _ (waits ▸ List.mem_cons_self)))
        | @build asker _ _ request _ _ head known =>
            cases request with
            | reference target => exact .document known
            | arm child arm =>
                cases known
                have inK : asker ∈ k.builds := stands.subset (List.mem_cons_of_mem _ List.mem_cons_self)
                exact .arm (lower asker List.mem_cons_self) (passes.admits steady inK head)
      · exact lower other under

end Progress

namespace Project
variable {project : Project} {name union child : String} {written s : Schema}

theorem Begins.reached (steady : project.Steady) (begins : project.Begins name s) : project.Reached name s := by
  obtain ⟨k, passes, top⟩ := begins
  exact passes.reached steady (List.suffix_refl _) _ (List.mem_of_mem_head? top)

theorem Reached.begins (steady : project.Steady) (reached : project.Reached name s) : project.Begins name s := by
  induction reached with
  | @document name s found =>
      obtain ⟨t, begins⟩ := begun_of_listed (Table.mem_names_of_get? found)
      cases begins.origin with
      | document found' =>
          cases found.symm.trans found'
          exact begins
      | arm holds named => exact (steady.apart _ _ _ _ ⟨holds, named ▸ found⟩).elim
  | @arm union name written s _ admits ih =>
      have known : ∃ entry, project.resolveAll.cache.entries.get? name = some entry := by
        rcases admits.meets steady ih with takes | (absent | ⟨e, failed⟩)
        · obtain ⟨m, hands⟩ := takes.handed
          obtain ⟨entry, found, -⟩ := hands.known
          exact ⟨entry, found⟩
        · cases absent
        · exact ⟨_, failed⟩
      obtain ⟨entry, found⟩ := known
      obtain ⟨t, begins⟩ := begun_of_found found
      cases admits.needs.schema steady ih rfl begins
      exact begins

theorem links_iff_joins (steady : project.Steady) : project.Links union child ↔ project.Joins union child := by
  constructor
  · rintro ⟨k, passes, build, under, rfl, m, rest, stage, listed⟩
    have begun := (passes.accounted.sound build under).begun
    obtain ⟨target, parents, settled, settles, done, split, taken, rfl⟩ := (passes.traced build under).linking stage
    rw [Model.mem_addMembers, settles.unionMembers] at listed
    obtain ⟨request, asked, rfl⟩ := List.mem_map.mp (listed.resolve_right List.not_mem_nil)
    obtain ⟨before, after, rfl⟩ := List.append_of_mem asked
    have earlier : ∀ r ∈ before, project.Takes build.name r := fun r passed => taken r (List.mem_append_left _ passed)
    have place : target.armRequests build.name = before ++ request :: (after ++ rest) := by
      rw [split, List.append_assoc, List.cons_append]
    have admits : project.Admits build.name build.written request :=
      ⟨target, before, _, settles.offers steady begun place earlier, place⟩
    obtain ⟨answer, hands⟩ := (taken request asked).handed
    exact ⟨build.written, request, begun.reached steady, admits, admits.needs.fit steady begun hands, rfl⟩
  · rintro ⟨written, request, reached, admits, fit, rfl⟩
    have begins := reached.begins steady
    rcases admits.meets steady begins with takes | denied
    · exact takes.linked
    · exact absurd fit (admits.needs.not_fit steady begins denied)

theorem mem_models_iff (steady : project.Steady) :
    name ∈ project.run.models.map (·.name) ↔ ∃ s, project.Reached name s ∧ ¬ project.Unfit name s := by
  constructor
  · intro listed
    obtain ⟨m, ready⟩ := mem_models_names.mp listed
    obtain ⟨s, begins⟩ := begun_of_found ready
    exact ⟨s, begins.reached steady, fun unfit => project.not_failed_of_model listed (unfit.failed steady begins)⟩
  · rintro ⟨s, reached, fit⟩
    have begins := reached.begins steady
    obtain ⟨m, known, rfl⟩ := ready_of_not_failed begins fun failed => fit ((begins.failed_iff steady).mp failed)
    exact List.mem_map_of_mem known

theorem mem_failed_iff (steady : project.Steady) :
    name ∈ project.run.failed ↔ ∃ s, project.Reached name s ∧ project.Unfit name s := by
  constructor
  · intro failed
    obtain ⟨e, stored⟩ := project.mem_run_failed.mp failed
    obtain ⟨s, begins⟩ := begun_of_found stored
    exact ⟨s, begins.reached steady, (begins.failed_iff steady).mp failed⟩
  · rintro ⟨s, reached, unfit⟩
    exact unfit.failed steady (reached.begins steady)

end Project
end ApiModels
