import ApiModels.Proofs.Report.Outcomes

namespace ApiModels
namespace Progress
variable {project : Project} {k next other : Progress} {name : String}

theorem Asks.unique {document : Document} {builds : List Build} {waiting : List (String × Schema)}
    {name other : String} {s t : Schema} (one : Asks document builds waiting name s)
    (two : Asks document builds waiting other t) : name = other ∧ s = t := by
  cases one with
  | run =>
      cases two with
      | run => exact ⟨rfl, rfl⟩
  | build head known =>
      cases two with
      | build head' known' =>
          cases head.symm.trans head'
          cases known.symm.trans known'
          exact ⟨rfl, rfl⟩

theorem Asks.top {document : Document} {build : Build} {below : List Build} {waiting : List (String × Schema)}
    {s : Schema} (asks : Asks document (build :: below) waiting name s) : ∃ request rest,
      build.stage.requests = request :: rest ∧ request.schema? document = some s ∧ request.name = name := by
  cases asks with
  | build head known => exact ⟨_, _, head, known, rfl⟩

-- What a build fails of is settled by its stage: a request that it has left, its opening, or its own properties.
theorem Fault.asking {session after : Session} {build : Build} {request : Request} {rest : List Request}
    {e : ModelError} (fault : Fault project session build e after) (head : build.stage.requests = request :: rest) :
    after = session ∧ (request.schema? project.document = none ∧ e = .unresolvedReference build.name request.name ∨
      ∃ s cause, request.schema? project.document = some s ∧
        session.cache.lookup request.name = some (.error cause) ∧ e = request.blame build.name cause) := by
  cases fault with
  | opening stage => rw [stage] at head; cases head
  | missing head' absent =>
      cases head.symm.trans head'
      exact ⟨rfl, .inl ⟨absent, rfl⟩⟩
  | refused head' known answered =>
      cases head.symm.trans head'
      exact ⟨rfl, .inr ⟨_, _, known, answered, rfl⟩⟩
  | settling stage => rw [stage] at head; cases head

theorem Fault.opens {session after : Session} {build : Build} {e : ModelError}
    (fault : Fault project session build e after) (stage : build.stage = .opening) :
    Resolution.opening project build.name build.written session = .error e after := by
  cases fault with
  | opening _ failed => exact failed
  | missing head => rw [stage] at head; cases head
  | refused head => rw [stage] at head; cases head
  | settling stage' => cases stage.symm.trans stage'

theorem Fault.settles {session after : Session} {build : Build} {e : ModelError} {target : Schema}
    {outlined : Model} {parents : List Model} (fault : Fault project session build e after)
    (stage : build.stage = .inheriting target outlined parents []) :
    ∃ draft, Drafting.groundwork project target parents ⟨session, outlined⟩ = .error e draft ∧
      after = draft.session := by
  cases fault with
  | opening stage' => cases stage.symm.trans stage'
  | missing head => rw [stage] at head; cases head
  | refused head => rw [stage] at head; cases head
  | settling stage' failed =>
      cases stage.symm.trans stage'
      exact ⟨_, failed, rfl⟩

theorem Fault.not_linked {session after : Session} {build : Build} {e : ModelError} {m : Model}
    (fault : Fault project session build e after) (stage : build.stage = .linking m []) : False := by
  cases fault with
  | opening stage' => cases stage.symm.trans stage'
  | missing head => rw [stage] at head; cases head
  | refused head => rw [stage] at head; cases head
  | settling stage' => cases stage.symm.trans stage'

theorem Fault.unique {session one two : Session} {build : Build} {e f : ModelError}
    (first : Fault project session build e one) (second : Fault project session build f two) : e = f ∧ one = two := by
  cases first with
  | opening stage failed =>
      cases failed.symm.trans (second.opens stage)
      exact ⟨rfl, rfl⟩
  | missing head absent =>
      obtain ⟨rfl, ⟨-, rfl⟩ | ⟨s, cause, known, -⟩⟩ := second.asking head
      · exact ⟨rfl, rfl⟩
      · cases absent.symm.trans known
  | refused head known answered =>
      obtain ⟨rfl, ⟨absent, -⟩ | ⟨s, cause, -, answered', rfl⟩⟩ := second.asking head
      · cases absent.symm.trans known
      · cases answered.symm.trans answered'
        exact ⟨rfl, rfl⟩
  | settling stage failed =>
      obtain ⟨draft, failed', rfl⟩ := second.settles stage
      cases failed.symm.trans failed'
      exact ⟨rfl, rfl⟩

theorem Fault.not_granted {session after : Session} {build : Build} {request : Request} {rest : List Request}
    {s : Schema} {e : ModelError} (fault : Fault project session build e after)
    (head : build.stage.requests = request :: rest) (known : request.schema? project.document = some s)
    (granted : ∀ cause, session.cache.lookup request.name ≠ some (.error cause)) : False := by
  obtain ⟨-, ⟨absent, -⟩ | ⟨_, cause, -, answered, -⟩⟩ := fault.asking head
  · cases absent.symm.trans known
  · exact granted cause answered

theorem Step.begin_unique {session : Session} {builds : List Build} {waiting : List (String × Schema)} {s : Schema}
    (asks : Asks project.document builds waiting name s) (fresh : session.cache.lookup name = none)
    (step : Step project ⟨session, builds, waiting⟩ next) :
    next = ⟨{ session with cache := session.cache.begin name }, ⟨name, s, .opening⟩ :: builds, waiting⟩ := by
  cases step with
  | begin asks' _ =>
      obtain ⟨rfl, rfl⟩ := asks'.unique asks
      rfl
  | reuse known =>
      cases asks with
      | run => cases fresh.symm.trans known
  | fail fault =>
      obtain ⟨request, rest, head, known, rfl⟩ := asks.top
      exact (fault.not_granted head known (by simp [fresh])).elim
  | inherit _ answered =>
      obtain ⟨_, _, head, -, rfl⟩ := asks.top
      cases head
      cases fresh.symm.trans answered
  | link _ answered =>
      obtain ⟨_, _, head, -, rfl⟩ := asks.top
      cases head
      cases fresh.symm.trans answered
  | _ =>
      obtain ⟨_, _, head, -⟩ := asks.top
      cases head

theorem Step.fail_unique {session after : Session} {build : Build} {below : List Build}
    {waiting : List (String × Schema)} {e : ModelError} (fault : Fault project session build e after)
    (step : Step project ⟨session, build :: below, waiting⟩ next) :
    next = ⟨after.failed build.name e, below, waiting⟩ := by
  cases step with
  | begin asks fresh =>
      obtain ⟨request, rest, head, known, rfl⟩ := asks.top
      exact (fault.not_granted head known (by simp [fresh])).elim
  | opened opened => cases opened.symm.trans (fault.opens rfl)
  | inherit known answered => exact (fault.not_granted rfl known (by simp [answered])).elim
  | settle settled =>
      obtain ⟨draft, failed, -⟩ := fault.settles rfl
      cases settled.symm.trans failed
  | link known answered => exact (fault.not_granted rfl known (by simp [answered])).elim
  | close => exact (fault.not_linked rfl).elim
  | fail fault' =>
      obtain ⟨rfl, rfl⟩ := fault.unique fault'
      rfl

theorem Step.unique (one : Step project k next) (two : Step project k other) : next = other := by
  cases two with
  | begin asks fresh => exact one.begin_unique asks fresh
  | fail fault => exact one.fail_unique fault
  | reuse known =>
      cases one with
      | begin asks fresh => exact ((Step.reuse known).begin_unique asks fresh).symm
      | reuse => rfl
  | opened opened =>
      cases one with
      | begin asks fresh => exact ((Step.opened opened).begin_unique asks fresh).symm
      | fail fault => exact ((Step.opened opened).fail_unique fault).symm
      | opened opened' =>
          cases opened.symm.trans opened'
          rfl
  | inherit known answered =>
      cases one with
      | begin asks fresh => exact ((Step.inherit known answered).begin_unique asks fresh).symm
      | fail fault => exact ((Step.inherit known answered).fail_unique fault).symm
      | inherit _ answered' =>
          cases answered.symm.trans answered'
          rfl
  | settle settled =>
      cases one with
      | begin asks fresh => exact ((Step.settle settled).begin_unique asks fresh).symm
      | fail fault => exact ((Step.settle settled).fail_unique fault).symm
      | settle settled' =>
          cases settled.symm.trans settled'
          rfl
  | link known answered =>
      cases one with
      | begin asks fresh => exact ((Step.link known answered).begin_unique asks fresh).symm
      | fail fault => exact ((Step.link known answered).fail_unique fault).symm
      | link => rfl
  | close =>
      cases one with
      | begin asks fresh => exact (Step.close.begin_unique asks fresh).symm
      | fail fault => exact (Step.close.fail_unique fault).symm
      | close => rfl

theorem Run.total (one : Run project k next) (two : Run project k other) :
    Run project next other ∨ Run project other next :=
  Relation.ReflTransGen.total_of_right_unique (fun _ _ _ => Step.unique) one two

theorem Passes.total (one : Passes project k) (two : Passes project other) :
    Run project k other ∨ Run project other k := one.1.total two.1

end Progress
end ApiModels
