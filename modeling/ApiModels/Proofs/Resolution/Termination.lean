import ApiModels.Proofs.Document.Arms
import ApiModels.Proofs.Resolution.Askers
import ApiModels.Proofs.Resolution.Calls

namespace ApiModels
namespace Resolution

-- Resolves like `request`, but turns to another resolver once the depth is used up.
def requestElse (project : Project) (last : Resolver) (depth : Nat) (name : String) (s : Schema) : Resolution Model := do
  match (← get).cache.lookup name with
  | some known => ofExcept known
  | none =>
      match depth with
      | 0 => last name s
      | depth + 1 => store name (build project (requestElse project last depth) name s)

theorem requestElse_resolves (project : Project) (last : Resolver) (extra : Nat) :
    Progress.Resolves project (fun _ => True) fun depth => requestElse project last (depth + extra) where
  known {k depth name s answer} _ _ known := by
    have found : k.session.cache.lookup name = some answer := known
    unfold requestElse
    rw [get_bind, found]
  fresh {k depth name s} _ _ fresh := by
    have absent : k.session.cache.lookup name = none := fresh
    rw [Nat.add_right_comm, requestElse, get_bind, absent]

end Resolution

namespace Progress
variable {project : Project} {k next : Progress} {session : Session} {name : String} {s : Schema}

theorem Answered.unique {one two : EStateM.Result ModelError Session Model}
    (first : Answered project ⟨session, [], [(name, s)]⟩ name one)
    (second : Answered project ⟨session, [], [(name, s)]⟩ name two) : one = two := by
  have same : leftBy one = leftBy two := first.onward.ended_unique second.onward
  cases one with
  | ok m next =>
      cases two with
      | ok m' next' =>
          cases same
          cases first.1.symm.trans second.1
          rfl
      | error e' next' =>
          cases same
          cases first.1.symm.trans second.1
  | error e next =>
      cases two with
      | ok m' next' =>
          cases same
          cases first.1.symm.trans second.1
      | error e' next' =>
          cases same
          cases first.1.symm.trans second.1
          rfl

theorem Resolves.agree {one two : Nat → Resolver} (first : Resolves project (fun _ => True) one)
    (second : Resolves project (fun _ => True) two) {depth deep : Nat}
    (enough : session.cache.lookup name = none → s.armDepth + project.budget (name :: session.cache.entries.names) ≤ depth)
    (more : session.cache.lookup name = none → s.armDepth + project.budget (name :: session.cache.entries.names) ≤ deep) :
    one depth name s session = two deep name s session :=
  (first.answers [] enough).unique (second.answers [] more)

theorem call_deep (project : Project) (last : Resolver) (extra : Nat) (call : Call) :
    call.through project (fun depth => Resolution.requestElse project last (depth + extra)) = call.action project := by
  funext session
  rw [← Call.through_request, Call.through_eq, Call.through_eq]
  cases asks : call.request? project.document with
  | none => rfl
  | some request =>
      obtain ⟨name, s⟩ := request
      have resolves := Resolution.requestElse_resolves project last extra
      have agree := resolves.agree (request_resolves project fun _ => True)
        (call.enough asks : session.cache.lookup name = none → _) (call.enough asks)
      dsimp only
      change EStateM.adaptExcept _ _ _ = EStateM.adaptExcept _ _ _
      unfold EStateM.adaptExcept
      rw [agree]

theorem waiting_ends (session : Session) (waiting : List (String × Schema)) :
    ∃ last, Run project ⟨session, [], waiting⟩ ⟨last, [], []⟩ := by
  induction waiting generalizing session with
  | nil => exact ⟨session, .refl⟩
  | cons head rest ih =>
      obtain ⟨name, s⟩ := head
      obtain ⟨last, later⟩ := ih (leftBy (Resolution.request project (project.depthFor s) name s session))
      exact ⟨last, (request_onward session name s rest).trans later⟩

-- A state has one step at most, so one run that ends rules out every endless one.
theorem Run.accessible {last : Session} (run : Run project k ⟨last, [], []⟩) :
    Acc (fun next k => Step project k next) k := by
  induction run using Relation.ReflTransGen.head_induction_on with
  | refl => exact .intro _ fun _ step => step.not_ended.elim
  | head step _ ih => exact .intro _ fun _ other => step.unique other ▸ ih

end Progress

namespace Cache

def started (cache : Cache) : Nat := cache.buildCounts.values.foldr (· + ·) 0

theorem total_of_marks {allowed : List String} (entries : List (String × Nat))
    (marks : ∀ entry ∈ entries, entry.2 = if entry.1 ∈ allowed then 1 else 0) :
    (entries.map Prod.snd).foldr (· + ·) 0 = ((entries.map Prod.fst).filter (· ∈ allowed)).length := by
  induction entries with
  | nil => rfl
  | cons head rest ih =>
      have later := ih fun entry listed => marks entry (List.mem_cons_of_mem _ listed)
      rw [List.map_cons, List.map_cons, List.foldr_cons, marks head List.mem_cons_self, later, List.filter_cons]
      by_cases known : head.1 ∈ allowed
      · simp [known, Nat.add_comm]
      · simp [known]

end Cache

namespace Progress
variable {project : Project} {k : Progress}

theorem Coherent.started_le (valid : Coherent k) : k.cache.started ≤ k.cache.entries.names.length := by
  have marks : ∀ entry ∈ k.cache.buildCounts.entries, entry.2 = if entry.1 ∈ k.cache.entries.names then 1 else 0 := by
    intro entry listed
    have counted : k.cache.buildCount entry.1 = entry.2 := by
      rw [Cache.buildCount, Table.get?_eq_some.mpr listed, Option.getD_some]
    have known : (k.cache.phase? entry.1).isSome ↔ entry.1 ∈ k.cache.entries.names := by
      rw [← Table.contains_iff, Cache.phase?, Option.isSome_map, Table.contains]
    rw [← counted, valid.once]
    exact if_congr known rfl rfl
  have total : k.cache.started = _ := Cache.total_of_marks _ marks
  rw [total]
  refine (k.cache.buildCounts.distinct.filter _).length_le_of_subset fun name listed => ?_
  simpa using (List.mem_filter.mp listed).2

end Progress

namespace Drafting

theorem armName_length (parent : String) (index : Nat) : parent.length < (armName parent index).length := by
  unfold armName
  rw [String.length_append, String.length_append]
  have digits : "OneOf".length = 5 := rfl
  omega

end Drafting

namespace Project
variable {project : Project} {name : String} {s : Schema}

-- The name of a nested arm is longer than the one that it is nested in, so that this is an induction on the name.
theorem Begins.arms (begins : project.Begins name s) : s.armNames name ⊆ project.document.armNames := by
  induction size : name.length using Nat.strong_induction_on generalizing name s with
  | _ size ih =>
      cases begins.origin with
      | document found => exact Document.armNames_of_get? found
      | @arm parent index holds named =>
          obtain ⟨⟨target, ⟨written, begun, led⟩, found⟩, inline⟩ := holds
          obtain rfl := Document.unalias_composed led (Schema.isComposed_of_arm (List.mem_of_getElem? found))
          have shorter : parent.length < name.length := by
            rw [named]
            exact Drafting.armName_length parent index
          have outer := ih parent.length (by omega) begun rfl
          have inner : Drafting.armName parent index :: s.armNames (Drafting.armName parent index) ⊆ _ :=
            Schema.armNames_arm found inline
          rw [← named] at inner
          exact fun other listed => outer (inner (List.mem_cons_of_mem _ listed))

theorem Generates.listed (generates : project.Generates name) : name ∈ project.document.armNames := by
  obtain ⟨parent, written, index, arm, begun, found, inline, rfl⟩ := generates
  exact begun.arms (Schema.armNames_arm found inline List.mem_cons_self)

theorem started_le (project : Project) :
    project.resolveAll.cache.started ≤ project.document.names.length + project.document.inlineArms := by
  have passes := Progress.passes_done project
  refine Nat.le_trans passes.coherent.started_le ?_
  rw [← Document.armNames_length, ← List.length_append]
  refine List.Nodup.length_le_of_subset (Table.distinct _) fun name listed => ?_
  rcases passes.accounted.known name listed with known | generated
  · exact List.mem_append_left _ known
  · exact List.mem_append_right _ generated.listed

-- Whatever a call is given beyond its depth, and wherever it would turn with the depth used up, it does the same;
-- it takes the steps of its request, and from no session and no list of requests do the steps go on forever. A
-- run starts at most one build for each name of the document and for each inline arm.
theorem resolution_ends (project : Project) :
    (∀ (last : Resolver) (extra : Nat) (call : Call),
      call.through project (fun depth => Resolution.requestElse project last (depth + extra)) = call.action project) ∧
      (∀ (call : Call) (session : Session),
        Progress.Run project ⟨session, [], (call.request? project.document).toList⟩
          ⟨Progress.leftBy (call.action project session), [], []⟩) ∧
      (∀ (session : Session) (waiting : List (String × Schema)),
        Acc (fun next k => Progress.Step project k next) ⟨session, [], waiting⟩) ∧
      project.resolveAll.cache.started ≤ project.document.names.length + project.document.inlineArms := by
  refine ⟨Progress.call_deep project, fun call session => ?_, fun session waiting => ?_, project.started_le⟩
  · have runs := call_runs (fun _ _ => trivial) (Progress.request_resolves project fun _ => True) call session [] trivial
    rw [Call.through_request, List.append_nil] at runs
    exact runs
  · obtain ⟨last, run⟩ := Progress.waiting_ends session waiting
    exact run.accessible

end Project
end ApiModels
