import ApiModels.Proofs.Report.Outcomes

namespace ApiModels

-- A reason that lies in the document, not in another failure.
inductive ModelError.Grounded (document : Document) (name : String) : ModelError → Prop where
  | unresolved {reference : String} : reference ∉ document.names →
      Grounded document name (.unresolvedReference name reference)
  | looped {chain : List String} : document.Loop chain → Grounded document name (.cyclicReference name chain)
  | inherited {cycle : List String} : name ∈ cycle → Grounded document name (.cyclicInheritance name cycle)

theorem RefFault.grounded {project : Project} {name : String} {e : ModelError} (fault : RefFault project name e) :
    e.Grounded project.document name := by
  obtain ⟨issue, genuine, rfl⟩ := fault
  cases genuine with
  | missing absent => exact .unresolved absent
  | cycle loop => exact .looped loop

theorem Resolution.OpeningFault.grounded {project : Project} {name : String} {e : ModelError}
    (fault : OpeningFault project name e) : e.Grounded project.document name := by
  rcases fault with ⟨cycle, found, rfl⟩ | fault
  · exact .inherited (by simpa using List.find?_some found)
  · exact fault.grounded

-- The failure of a name, with its reason and the failures that this reason refers to.
inductive Founded (document : Document) (cache : Cache) : String → ModelError → Prop where
  | ground {name : String} {e : ModelError} : e.Grounded document name → Founded document cache name e
  | dependency {name other : String} {e : ModelError} : cache.entries.get? other = some (.failed e) →
      Founded document cache other e → Founded document cache name (.dependencyFailed name other)

namespace Founded
variable {document : Document} {cache later : Cache} {name : String} {e : ModelError}

theorem schema (founded : Founded document cache name e) : e.schema? = some name := by
  cases founded with
  | ground grounded => cases grounded <;> rfl
  | dependency => rfl

theorem mono (founded : Founded document cache name e)
    (kept : ∀ other e', cache.entries.get? other = some (.failed e') → later.entries.get? other = some (.failed e')) :
    Founded document later name e := by
  induction founded with
  | ground grounded => exact .ground grounded
  | dependency found _ ih => exact .dependency (kept _ _ found) ih

end Founded

namespace Progress
variable {project : Project} {k next : Progress}

theorem Coherent.not_pending {session : Session} {build : Build} {below : List Build}
    {waiting : List (String × Schema)} (valid : Coherent ⟨session, build :: below, waiting⟩)
    (open_ : build.stage.requests ≠ []) (name : String) : session.cache.phase? name ≠ some .pending := by
  intro pending
  rcases valid.ended name _ pending with listed | final
  · obtain ⟨other, under, rfl⟩ := List.mem_map.mp listed
    have shown : session.cache.phase? other.name = some other.stage.phase := (valid.shown other under).phase
    have opening : other.stage.phase = .pending := Option.some.inj (shown.symm.trans pending)
    have asks : other.stage.requests ≠ [] := by
      rcases List.mem_cons.mp under with rfl | below
      · exact open_
      · exact valid.asking other below
    cases stage : other.stage with
    | opening => simp [stage, Stage.requests] at asks
    | _ => simp [stage, Stage.phase] at opening
  · cases final <;> contradiction

theorem Fault.founded {session after : Session} {build : Build} {below : List Build}
    {waiting : List (String × Schema)} {e : ModelError} (valid : Coherent ⟨session, build :: below, waiting⟩)
    (founded : ∀ name e, session.cache.entries.get? name = some (.failed e) →
      Founded project.document session.cache name e)
    (fault : Fault project session build e after) : Founded project.document session.cache build.name e := by
  cases fault with
  | opening stage failed => exact .ground (Resolution.opening_error failed).2.grounded
  | @missing request rest head absent =>
      cases request with
      | reference target => exact .ground (.unresolved (Table.get?_eq_none.mp absent))
      | arm child s => cases absent
  | @refused request rest s e head known answered =>
      rcases Cache.lookup_error.mp answered with failed | ⟨pending, -⟩
      · have below := founded _ _ failed
        unfold Request.blame
        split
        · cases below with
          | ground grounded =>
              cases grounded with
              | looped loop => exact .ground (.looped loop)
        · exact .dependency failed below
      · exact absurd (Cache.phase?_of_get? pending) (valid.not_pending (head ▸ List.cons_ne_nil _ _) _)
  | @settling target outlined parents e next stage failed =>
      have named := (valid.shown build List.mem_cons_self).named outlined (by simp [stage, Stage.model?])
      have fault := (Drafting.groundwork_error failed).2
      exact .ground (named ▸ fault.grounded)

theorem Coherent.failed (valid : Coherent k) (step : Step project k next) {name : String} {e : ModelError}
    (failed : next.cache.entries.get? name = some (.failed e)) :
    k.cache.entries.get? name = some (.failed e) ∨ ∃ build below after,
      k.builds = build :: below ∧ build.name = name ∧ Fault project k.session build e after := by
  cases valid.stores step with
  | same kept => exact .inl (kept ▸ failed)
  | begin asks fresh kept =>
      rw [kept, Cache.get?_begin] at failed
      split at failed
      · cases failed
      · exact .inl failed
  | publish top kept =>
      rw [kept, Cache.get?_publish] at failed
      split at failed
      · cases failed
      · exact .inl failed
  | register answered linked kept =>
      rw [kept, Cache.get?_registerInterface] at failed
      split at failed
      · rename_i same
        subst same
        obtain ⟨entry, found, written⟩ := Option.map_eq_some_iff.mp failed
        cases entry <;> cases written
        exact .inl found
      · exact .inl failed
  | finish top same kept =>
      rw [kept, Cache.get?_finish] at failed
      split at failed
      · cases failed
      · exact .inl failed
  | @fail build below e' after top fault kept =>
      rw [kept, Cache.get?_fail] at failed
      split at failed
      · rename_i same
        cases failed
        exact .inr ⟨build, below, after, top, same, fault⟩
      · exact .inl failed

theorem Passes.founded (passes : Passes project k) {name : String} {e : ModelError}
    (failed : k.cache.entries.get? name = some (.failed e)) : Founded project.document k.cache name e := by
  refine passes.induction (P := fun k => ∀ name e, k.cache.entries.get? name = some (.failed e) →
    Founded project.document k.cache name e) (fun _ _ found => nomatch found) ?_ name e failed
  intro k next before _ step founded name e failed
  have coherent := before.coherent
  refine Founded.mono ?_ fun other e' => coherent.keeps_failure step
  rcases coherent.failed step failed with old | ⟨build, below, after, top, rfl, fault⟩
  · exact founded name e old
  · obtain ⟨session, builds, waiting⟩ := k
    cases top
    exact fault.founded coherent founded

end Progress

-- From a failure along its dependencies to a reason in the document.
inductive Trail (document : Document) (cache : Cache) : String → List String → Prop where
  | stop {name : String} {e : ModelError} : cache.entries.get? name = some (.failed e) → e.Grounded document name →
      Trail document cache name [name]
  | follow {name other : String} {path : List String} :
      cache.entries.get? name = some (.failed (.dependencyFailed name other)) →
      Trail document cache other path → Trail document cache name (name :: path)

namespace Trail
variable {document : Document} {cache : Cache} {name : String} {path other : List String}

theorem of_founded {e : ModelError} (failed : cache.entries.get? name = some (.failed e))
    (founded : Founded document cache name e) : ∃ path, Trail document cache name path := by
  induction founded with
  | ground grounded => exact ⟨_, .stop failed grounded⟩
  | dependency found _ ih =>
      obtain ⟨path, trail⟩ := ih found
      exact ⟨_, .follow failed trail⟩

theorem unique (one : Trail document cache name path) (two : Trail document cache name other) : path = other := by
  induction one generalizing other with
  | stop failed grounded =>
      cases two with
      | stop => rfl
      | follow failed' =>
          cases failed.symm.trans failed'
          cases grounded
  | follow failed _ ih =>
      cases two with
      | stop failed' grounded =>
          cases failed.symm.trans failed'
          cases grounded
      | follow failed' trail =>
          cases failed.symm.trans failed'
          rw [ih trail]

theorem rest (trail : Trail document cache name path) {passed : String} (listed : passed ∈ path) :
    ∃ later, Trail document cache passed later ∧ later.length ≤ path.length := by
  induction trail with
  | stop failed grounded =>
      cases List.mem_singleton.mp listed
      exact ⟨_, .stop failed grounded, Nat.le_refl _⟩
  | follow failed trail ih =>
      rcases List.mem_cons.mp listed with rfl | below
      · exact ⟨_, .follow failed trail, Nat.le_refl _⟩
      · obtain ⟨later, rest, shorter⟩ := ih below
        exact ⟨later, rest, Nat.le_succ_of_le shorter⟩

theorem nodup (trail : Trail document cache name path) : path.Nodup := by
  induction trail with
  | stop => exact List.nodup_singleton _
  | follow failed trail ih =>
      refine List.nodup_cons.mpr ⟨fun again => ?_, ih⟩
      obtain ⟨later, rest, shorter⟩ := trail.rest again
      rw [rest.unique (.follow failed trail), List.length_cons] at shorter
      omega

theorem head (trail : Trail document cache name path) : path.head? = some name := by
  cases trail <;> rfl

theorem last (trail : Trail document cache name path) : ∃ last ∈ path.getLast?, ∃ reason : ModelError,
    cache.entries.get? last = some (.failed reason) ∧ reason.Grounded document last := by
  induction trail with
  | stop failed grounded => exact ⟨_, rfl, _, failed, grounded⟩
  | @follow name other path failed trail ih =>
      obtain ⟨last, ends, found⟩ := ih
      have some_ : path ≠ [] := by
        rintro rfl
        cases ends
      exact ⟨last, by rwa [List.getLast?_cons_of_ne_nil some_], found⟩

end Trail

-- The failure of the first name is put down to the second.
def Report.Blames (report : Report) (name other : String) : Prop :=
  (name, ModelError.dependencyFailed name other) ∈ report.failures

namespace Project
variable (project : Project)

theorem blames_unique {name first second : String} (one : project.run.Blames name first)
    (two : project.run.Blames name second) : first = second := by
  cases (project.mem_run_failures.mp one).symm.trans (project.mem_run_failures.mp two)
  rfl

theorem trail_blames {name : String} {path : List String}
    (trail : Trail project.document project.resolveAll.cache name path) : path.IsChain project.run.Blames := by
  induction trail with
  | stop => exact List.isChain_singleton _
  | follow failed trail ih =>
      refine ih.cons fun next first => ?_
      cases trail.head.symm.trans first
      exact project.mem_run_failures.mpr failed

theorem trail_prefix {name : String} {path walk : List String}
    (trail : Trail project.document project.resolveAll.cache name path) (starts : walk.head? = some name)
    (linked : walk.IsChain project.run.Blames) : walk <+: path := by
  induction trail generalizing walk with
  | @stop name e failed grounded =>
      obtain ⟨rest, rfl⟩ := List.head?_eq_some_iff.mp starts
      cases rest with
      | nil => exact List.prefix_refl _
      | cons next rest =>
          have blamed := project.mem_run_failures.mp (List.isChain_cons_cons.mp linked).1
          cases failed.symm.trans blamed
          cases grounded
  | @follow name other path failed trail ih =>
      obtain ⟨rest, rfl⟩ := List.head?_eq_some_iff.mp starts
      refine List.cons_prefix_cons.mpr ⟨rfl, ?_⟩
      cases rest with
      | nil => exact List.nil_prefix
      | cons next rest =>
          obtain ⟨blamed, linked⟩ := List.isChain_cons_cons.mp linked
          cases project.blames_unique (project.mem_run_failures.mpr failed) blamed
          exact ih rfl linked

-- Every failure has its reason in the document, or is put down to another one. Following the blame
-- ends, without coming back to a name, at a failure that has its reason in the document.
theorem run_failures {name : String} {e : ModelError} (failed : (name, e) ∈ project.run.failures) :
    e.schema? = some name ∧
      (e.Grounded project.document name ∨
        ∃ other, e = .dependencyFailed name other ∧ other ∈ project.run.failures.map Prod.fst) ∧
      ∃ path : List String, path.head? = some name ∧ path.Nodup ∧ path.IsChain project.run.Blames ∧
        (∀ walk : List String, walk.head? = some name → walk.IsChain project.run.Blames → walk <+: path) ∧
        ∃ last ∈ path.getLast?, ∃ reason : ModelError,
          (last, reason) ∈ project.run.failures ∧ reason.Grounded project.document last := by
  have found := project.mem_run_failures.mp failed
  have founded := (Progress.passes_done project).founded found
  obtain ⟨path, trail⟩ := Trail.of_founded found founded
  obtain ⟨last, ends, reason, stands, grounded⟩ := trail.last
  refine ⟨founded.schema, ?_, path, trail.head, trail.nodup, project.trail_blames trail,
    fun walk => project.trail_prefix trail, last, ends, reason, project.mem_run_failures.mpr stands, grounded⟩
  cases founded with
  | ground grounded => exact .inl grounded
  | dependency under _ => exact .inr ⟨_, rfl, List.mem_map.mpr ⟨_, project.mem_run_failures.mpr under, rfl⟩⟩

-- A parent that refers to a name which the document lacks takes its child along.
def ghostly : Document where
  schemas := Table.ofEntries [
    ("Child", { allOf := some [Schema.referenceTo "Parent"] }),
    ("Parent", { allOf := some [Schema.referenceTo "Ghost"] })]
  fingerprint := ""

theorem run_failures_ghostly :
    ("Child", ModelError.dependencyFailed "Child" "Parent") ∈ (Project.of GeneratorSettings.defaults ghostly).run.failures ∧
      ∃ path : List String, path.head? = some "Child" ∧ path.Nodup ∧
        path.IsChain (Project.of GeneratorSettings.defaults ghostly).run.Blames := by
  have failed : ("Child", ModelError.dependencyFailed "Child" "Parent") ∈
      (Project.of GeneratorSettings.defaults ghostly).run.failures := by decide +kernel
  obtain ⟨-, -, path, starts, distinct, linked, -⟩ := run_failures _ failed
  exact ⟨failed, path, starts, distinct, linked⟩

end Project
end ApiModels
