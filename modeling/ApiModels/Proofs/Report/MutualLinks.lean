import ApiModels.Proofs.Report.UnionLinks

namespace ApiModels

-- Any two models agree on the union link between them.
def Report.Mutual (report : Report) : Prop :=
  ∀ parent ∈ report.models, ∀ child ∈ report.models,
    child.name ∈ parent.unionMembers ↔ parent.name ∈ child.interfaces

theorem Diagnostics.foldl_push (items : List Diagnostic) (d : Diagnostics) :
    (items.foldl push d).items = d.items ++ items := by
  induction items generalizing d with
  | nil => exact (List.append_nil _).symm
  | cons item rest ih => rw [List.foldl_cons, ih, push, List.append_assoc, List.singleton_append]

namespace Cache
variable {cache : Cache} {m : Model} {name : String} {issue : Diagnostic}

theorem reported {α : Type} {found : Option α} {fine : α → Prop} [DecidablePred fine] {report : α → Diagnostic}
    (some_ : (found.bind fun a => if fine a then none else some (report a)) = some issue) :
    ∃ a, found = some a ∧ ¬ fine a ∧ issue = report a := by
  obtain ⟨a, here, reported⟩ := Option.bind_eq_some_iff.mp some_
  split at reported
  · cases reported
  · cases reported
    exact ⟨a, here, ‹_›, rfl⟩

theorem issues_mismatch (listed : issue ∈ cache.issues) (mismatch : issue.code = .unionLinkMismatch) :
    ∃ m ∈ cache.models, ∃ name other, cache.get? name = some other ∧
      (name ∈ m.unionMembers ∧ m.name ∉ other.interfaces ∨ name ∈ m.interfaces ∧ m.name ∉ other.unionMembers) := by
  obtain ⟨m, known, among⟩ := List.mem_flatMap.mp listed
  refine ⟨m, known, ?_⟩
  rcases List.mem_append.mp among with link | parent
  · rcases List.mem_append.mp link with member | interface
    · obtain ⟨name, linked, found⟩ := List.mem_filterMap.mp member
      obtain ⟨child, ready, hidden, -⟩ := reported found
      exact ⟨name, child, ready, .inl ⟨linked, hidden⟩⟩
    · obtain ⟨name, linked, found⟩ := List.mem_filterMap.mp interface
      obtain ⟨union, ready, hidden, -⟩ := reported found
      exact ⟨name, union, ready, .inr ⟨linked, hidden⟩⟩
  · obtain ⟨parent, -, -, rfl⟩ := reported (Option.mem_toList.mp parent)
    cases mismatch

end Cache

namespace Project
variable (project : Project)

theorem run_mutual : project.run.Mutual := fun _ above _ below =>
  (mem_unionMembers_iff above).trans (mem_interfaces_iff below).symm

theorem not_mismatch {issue : Diagnostic} (listed : issue ∈ project.resolveAll.cache.issues) :
    issue.code ≠ .unionLinkMismatch := by
  intro mismatch
  obtain ⟨m, known, name, other, found, oneSided⟩ := Cache.issues_mismatch listed mismatch
  have ready := Cache.get?_eq_some.mp found
  have built : other ∈ project.run.models := Cache.mem_models.mpr ⟨name, ready⟩
  obtain rfl : other.name = name := project.coherent_done.named name _ other ready rfl
  rcases oneSided with ⟨listed, hidden⟩ | ⟨listed, hidden⟩
  · exact hidden ((project.run_mutual m known other built).mp listed)
  · exact hidden ((project.run_mutual other built m known).mpr listed)

-- The report ends with what the check has found, and no union link is among it.
theorem run_links_agree : project.run.Mutual ∧
    project.run.diagnostics.items = project.resolveAll.diagnostics.items ++ project.resolveAll.cache.issues ∧
    ∀ issue ∈ project.resolveAll.cache.issues, issue.code ≠ .unionLinkMismatch :=
  ⟨project.run_mutual, Diagnostics.foldl_push _ _, fun _ => project.not_mismatch⟩

end Project
end ApiModels
