import ApiModels.Proofs.Resolution.Courses

namespace ApiModels

theorem Schema.mem_armRequests {parent : String} {s : Schema} {request : Request} :
    request ∈ s.armRequests parent ↔ ∃ index arm, s.oneOfArms[index]? = some arm ∧ request = .ofArm parent arm index := by
  unfold armRequests
  rw [List.mem_map]
  constructor
  · rintro ⟨⟨arm, index⟩, listed, rfl⟩
    exact ⟨index, arm, List.mk_mem_zipIdx_iff_getElem?.mp listed, rfl⟩
  · rintro ⟨index, arm, found, rfl⟩
    exact ⟨(arm, index), List.mk_mem_zipIdx_iff_getElem?.mpr found, rfl⟩

theorem Request.ofArm_inline {parent : String} {arm : Schema} {index : Nat} (inline : arm.reference = none) :
    ofArm parent arm index = .arm (Drafting.armName parent index) arm := by
  rw [ofArm, inline]

theorem Request.ofArm_eq_arm {parent child : String} {arm s : Schema} {index : Nat}
    (same : Request.arm child s = ofArm parent arm index) :
    arm.reference = none ∧ child = Drafting.armName parent index ∧ s = arm := by
  unfold ofArm at same
  cases refers : arm.reference with
  | some target => rw [refers] at same; cases same
  | none =>
      rw [refers] at same
      cases same
      exact ⟨rfl, rfl, rfl⟩

namespace Project

structure Holds (project : Project) (parent : String) (index : Nat) (arm : Schema) : Prop where
  listed : ∃ target, project.Composes parent target ∧ target.oneOfArms[index]? = some arm
  inline : arm.reference = none

inductive Origin (project : Project) (name : String) (s : Schema) : Prop where
  | document : project.document.get? name = some s → Origin project name s
  | arm {parent : String} {index : Nat} : project.Holds parent index s → name = Drafting.armName parent index →
      Origin project name s

theorem Holds.unique {project : Project} {parent : String} {index : Nat} {arm other : Schema}
    (one : project.Holds parent index arm) (two : project.Holds parent index other) : arm = other := by
  obtain ⟨target, composes, found⟩ := one.listed
  obtain ⟨target', composes', found'⟩ := two.listed
  cases composes.unique composes'
  cases found.symm.trans found'
  rfl

end Project

namespace Progress
variable {project : Project} {k next : Progress} {child parent : String} {s : Schema}

-- Whoever is under construction was asked for by those below, and they ask for it still.
def Chained (project : Project) (k : Progress) : Prop :=
  ∀ build below, (build :: below) <:+ k.builds → Asks project.document below k.waiting build.name build.written

theorem Chained.step (chained : Chained project k) (step : Step project k next) : Chained project next := by
  intro build below stands
  cases step with
  | begin asks fresh =>
      rcases List.suffix_cons_iff.mp stands with same | under
      · cases same
        exact asks
      · exact chained build below under
  | reuse known => cases List.suffix_nil.mp stands
  | close => exact chained build below (stands.trans (List.suffix_cons _ _))
  | fail fault => exact chained build below (stands.trans (List.suffix_cons _ _))
  | _ =>
      rcases List.suffix_cons_iff.mp stands with same | under
      · cases same
        have before := chained _ _ (List.suffix_refl _)
        exact before
      · exact chained build below (under.trans (List.suffix_cons _ _))

theorem Passes.chained (passes : Passes project k) : Chained project k := by
  refine passes.induction (P := Chained project) ?_ fun _ _ _ _ step chained => chained.step step
  intro build below stands
  cases List.suffix_nil.mp stands

theorem Passes.links_arm (passes : Passes project k) {build : Build} (under : build ∈ k.builds)
    (asks : .arm child s ∈ build.stage.requests) : ∃ m, build.stage = .linking m build.stage.requests := by
  cases stage : build.stage with
  | opening =>
      rw [stage] at asks
      cases asks
  | inheriting target outlined parents rest =>
      obtain ⟨-, done, split, -⟩ := (passes.traced build under).inheriting stage
      rw [stage] at asks
      have listed : .arm child s ∈ target.parentRequests := split ▸ List.mem_append_right _ asks
      obtain ⟨reference, -, same⟩ := List.mem_map.mp listed
      cases same
  | linking m rest => exact ⟨m, rfl⟩

theorem Passes.holds (passes : Passes project k) {build : Build} (under : build ∈ k.builds)
    (asks : .arm child s ∈ build.stage.requests) :
    ∃ index, project.Holds build.name index s ∧ child = Drafting.armName build.name index := by
  have begun := (passes.accounted.sound build under).begun
  obtain ⟨m, stage⟩ := passes.links_arm under asks
  obtain ⟨target, parents, settled, settles, done, split, -⟩ := (passes.traced build under).linking stage
  have listed : .arm child s ∈ target.armRequests build.name := split ▸ List.mem_append_right _ asks
  obtain ⟨index, arm, found, same⟩ := Schema.mem_armRequests.mp listed
  obtain ⟨inline, rfl, rfl⟩ := Request.ofArm_eq_arm same
  exact ⟨index, ⟨⟨target, ⟨build.written, begun, settles.described.1⟩, found⟩, inline⟩, rfl⟩

theorem Passes.asked {builds : List Build} {name : String} (passes : Passes project k)
    (stands : builds <:+ k.builds) (asks : Asks project.document builds k.waiting name s) :
    project.document.get? name = some s ∨
      ∃ asker ∈ builds, ∃ index, project.Holds asker.name index s ∧ name = Drafting.armName asker.name index := by
  generalize waits : k.waiting = waiting at asks
  cases asks with
  | run => exact .inl (Table.get?_eq_some.mpr (passes.accounted.listed _ (waits ▸ List.mem_cons_self)))
  | @build build below _ request _ rest head known =>
      cases request with
      | reference target => exact .inl known
      | arm child arm =>
          cases known
          have under : build ∈ k.builds := stands.subset List.mem_cons_self
          exact .inr ⟨build, List.mem_cons_self, passes.holds under (head ▸ List.mem_cons_self)⟩

theorem Passes.shadowed {build : Build} {below : List Build} {rest : List Request} (passes : Passes project k)
    (top : k.builds = build :: below) (head : build.stage.requests = .arm child s :: rest)
    (under : child ∈ k.buildNames) : child ∈ project.document.names := by
  have inK : build ∈ k.builds := top ▸ List.mem_cons_self
  obtain ⟨index, -, named⟩ := passes.holds inK (head ▸ List.mem_cons_self)
  obtain ⟨other, listed, same⟩ := List.mem_map.mp under
  obtain ⟨above, later, split⟩ := List.append_of_mem listed
  have stands : (other :: later) <:+ k.builds := ⟨above, split.symm⟩
  have inside : later <:+ below := by
    rcases List.suffix_cons_iff.mp (top ▸ stands) with here | under
    · cases here
      exact List.suffix_refl _
    · exact (List.suffix_cons _ _).trans under
  rcases passes.asked ((List.suffix_cons _ _).trans stands) (passes.chained other later stands) with
    found | ⟨asker, waits, position, -, called⟩
  · exact same ▸ Table.mem_names_of_get? found
  · obtain ⟨owner, -⟩ := Drafting.armName_inj (named.symm.trans (same.symm.trans called))
    have distinct := passes.coherent.distinct
    rw [buildNames, top] at distinct
    exact absurd (List.mem_map.mpr ⟨asker, inside.subset waits, owner.symm⟩) (List.nodup_cons.mp distinct).1

end Progress

namespace Project
variable {project : Project} {name : String} {s : Schema}

theorem Begins.origin (begins : project.Begins name s) : project.Origin name s := by
  obtain ⟨k, passes, top⟩ := begins
  obtain ⟨below, shape⟩ := List.head?_eq_some_iff.mp top
  have stands : (⟨name, s, .opening⟩ :: below) <:+ k.builds := shape ▸ List.suffix_refl _
  rcases passes.asked ((List.suffix_cons _ _).trans stands) (passes.chained _ _ stands) with
    found | ⟨asker, -, index, holds, named⟩
  · exact .document found
  · exact .arm holds named

-- An inline arm whose name the document does not have is never handed over under construction.
theorem Borrows.shadowed {asker child : String} (borrows : project.Borrows asker (.arm child s)) :
    child ∈ project.document.names := by
  obtain ⟨k, passes, ⟨build, below, rest, top, -, head⟩, under⟩ := borrows
  exact passes.shadowed top head under

end Project
end ApiModels
