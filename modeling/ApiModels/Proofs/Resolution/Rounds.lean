import ApiModels.Proofs.Resolution.Mirrors
import ApiModels.Proofs.Resolution.Tidiness

namespace ApiModels
namespace Schema

def inlineMembers (s : Schema) : List Schema := s.allOfMembers.filter (·.reference.isNone)

def rounds (s : Schema) : List Schema := s.inlineMembers ++ [s]

def Declares (s : Schema) (name : String) : Prop := name ∈ s.properties.map Prod.fst

theorem rounds_of_memberless {s : Schema} (memberless : s.allOfMembers = []) : s.rounds = [s] := by
  rw [rounds, inlineMembers, memberless]
  rfl

theorem memberless_of_plain {s : Schema} (plain : ¬ s.isComposed) : s.allOfMembers = [] := by
  by_contra some
  exact plain (by simp [isComposed, some])

theorem plain_of_bare {s : Schema} (bare : s.hasStructure = false) : ¬ s.isComposed := by
  intro composed
  simp [hasStructure, composed] at bare

theorem propertyless_of_bare {s : Schema} (bare : s.hasStructure = false) : s.properties = [] := by
  by_contra some
  simp [hasStructure, some] at bare

theorem not_declares_of_bare {s : Schema} (bare : s.hasStructure = false) (name : String) :
    ¬ ∃ round ∈ s.rounds, round.Declares name := by
  have memberless := memberless_of_plain (plain_of_bare bare)
  simp [rounds_of_memberless memberless, Declares, propertyless_of_bare bare]

end Schema

def Project.Describes (project : Project) (entry : String × Schema) (p : Property) : Prop :=
  ∃ unfolding, Unfolding.of project.document project.settings.typeMappings [] entry.2 = .ok unfolding ∧
    p = unfolding.toProperty project.settings entry.1

theorem Unfolding.toProperty_baseName (settings : GeneratorSettings) (name : String) (unfolding : Unfolding) :
    (unfolding.toProperty settings name).baseName = name := by
  cases unfolding with
  | model => rfl
  | value =>
      simp only [toProperty, valueLevel]
      split <;> rfl
  | container => rfl

theorem Project.Describes.baseName {project : Project} {entry : String × Schema} {p : Property}
    (describes : project.Describes entry p) : p.baseName = entry.1 := by
  obtain ⟨unfolding, -, rfl⟩ := describes
  exact unfolding.toProperty_baseName project.settings entry.1

theorem Project.Describes.names {project : Project} {entries : List (String × Schema)} {ps : List Property}
    (describe : List.Forall₂ project.Describes entries ps) : ps.map (·.baseName) = entries.map Prod.fst := by
  induction describe with
  | nil => rfl
  | cons first _ ih => rw [List.map_cons, List.map_cons, first.baseName, ih]

namespace Model
variable {m : Model} {name : String} {ps : List Property} {required : List String}

-- One round: the properties, then the names required among what is known by now.
def takeIn (m : Model) (ps : List Property) (required : List String) : Model :=
  (required.foldl requireDeclared (ps.foldl declare m)).refresh

theorem foldl_declare (ps : List Property) (m : Model) :
    (ps.foldl declare m).ownProperties = ps.foldl (fun known p => upsert p known) m.ownProperties ∧
      (ps.foldl declare m).allProperties = ps.foldl (fun known p => upsert p known) m.allProperties ∧
      (ps.foldl declare m).allRequiredNames = m.allRequiredNames := by
  induction ps generalizing m with
  | nil => exact ⟨rfl, rfl, rfl⟩
  | cons head rest ih => exact ih (m.declare head)

theorem requireDeclared_views (m : Model) (name : String) :
    (m.requireDeclared name).ownProperties = m.ownProperties ∧
      (m.requireDeclared name).allProperties = m.allProperties := by
  unfold requireDeclared
  split <;> exact ⟨rfl, rfl⟩

theorem mem_requireDeclared {other : String} : other ∈ (m.requireDeclared name).allRequiredNames ↔
    other = name ∧ name ∈ m.propertyNames ∨ other ∈ m.allRequiredNames := by
  unfold requireDeclared
  rw [property?, propertyNames, ← named_isSome]
  split
  · rename_i known
    have inserted : other ∈ (m.requireName name).allRequiredNames ↔ other = name ∨ other ∈ m.allRequiredNames :=
      NameSet.mem_insert m.allRequiredNames name other
    simpa [known] using inserted
  · rename_i unknown
    simp [unknown]

theorem foldl_requireDeclared (required : List String) (m : Model) :
    (required.foldl requireDeclared m).ownProperties = m.ownProperties ∧
      (required.foldl requireDeclared m).allProperties = m.allProperties ∧
      ∀ name, name ∈ (required.foldl requireDeclared m).allRequiredNames ↔
        name ∈ required ∧ name ∈ m.propertyNames ∨ name ∈ m.allRequiredNames := by
  induction required generalizing m with
  | nil => exact ⟨rfl, rfl, fun name => by simp⟩
  | cons head rest ih =>
      obtain ⟨own, all, marks⟩ := ih (m.requireDeclared head)
      obtain ⟨ownKept, allKept⟩ := m.requireDeclared_views head
      refine ⟨own.trans ownKept, all.trans allKept, fun name => ?_⟩
      have known : (m.requireDeclared head).propertyNames = m.propertyNames := by
        rw [propertyNames, allKept, propertyNames]
      rw [List.foldl_cons, marks, mem_requireDeclared, known, List.mem_cons]
      by_cases here : name = head
      · subst here
        tauto
      · tauto

theorem takeIn_propertyNames (m : Model) (ps : List Property) (required : List String) :
    (m.takeIn ps required).propertyNames = (ps.foldl declare m).propertyNames := by
  obtain ⟨-, all, -⟩ := foldl_requireDeclared required (ps.foldl declare m)
  have marked (n : Model) : n.refresh.propertyNames = n.propertyNames := by
    simp [propertyNames, refresh, mark, Function.comp_def]
  rw [takeIn, marked, propertyNames, all]
  rfl

theorem mem_propertyNames_takeIn : name ∈ (m.takeIn ps required).propertyNames ↔
    name ∈ ps.map (·.baseName) ∨ name ∈ m.propertyNames := by
  obtain ⟨-, all, -⟩ := foldl_declare ps m
  rw [takeIn_propertyNames, propertyNames, all]
  exact mem_names_foldl_upsert ps m.allProperties name

theorem mem_allRequiredNames_takeIn : name ∈ (m.takeIn ps required).allRequiredNames ↔
    name ∈ required ∧ (name ∈ ps.map (·.baseName) ∨ name ∈ m.propertyNames) ∨ name ∈ m.allRequiredNames := by
  obtain ⟨-, -, marks⟩ := foldl_requireDeclared required (ps.foldl declare m)
  obtain ⟨-, -, kept⟩ := foldl_declare ps m
  change name ∈ (required.foldl requireDeclared (ps.foldl declare m)).allRequiredNames ↔ _
  rw [marks, kept, ← takeIn_propertyNames m ps required, mem_propertyNames_takeIn]

theorem takeIn_ownProperty? (m : Model) (ps : List Property) (required : List String) (n : String) :
    (m.takeIn ps required).ownProperty? n =
      ((named n ps.reverse).or (m.ownProperty? n)).map (mark (m.takeIn ps required).allRequiredNames) := by
  obtain ⟨own, -, -⟩ := foldl_requireDeclared required (ps.foldl declare m)
  obtain ⟨declared, -, -⟩ := foldl_declare ps m
  rw [takeIn, Twins.refresh_ownProperty?, ownProperty?, own, declared, named_foldl_upsert]
  rfl

theorem Twins.mem_propertyNames {other : Model} (twins : m.Twins other) :
    name ∈ other.propertyNames ↔ name ∈ m.propertyNames := by
  rw [propertyNames, propertyNames, ← named_isSome, ← named_isSome]
  exact Eq.to_iff (congrArg (fun found => found.isSome = true) (twins.all name))

theorem Lasting.members {settings : GeneratorSettings} {R : Model → Model → Prop} (law : Lasting settings R)
    {other : Model} (requests : List Request) (holds : R m other) : R m (other.addMembers requests) :=
  List.foldlRecOn requests _ holds fun _ kept request _ => law.member request.name kept

section Adoption
variable {name other : String} {m : Model} {parents : List Model}

theorem Fresh.collapse (fresh : m.Fresh name) (names : List String) : Fresh name { m with collapsedParents := names } :=
  ⟨fresh.name, fresh.parentName, fresh.interfaces, fresh.unionMembers, fresh.own, fresh.all, fresh.required,
    fresh.allRequired⟩

theorem Fresh.adopt (fresh : m.Fresh name) (parents : List Model) : parents.getLast? = none ∧ m.adopt parents = m ∨
    ∃ parent start, parents.getLast? = some parent ∧ Fresh name start ∧ m.adopt parents = start.extend parent := by
  unfold Model.adopt
  cases parents.getLast? with
  | none => exact .inl ⟨rfl, rfl⟩
  | some parent =>
      refine .inr ⟨parent, _, rfl, ?_, rfl⟩
      split
      · exact fresh
      · exact fresh.collapse _

-- What no fresh model holds, and what it takes from whichever parent it extends, is the last parent's.
theorem Fresh.adopt_iff (fresh : m.Fresh name) (Holds : Model → Prop) (bare : ∀ start, Fresh name start → ¬ Holds start)
    (taken : ∀ start parent, Fresh name start → (Holds (start.extend parent) ↔ Holds parent)) :
    Holds (m.adopt parents) ↔ ∃ parent, parents.getLast? = some parent ∧ Holds parent := by
  rcases fresh.adopt parents with ⟨none_, same⟩ | ⟨parent, start, last, started, extended⟩
  · simp [none_, same, bare m fresh]
  · simp [last, extended, taken start parent started]

theorem Fresh.mem_propertyNames_adopt (fresh : m.Fresh name) : other ∈ (m.adopt parents).propertyNames ↔
    ∃ parent, parents.getLast? = some parent ∧ other ∈ parent.propertyNames :=
  fresh.adopt_iff (other ∈ ·.propertyNames) (fun start started => by simp [started.bare.1])
    fun start parent started => by simp [mem_propertyNames_extend started.merged, started.bare.1]

theorem Fresh.mem_allRequiredNames_adopt (fresh : m.Fresh name) : other ∈ (m.adopt parents).allRequiredNames ↔
    ∃ parent, parents.getLast? = some parent ∧ other ∈ parent.allRequiredNames :=
  fresh.adopt_iff (other ∈ ·.allRequiredNames) (fun start started => by simp [started.bare.2])
    fun start parent started => by simp [mem_allRequiredNames_extend, started.bare.2]

end Adoption

-- What every round keeps, told with the rounds that are done.
structure Rounded (project : Project) (I : List Schema → Model → Prop) : Prop where
  round : ∀ {done : List Schema} {m : Model} {ps : List Property} (s : Schema),
    List.Forall₂ project.Describes s.properties ps → I done m → I (done ++ [s]) (m.takeIn ps s.required)
  refresh : ∀ {done : List Schema} {m : Model}, I done m → I done m.refresh

end Model

namespace Drafting
variable {project : Project} {d next : Draft}

theorem declareProperty_ok {name : String} {s : Schema} (ran : declareProperty project name s d = .ok () next) :
    ∃ p, project.Describes (name, s) p ∧ next.model = d.model.declare p := by
  rw [declareProperty_at] at ran
  obtain ⟨p, middle, made, ran⟩ := bind_ok.mp ran
  cases ran
  unfold ofResolution at made
  cases outcome : Resolution.property project d.model.name name s d.session with
  | ok made' session =>
      rw [outcome] at made
      cases made
      exact ⟨_, Project.property_unfolds _ name s _ _ _ outcome, rfl⟩
  | error e session =>
      rw [outcome] at made
      cases made

theorem forM_declareProperty_ok {properties : List (String × Schema)}
    (ran : (properties.forM fun (name, s) => declareProperty project name s) d = .ok () next) :
    ∃ ps, List.Forall₂ project.Describes properties ps ∧ next.model = ps.foldl Model.declare d.model := by
  induction properties generalizing d with
  | nil =>
      cases ran
      exact ⟨[], .nil, rfl⟩
  | cons head rest ih =>
      obtain ⟨_, middle, first, ran⟩ := bind_ok.mp ran
      obtain ⟨p, describes, declared⟩ := declareProperty_ok first
      obtain ⟨ps, describe, folded⟩ := ih ran
      exact ⟨p :: ps, .cons describes describe, by rw [folded, declared, List.foldl_cons]⟩

theorem forM_declareRequired_ok {required : List String} (ran : required.forM declareRequired d = .ok () next) :
    next.model = required.foldl Model.requireDeclared d.model := by
  induction required generalizing d with
  | nil =>
      cases ran
      rfl
  | cons head rest ih =>
      obtain ⟨_, middle, first, ran⟩ := bind_ok.mp ran
      obtain ⟨session, here⟩ := declareRequired_run head d
      cases here.symm.trans first
      exact ih ran

theorem declare_ok {properties : List (String × Schema)} {required : List String}
    (ran : declare project properties required d = .ok () next) :
    ∃ ps, List.Forall₂ project.Describes properties ps ∧ next.model = d.model.takeIn ps required := by
  obtain ⟨_, declared, declares, ran⟩ := bind_ok.mp ran
  obtain ⟨_, marked, marks, ran⟩ := bind_ok.mp ran
  obtain ⟨ps, describe, folded⟩ := forM_declareProperty_ok declares
  cases ran
  exact ⟨ps, describe, by rw [Model.takeIn, ← folded, ← forM_declareRequired_ok marks]⟩

variable {I : List Schema → Model → Prop} (law : Model.Rounded project I)
include law

theorem forM_rounds {members done : List Schema} (holds : I done d.model)
    (ran : (members.forM fun member => declare project member.properties member.required) d = .ok () next) :
    I (done ++ members) next.model := by
  induction members generalizing done d with
  | nil =>
      cases ran
      rwa [List.append_nil]
  | cons head rest ih =>
      obtain ⟨_, middle, first, ran⟩ := bind_ok.mp ran
      obtain ⟨ps, describe, taken⟩ := declare_ok first
      have after : I (done ++ [head]) middle.model := taken ▸ law.round head describe holds
      rw [List.append_cons]
      exact ih after ran

theorem inheritFrom_rounds {members : List Schema} {parents : List Model} (alone : members = [] → parents = [])
    (start : I [] (d.model.adopt parents)) (ran : inheritFrom project members parents d = .ok () next) :
    I (members.filter (·.reference.isNone)) next.model := by
  unfold inheritFrom at ran
  split at ran
  · rename_i empty
    cases ran
    obtain rfl := List.isEmpty_iff.mp empty
    rw [alone rfl] at start
    exact start
  · obtain ⟨_, linked, links, ran⟩ := bind_ok.mp ran
    obtain ⟨session, adopted⟩ := linkParent_run parents d
    cases adopted.symm.trans links
    obtain ⟨_, declared, declares, ran⟩ := bind_ok.mp ran
    cases ran
    exact law.refresh (forM_rounds law start declares)

theorem groundwork_rounds {target : Schema} {parents : List Model} (alone : target.allOfMembers = [] → parents = [])
    (start : I [] (d.model.adopt parents)) (ran : groundwork project target parents d = .ok () next) :
    I target.rounds next.model ∨ ¬ target.isComposed ∧ d.model.isAlias ∧ next.model = d.model := by
  unfold groundwork at ran
  split at ran
  · obtain ⟨_, inherited, inherits, ran⟩ := bind_ok.mp ran
    obtain ⟨_, declared, declares, ran⟩ := bind_ok.mp ran
    obtain ⟨_, reported, reports, ran⟩ := bind_ok.mp ran
    obtain ⟨session, announced, -⟩ := announce_run target reported
    cases announced.symm.trans ran
    obtain ⟨ps, describe, taken⟩ := declare_ok declares
    have last := law.round target describe (inheritFrom_rounds law alone start inherits)
    rw [← taken, ← reportBranches_model reports] at last
    exact .inl last
  · rename_i plain
    have memberless := Schema.memberless_of_plain plain
    rw [flat_at] at ran
    split at ran
    · rename_i renames
      refine .inr ⟨plain, renames, ?_⟩
      split at ran <;> cases ran <;> rfl
    · obtain ⟨ps, describe, taken⟩ := declare_ok ran
      have first : I [] d.model := by rwa [alone memberless] at start
      have only := law.round target describe first
      rw [← taken] at only
      exact .inl (Schema.rounds_of_memberless memberless ▸ only)

end Drafting

namespace Project
variable {project : Project} {name : String} {written target : Schema} {parents : List Model} {settled m : Model}

theorem Settles.orderly (settles : project.Settles name written target parents settled) : settled.Settled := by
  obtain ⟨outlined, gathers, ⟨t, last, ran, rfl⟩⟩ := settles
  obtain ⟨k, below, passes, top⟩ := id gathers
  have elders : ∀ parent ∈ parents, parent.Settled :=
    passes.orderly.builds ⟨name, written, .inheriting target outlined parents []⟩ (top ▸ List.mem_cons_self)
  exact (Model.Settled.standard project).ground gathers.opens.fresh gathers.alone elders ran

theorem Finishes.lasts {R : Model → Model → Prop} (law : Model.Lasting project.settings R)
    (finishes : project.Finishes name m) (begins : project.Begins name written)
    (start : ∀ {target parents settled}, project.Settles name written target parents settled → R settled settled) :
    ∃ target parents settled, project.Settles name written target parents settled ∧ R settled m := by
  obtain ⟨s, target, parents, settled, begun, settles, -, links, rfl⟩ := finishes
  obtain rfl := begun.unique begins
  exact ⟨target, parents, settled, settles, law.finished links (law.members _ (start settles))⟩

theorem Finishes.keeps (finishes : project.Finishes name m) (begins : project.Begins name written) :
    ∃ target parents settled, project.Settles name written target parents settled ∧ settled.Keeps m :=
  finishes.lasts (Model.Keeps.lasting project.settings) begins fun settles => ⟨.refl _, settles.orderly⟩

end Project
end ApiModels
