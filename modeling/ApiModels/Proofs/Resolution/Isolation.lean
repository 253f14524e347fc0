import ApiModels.Proofs.Document.Extensions
import ApiModels.Proofs.Resolution.Execution

namespace ApiModels

structure Project.Agrees (one two : Project) (apart : List String) : Prop where
  settings : two.settings = one.settings
  document : one.document.Agrees two.document apart
  aliases : ∀ name, name ∉ apart → two.aliases.get? name = one.aliases.get? name
  cycles : ∀ name, name ∉ apart → two.inheritance.cycleOf? name = one.inheritance.cycleOf? name
  arms : ∀ name s, one.document.get? name = some s → ∀ arm ∈ s.armNames name, arm ∉ apart

-- The schema, asked for under this name, leads to no name that is kept apart.
structure Schema.ClearAs (apart : List String) (name : String) (s : Schema) : Prop where
  named : name ∉ apart
  clear : s.Clear apart
  arms : ∀ arm ∈ s.armNames name, arm ∉ apart

theorem Schema.Clear.blank (apart : List String) : Schema.blank.Clear apart := fun _ listed => nomatch listed

namespace Resolution
variable {one two : Project} {apart : List String} (agrees : one.Agrees two apart)
include agrees

theorem infer_agrees (subject : String) (s : Schema) : infer two subject s = infer one subject s := by
  unfold infer
  rw [agrees.settings]

theorem unalias_agrees (owner : String) {s : Schema} (clear : s.Clear apart) :
    unalias two owner s = unalias one owner s := by
  unfold unalias
  rw [agrees.document.unalias clear]

theorem typeName_agrees (owner : String) {s : Schema} (clear : s.Clear apart) :
    typeName two owner s = typeName one owner s := by
  unfold typeName Project.naming
  rw [agrees.settings, unalias_agrees agrees owner clear]
  simp only [infer_agrees agrees]

theorem property_agrees (owner name : String) {s : Schema} (clear : s.Clear apart) :
    property two owner name s = property one owner name s := by
  unfold property
  rw [agrees.settings]
  dsimp only
  rw [agrees.document.unfolding _ _ clear]

theorem refuseCycle_agrees {name : String} (named : name ∉ apart) : refuseCycle two name = refuseCycle one name := by
  unfold refuseCycle
  rw [agrees.cycles name named]

theorem extrasType_agrees (name : String) {target : Schema} (clear : target.Clear apart) :
    extrasType two name target = extrasType one name target := by
  unfold extrasType
  split
  · rw [typeName_agrees agrees name (clear.extras ‹_›)]
  · rfl

theorem withItems_agrees (name : String) {target : Schema} (clear : target.Clear apart) (m : Model) :
    withItems two name target m = withItems one name target m := by
  have items : (target.items.getD Schema.blank).Clear apart := by
    cases holds : target.items with
    | none => exact .blank apart
    | some items => exact clear.items holds
  unfold withItems
  rw [agrees.settings]
  dsimp only
  rw [typeName_agrees agrees name items]

theorem setType_agrees {name : String} (named : name ∉ apart) {m : Model} (same : m.name = name) (target : Schema)
    (tag : TypeTag) : m.setType two target tag = m.setType one target tag := by
  subst same
  unfold Model.setType Project.naming
  rw [agrees.settings, agrees.aliases m.name named]

theorem outline_agrees {name : String} (named : name ∉ apart) (written : Schema) {target : Schema}
    (clear : target.Clear apart) : outline two name written target = outline one name written target := by
  unfold outline Project.naming
  rw [agrees.settings, infer_agrees agrees, extrasType_agrees agrees name clear]
  simp only [withItems_agrees agrees name clear]
  refine bind_agree fun _ tag _ _ => ?_
  rw [setType_agrees agrees named rfl]

theorem opening_agrees {name : String} (named : name ∉ apart) {written : Schema} (clear : written.Clear apart) :
    opening two name written = opening one name written := by
  unfold opening
  rw [refuseCycle_agrees agrees named, unalias_agrees agrees name clear]
  congr 1
  funext _
  refine bind_agree fun _ target _ led => ?_
  rw [outline_agrees agrees named written (agrees.document.unalias_clear clear (unalias_ok led))]

theorem registerInterface_agrees (child parent : String) :
    registerInterface two child parent = registerInterface one child parent := by
  unfold registerInterface Project.naming
  rw [agrees.settings]

end Resolution

namespace Drafting
variable {one two : Project} {apart : List String} (agrees : one.Agrees two apart)
include agrees

theorem declareProperty_agrees (name : String) {s : Schema} (clear : s.Clear apart) :
    declareProperty two name s = declareProperty one name s := by
  unfold declareProperty
  simp only [Resolution.property_agrees agrees _ _ clear]

theorem declare_agrees {properties : List (String × Schema)} (required : List String)
    (clear : ∀ property ∈ properties, property.2.Clear apart) :
    declare two properties required = declare one properties required := by
  unfold declare
  rw [forM_agree properties fun property listed => declareProperty_agrees agrees property.1 (clear property listed)]

theorem declare_own {s : Schema} (clear : s.Clear apart) (required : List String) :
    declare two s.properties required = declare one s.properties required :=
  declare_agrees agrees required fun _ listed => clear.property listed

theorem inheritFrom_agrees {members : List Schema} (clear : ∀ member ∈ members, member.Clear apart)
    (parents : List Model) : inheritFrom two members parents = inheritFrom one members parents := by
  unfold inheritFrom
  rw [forM_agree _ fun member listed => declare_own agrees (clear member (List.mem_of_mem_filter listed)) member.required]

theorem groundwork_agrees {target : Schema} (clear : target.Clear apart) (parents : List Model) :
    groundwork two target parents = groundwork one target parents := by
  unfold groundwork settle Resolution.flat
  rw [inheritFrom_agrees agrees (fun _ listed => clear.member listed), declare_own agrees clear]

end Drafting

def Request.Clear (apart : List String) : Request → Prop
  | .reference target => target ∉ apart
  | .arm name s => s.ClearAs apart name

namespace Request
variable {apart : List String}

theorem clear_parent {target : Schema} (clear : target.Clear apart) {reference : String}
    (listed : reference ∈ target.allOfMembers.filterMap (·.reference)) :
    (Request.reference (refName reference)).Clear apart := by
  obtain ⟨member, inside, refers⟩ := List.mem_filterMap.mp listed
  exact (clear.member inside).refers (congrArg (Option.map refName) refers)

theorem clear_ofArm {name : String} {s arm : Schema} {index : Nat} (clear : s.ClearAs apart name)
    (found : s.oneOfArms[index]? = some arm) : (Request.ofArm name arm index).Clear apart := by
  have inside : arm.Clear apart := clear.clear.arm (List.mem_of_getElem? found)
  unfold ofArm
  cases refers : arm.reference with
  | some reference => exact inside.refers (congrArg (Option.map refName) refers)
  | none =>
      have nested : _ ⊆ s.armNames name := Schema.armNames_arm found refers
      exact ⟨clear.arms _ (nested List.mem_cons_self), inside,
        fun other listed => clear.arms other (nested (List.mem_cons_of_mem _ listed))⟩

end Request

namespace Resolution
variable {one two : Project} {apart : List String} {first later : Resolver} (agrees : one.Agrees two apart)

section Parts
variable (same : ∀ name s, s.ClearAs apart name → later name s = first name s)
include agrees same

theorem resolve_agrees (requester : String) {request : Request} (clear : request.Clear apart) :
    request.resolve two later requester = request.resolve one first requester := by
  unfold Request.resolve
  cases request with
  | arm name s =>
      dsimp only [Request.schema?, Request.name]
      rw [same name s clear]
  | reference target =>
      dsimp only [Request.schema?, Request.name]
      rw [agrees.document.same target clear]
      cases found : one.document.get? target with
      | none => rfl
      | some s =>
          dsimp only
          rw [same target s ⟨clear, agrees.document.clear target s found, agrees.arms target s found⟩]

theorem arms_agree (arms : List (Schema × Nat)) (m : Model)
    (clear : ∀ arm ∈ arms, (Request.ofArm m.name arm.1 arm.2).Clear apart) :
    drafted m (arms.forM fun (arm, index) => Drafting.linkArm two later index arm) =
      drafted m (arms.forM fun (arm, index) => Drafting.linkArm one first index arm) := by
  induction arms generalizing m with
  | nil =>
      -- The loops are not compared, since that would unfold what both resolvers do.
      change drafted m (pure ()) = drafted m (pure ())
      rfl
  | cons head rest ih =>
      have here : (Request.ofArm m.name head.1 head.2).Clear apart := clear head List.mem_cons_self
      have next := ih (m.addMember (Request.ofArm m.name head.1 head.2).name) fun arm listed =>
        clear arm (List.mem_cons_of_mem _ listed)
      rw [drafted_arms, drafted_arms, resolve_agrees agrees same m.name here, registerInterface_agrees agrees, next]

theorem linkArms_agree {target : Schema} {m : Model}
    (clear : ∀ index arm, target.oneOfArms[index]? = some arm → (Request.ofArm m.name arm index).Clear apart) :
    drafted m (Drafting.linkArms two later target) = drafted m (Drafting.linkArms one first target) := by
  unfold Drafting.linkArms
  rw [drafted_then, drafted_then, arms_agree agrees same _ m fun arm listed =>
    clear arm.2 arm.1 (List.mk_mem_zipIdx_iff_getElem?.mp listed)]

theorem fill_agrees {target : Schema} {m : Model} (clear : target.Clear apart)
    (arms : ∀ index arm, target.oneOfArms[index]? = some arm → (Request.ofArm m.name arm index).Clear apart) :
    drafted m (fill two later target) = drafted m (fill one first target) := by
  have parents : (target.allOfMembers.filterMap (·.reference)).mapM (reference two later m.name) =
      (target.allOfMembers.filterMap (·.reference)).mapM (reference one first m.name) := by
    refine mapM_agree _ fun reference listed => ?_
    rw [Request.reference_eq, Request.reference_eq, resolve_agrees agrees same m.name (Request.clear_parent clear listed)]
  rw [drafted_fill, drafted_fill, parents]
  congr 1
  funext parents
  rw [Drafting.groundwork_agrees agrees clear]
  refine bind_agree fun session settled next ran => ?_
  have named : settled.name = m.name := by
    obtain ⟨draft, ground, rfl, -⟩ := drafted_ok ran
    exact (Drafting.groundwork_ok ground).1.name
  rw [linkArms_agree agrees same (by rwa [named])]

theorem build_agrees {name : String} {written : Schema} (clear : written.ClearAs apart name) :
    build two later name written = build one first name written := by
  unfold build
  rw [opening_agrees agrees clear.named clear.clear, agrees.settings]
  refine bind_agree fun session opened next ran => ?_
  obtain ⟨target, outlined⟩ := opened
  obtain ⟨led, fresh, -⟩ := opening_ok ran
  have arms : ∀ index arm, target.oneOfArms[index]? = some arm → (Request.ofArm outlined.name arm index).Clear apart := by
    intro index arm found
    obtain rfl := Document.unalias_composed led (Schema.isComposed_of_arm (List.mem_of_getElem? found))
    rw [fresh.name]
    exact Request.clear_ofArm clear found
  dsimp only
  rw [fill_agrees agrees same (agrees.document.unalias_clear clear.clear led) arms]

end Parts

include agrees in
theorem request_agrees (depth : Nat) (name : String) (s : Schema) (clear : s.ClearAs apart name) :
    request two depth name s = request one depth name s := by
  induction depth generalizing name s with
  | zero =>
      unfold request
      rfl
  | succ depth ih =>
      have same := build_agrees agrees ih clear
      unfold request
      dsimp only
      rw [same]

end Resolution
end ApiModels
