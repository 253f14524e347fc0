import ApiModels.Proofs.Model.Partitions
import ApiModels.Proofs.Resolution.Tidiness

namespace ApiModels
namespace Model

theorem Fresh.nested {name : String} {m : Model} (fresh : m.Fresh name) : m.Nested where
  same n p own := by simp [ownProperty?, fresh.own, named] at own
  declaredOwn n listed := by
    rw [fresh.required] at listed
    cases listed
  declared n listed := by
    rw [fresh.allRequired] at listed
    cases listed

theorem nests : Declaring fun m next => m.Nested → next.Nested where
  refl _ nested := nested
  trans first second nested := second (first nested)
  declare _ p nested := nested.declare p
  requireName _ _ known nested := nested.requireName known
  refresh _ nested := nested.refresh

theorem adopt_nested {m : Model} {parents : List Model} (nested : m.Nested)
    (elders : ∀ parent ∈ parents, parent.Nested) : (m.adopt parents).Nested :=
  adopt_keeps (fun _ nested => ⟨nested.same, nested.declaredOwn, nested.declared⟩) Nested.extend nested elders

structure Joined (m : Model) : Prop extends Settled m, Nested m

theorem Joined.keeps {m next : Model} (joined : m.Joined) (kept : m.Keeps next)
    (required : next.requiredNames = m.requiredNames) : next.Joined :=
  ⟨kept.settled, joined.toNested.twins kept.twins required⟩

theorem Joined.standard (project : Project) : Standard project Joined where
  fresh fresh := ⟨fresh.settled, fresh.nested⟩
  ground fresh alone elders ran :=
    ⟨Drafting.groundwork_settled fresh alone (fun parent listed => (elders parent listed).toTidy) ran,
      Drafting.groundwork_moves (nests.admitting project) alone ran
        (adopt_nested fresh.nested fun parent listed => (elders parent listed).toNested)⟩
  member child joined := joined.keeps (joined.toSettled.addMember child) rfl
  shown union joined := joined.keeps (joined.toSettled.addInterface union) rfl
  linked link joined := joined.keeps (joined.toSettled.implement link) (Cache.implement_agrees _ link).required
  completed joined := joined.keeps (joined.toSettled.complete _) (complete_rearranges _ _).required

theorem Refreshed.implement {m : Model} (refreshed : m.Refreshed) (link : PendingLink) :
    (Cache.implement m link).Refreshed := (refreshed.addInterface link.parent).addImports [link.parentClass]

theorem Sorted.implement {m : Model} (sorted : m.Sorted) (link : PendingLink) : (Cache.implement m link).Sorted := by
  unfold Cache.implement
  rw [addImport_eq]
  exact ⟨sorted.own, sorted.all⟩

end Model

def Report.Consistent (settings : GeneratorSettings) (report : Report) : Prop :=
  ∀ m ∈ report.models, m.Consistent settings

namespace Project

-- The lists, the sets and the flags of every model tell the same.
theorem run_consistent (project : Project) : project.run.Consistent project.settings := by
  intro m known
  have ready := project.mem_run_models.mp known
  have passes := Progress.passes_done project
  have joined : m.Joined := (passes.upholds (Model.Joined.standard project).criterion).models m.name _ m ready rfl
  obtain ⟨draft, links, rfl⟩ := (passes.finishes ready).completed
  refine joined.toSettled.consistent joined.toNested ?_ fun asked => ?_
  · exact List.foldlRecOn links Cache.implement (Model.complete_refreshed _ _)
      fun _ refreshed link _ => refreshed.implement link
  · exact List.foldlRecOn links Cache.implement (Model.complete_sorted asked _) fun _ sorted link _ => sorted.implement link

end Project
end ApiModels
