import ApiModels.Proofs.Resolution.Isolation
import ApiModels.Proofs.Resolution.Memoization
import ApiModels.Proofs.Resolution.Termination

namespace ApiModels
namespace Document.ExtendedBy
variable {document larger : Document} {more : List (String × Schema)} (extended : document.ExtendedBy larger more)
  (settings : GeneratorSettings)
include extended

theorem projects : (Project.of settings document).Agrees (Project.of settings larger) (more.map Prod.fst) where
  settings := rfl
  document := extended.agrees
  aliases _ shared := extended.agrees.aliases settings.typeMappings shared
  cycles _ shared := extended.cycleOf? shared
  arms _ _ found _ listed := extended.arms found listed

theorem depthFor_le (s : Schema) :
    (Project.of settings document).depthFor s ≤ (Project.of settings larger).depthFor s := by
  have grows (values : List Schema) {low high : Nat} (le : low ≤ high) :
      values.foldr (fun other depth => other.armDepth + depth) low ≤
        values.foldr (fun other depth => other.armDepth + depth) high := by
    induction values with
    | nil => exact le
    | cons head rest ih => exact Nat.add_le_add_left ih _
  have covers (values : List Schema) : s.armDepth ≤ values.foldr (fun other depth => other.armDepth + depth) s.armDepth := by
    induction values with
    | nil => exact Nat.le_refl _
    | cons head rest ih => exact Nat.le_trans ih (Nat.le_add_left _ _)
  have values : larger.schemas.values = document.schemas.values ++ more.map Prod.snd := by
    unfold Table.values
    rw [extended.entries, List.map_append]
  change document.schemas.values.foldr _ _ ≤ larger.schemas.values.foldr _ _
  rw [values, List.foldr_append]
  exact grows _ (covers _)

theorem resolveInto_agrees (session : Session) {name : String} (listed : name ∈ document.names) :
    (Project.of settings larger).resolveInto session name = (Project.of settings document).resolveInto session name := by
  have agrees := extended.projects settings
  have shared := extended.apart listed
  obtain ⟨s, found⟩ : ∃ s, (Project.of settings document).document.get? name = some s :=
    Option.isSome_iff_exists.mp ((Table.contains_iff _ _).mpr listed)
  have found' : (Project.of settings larger).document.get? name = some s := (agrees.document.same name shared).trans found
  have clear : s.ClearAs (more.map Prod.fst) name :=
    ⟨shared, agrees.document.clear name s found, agrees.arms name s found⟩
  have resolves := Progress.request_resolves (Project.of settings document) fun _ => True
  have same : (Project.of settings larger).resolve name session = (Project.of settings document).resolve name session := by
    rw [Project.resolve_found found', Project.resolve_found found, Resolution.request_agrees agrees _ name s clear]
    refine resolves.agree resolves (fun _ => ?_) fun _ => Project.budget_le_depthFor s
    exact Nat.le_trans (Project.budget_le_depthFor s) (extended.depthFor_le settings s)
  unfold Project.resolveInto
  rw [same]

theorem resolveAll_eq : (Project.of settings larger).resolveAll =
    (more.map Prod.fst).foldl (Project.of settings larger).resolveInto (Project.of settings document).resolveAll := by
  unfold Project.resolveAll
  change larger.names.foldl _ _ = _
  rw [extended.names, List.foldl_append]
  congr 1
  exact List.foldl_ext _ _ _ fun session name listed => extended.resolveInto_agrees settings session listed

theorem resolveAll_keptBy :
    (Project.of settings document).resolveAll.KeptBy (Project.of settings larger).resolveAll := by
  have added : more ⊆ larger.schemas.entries := by
    rw [extended.entries]
    exact List.subset_append_right _ _
  have run : Progress.Run (Project.of settings larger) ⟨(Project.of settings document).resolveAll, [], more⟩
      ⟨(Project.of settings larger).resolveAll, [], []⟩ := by
    rw [extended.resolveAll_eq settings]
    exact Project.resolveInto_onward _ more added
  have valid : Progress.Coherent ⟨(Project.of settings document).resolveAll, [], []⟩ :=
    (Project.of settings document).coherent_done
  exact (valid.await more).run_keptBy run

end Document.ExtendedBy

namespace Project

-- A document and a larger one, which adds schemas under names that the first does not mention: the failures of
-- the first run are failures of the second, its models have gained links at most, and no name of the first
-- document has come to anything else.
theorem run_isolated (settings : GeneratorSettings) {document larger : Document} {more : List (String × Schema)}
    (extended : document.ExtendedBy larger more) :
    (∀ failure ∈ (of settings document).run.failures, failure ∈ (of settings larger).run.failures) ∧
      (∀ m ∈ (of settings document).run.models, ∃ later ∈ (of settings larger).run.models, m.Gains later) ∧
      ∀ name ∈ document.names,
        (∀ e, (name, e) ∈ (of settings larger).run.failures → (name, e) ∈ (of settings document).run.failures) ∧
          ∀ later ∈ (of settings larger).run.models, later.name = name →
            ∃ m ∈ (of settings document).run.models, m.Gains later := by
  have kept := extended.resolveAll_keptBy settings
  refine ⟨?_, ?_, fun name listed => ?_⟩
  · rintro ⟨name, e⟩ failed
    exact (mem_run_failures _).mpr (kept.failed name e ((mem_run_failures _).mp failed))
  · intro m known
    obtain ⟨later, gains, found⟩ := kept.ready m.name m ((mem_run_models _).mp known)
    rw [← gains.name] at found
    exact ⟨later, (mem_run_models _).mpr found, gains⟩
  · obtain ⟨entry, found, final⟩ := (of settings document).concluded listed
    constructor
    · intro e failed
      exact (mem_run_failures _).mpr (kept.failed_before found final ((mem_run_failures _).mp failed))
    · rintro later known rfl
      obtain ⟨m, gains, ready⟩ := kept.ready_before found final ((mem_run_models _).mp known)
      rw [gains.name] at ready
      exact ⟨m, (mem_run_models _).mpr ready, gains⟩

def strays : List (String × Schema) :=
  [("Stray", { oneOf := some [Schema.referenceTo "Pet", Schema.referenceTo "Nowhere"] })]

def kennel : Document where
  schemas := Table.ofEntries [
    ("Pet", { properties := [("name", { type := some (.single "string") })] }),
    ("Orphan", { allOf := some [Schema.referenceTo "Ghost"] })]
  fingerprint := ""

def kennelWithStrays : Document where
  schemas := Table.ofEntries (kennel.schemas.entries ++ strays)
  fingerprint := ""

theorem run_isolated_strays : kennel.ExtendedBy kennelWithStrays strays ∧
    ("Orphan", ModelError.unresolvedReference "Orphan" "Ghost") ∈
      (of GeneratorSettings.defaults kennelWithStrays).run.failures ∧
    ∃ m ∈ (of GeneratorSettings.defaults kennel).run.models, ∃ later ∈ (of GeneratorSettings.defaults kennelWithStrays).run.models,
      m.name = "Pet" ∧ m.Gains later := by
  have extended : kennel.ExtendedBy kennelWithStrays strays := ⟨rfl, by decide +kernel⟩
  have failed : ("Orphan", ModelError.unresolvedReference "Orphan" "Ghost") ∈
      (of GeneratorSettings.defaults kennel).run.failures := by decide +kernel
  have named : "Pet" ∈ (of GeneratorSettings.defaults kennel).run.models.map (·.name) := by decide +kernel
  obtain ⟨m, known, same⟩ := List.mem_map.mp named
  obtain ⟨failures, models, -⟩ := run_isolated GeneratorSettings.defaults extended
  obtain ⟨later, found, gains⟩ := models m known
  exact ⟨extended, failures _ failed, m, known, later, found, same, gains⟩

end Project
end ApiModels
