import ApiModels.Proofs.Document.Routes
import ApiModels.Proofs.Resolution.Signatures
import ApiModels.Proofs.Schema.Containers
import ApiModels.Report.Basic

namespace ApiModels
namespace Schema
variable {s : Schema}

-- An array that leaves its extras open, as only a map should.
def isOpenArray (s : Schema) : Bool := s.isArray && s.isMap

structure Unanimous (mappings : TypeMappings) (s : Schema) : Prop where
  map : s.inferTag mappings = .map ↔ s.isMap
  sequence : s.inferTag mappings = .array ∨ s.inferTag mappings = .set ↔ s.isArray
  kinds : s.isComposed = false → s.hasEnum = false → (s.kind = .map ↔ s.isMap) ∧ (s.kind = .array ↔ s.isArray)

-- The inference tells some types before a map, and a map before an array.
structure Classified (mappings : TypeMappings) (s : Schema) : Prop where
  map : s.inferTag mappings = .map ↔ s.isMap ∧ ¬ s.isToldFirst
  sequence : s.inferTag mappings = .array ∨ s.inferTag mappings = .set ↔ s.isArray ∧ ¬ s.isMap
  kinds : s.isComposed = false → s.hasEnum = false →
    (s.kind = .array ↔ s.isArray) ∧ (s.kind = .map ↔ s.isMap ∧ ¬ s.isArray)

theorem classified (mappings : TypeMappings) (plain : s.reference = none) : s.Classified mappings where
  map := inferTag_eq_map
  sequence := inferTag_eq_sequence
  kinds whole unlisted := ⟨kind_eq_array plain whole unlisted, kind_eq_map plain whole unlisted⟩

end Schema

structure Model.Labelled (mappings : TypeMappings) (target : Schema) (m : Model) : Prop where
  dataType : target.refName? = none → m.dataType = (target.inferTag mappings).text
  single : ¬ target.isOpenArray → ¬ (m.isMapModel ∧ m.isArrayModel)
  array : ¬ target.isOpenArray → m.isArrayModel → target.inferTag mappings = .array ∨ target.inferTag mappings = .set
  map : m.isMapModel → target.inferTag mappings = .map ∨ target.isToldFirst

theorem Model.Signed.labelled {project : Project} {name : String} {target : Schema} {m : Model}
    (signed : m.Signed project name target) : m.Labelled project.settings.typeMappings target where
  dataType plain := by simpa [plain] using signed.dataType
  single apart := by
    rw [signed.isMapModel, signed.isArrayModel]
    exact fun both => apart (by simp [Schema.isOpenArray, both])
  array apart flagged := by
    rw [signed.isArrayModel] at flagged
    exact Schema.inferTag_eq_sequence.mpr ⟨flagged, fun map => apart (by simp [Schema.isOpenArray, flagged, map])⟩
  map flagged := by
    rw [signed.isMapModel] at flagged
    by_cases told : target.isToldFirst
    · exact .inr told
    · exact .inl (Schema.inferTag_eq_map.mpr ⟨flagged, told⟩)

namespace Project

-- The inference goes by its order. Beyond that, the ways of telling a container differ only about open arrays,
-- and the model of any other schema is flagged as one kind of container at most.
theorem containers_classified (project : Project) :
    (∀ s : Schema, s.reference = none → s.Classified project.settings.typeMappings) ∧
    ∀ calls k, Progress.Run project (Progress.upon project calls) k → ∀ name m,
      k.cache.entries.get? name = some (.ready m) → ∃ written target,
        Progress.Began project (Progress.upon project calls) k name written ∧
          project.document.unalias written = .ok target ∧ m.Labelled project.settings.typeMappings target := by
  refine ⟨fun s plain => Schema.classified _ plain, fun calls k run name m ready => ?_⟩
  obtain ⟨written, target, began, led, signed⟩ := run.founded.models name m ready
  exact ⟨written, target, began, led, signed.labelled⟩

def tags : Schema where
  type := some (.single "array")
  uniqueItems := some true
  items := some { type := some (.single "string") }

def labelled : Project :=
  of GeneratorSettings.defaults
    { schemas := Table.ofEntries [("Labels", Schema.referenceTo "Tags"), ("Tags", tags)], fingerprint := "" }

theorem containers_classified_labelled :
    (tags.inferTag labelled.settings.typeMappings = .set ∧ tags.kind = .array) ∧
      ∃ m, (labelled.perform [.resolve "Labels"]).cache.entries.get? "Labels" = some (.ready m) ∧
        m.Labelled labelled.settings.typeMappings tags ∧ m.isArrayModel ∧ m.dataType = "set" := by
  obtain ⟨classified, labels⟩ := containers_classified labelled
  have kinds := (classified tags rfl).kinds rfl rfl
  refine ⟨⟨rfl, kinds.1.mpr rfl⟩, ?_⟩
  have found : ((labelled.perform [.resolve "Labels"]).cache.get? "Labels").any (·.isArrayModel) := by decide +kernel
  obtain ⟨m, known, flagged⟩ := (Option.any_eq_true _ _).mp found
  have ready := Cache.get?_eq_some.mp known
  obtain ⟨written, target, began, led, told⟩ := labels _ _ (Progress.performed labelled _) "Labels" m ready
  cases began.unique (Progress.Coherent.initial _) (Progress.Began.of_call [] rfl)
  have refers : (Schema.referenceTo "Tags").refName? = some "Tags" := by decide +kernel
  cases led.symm.trans (Document.unalias_of_bare refers rfl rfl rfl)
  exact ⟨m, ready, told, flagged, told.dataType rfl⟩

def ratio : Schema := { type := some (.single "number"), additionalProperties := some (.flag true) }

def shelf : Schema where
  type := some (.single "array")
  items := some { type := some (.single "string") }
  additionalProperties := some (.flag true)

def contested : Document where
  schemas := Table.ofEntries [("Ratio", ratio), ("Shelf", shelf)]
  fingerprint := ""

-- The number is inferred as one and is a map by its kind, and the array the other way round.
theorem not_unanimous_contested :
    (ratio.reference = none ∧ ¬ ratio.Unanimous SortedTable.empty) ∧
      (shelf.reference = none ∧ ¬ shelf.Unanimous SortedTable.empty) ∧
      (∃ m ∈ (of GeneratorSettings.defaults contested).run.models, m.dataType = "number" ∧ m.isMapModel) ∧
      ∃ m ∈ (of GeneratorSettings.defaults contested).run.models, m.isMapModel ∧ m.isArrayModel := by
  refine ⟨⟨rfl, fun agree => ?_⟩, ⟨rfl, fun agree => ?_⟩, by decide +kernel, by decide +kernel⟩
  · exact absurd (agree.map.mpr (by decide)) (by decide)
  · exact absurd (agree.sequence.mpr (by decide)) (by decide)

end Project
end ApiModels
