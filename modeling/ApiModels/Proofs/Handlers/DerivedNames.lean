import ApiModels.Proofs.Handlers.Groups
import ApiModels.Proofs.Naming.Words

namespace ApiModels

open Naming

theorem NamingRules.apiName_eq_apiFilename (rules : NamingRules) (tag : String) :
    rules.apiName tag = rules.apiFilename tag := by
  have kept : camelChars true (underscoreRuns isAlphanumeric false tag.toList) = camelChars true tag.toList :=
    camelChars_underscoreRuns (fun _ spelled => spelled) (by simp)
  rw [apiName, apiFilename, camelize, camelize, String.toList_ofList, kept]

theorem MappedOperation.operationId_eq_camelize (settings : GeneratorSettings) (o : Operation) :
    (ofOperation settings o).operationId = camelize (ofOperation settings o).nickname :=
  (camelize_camelizeLower _).symm

theorem HandlerGroup.apiName_eq_interface (settings : GeneratorSettings) (operations : List Operation)
    (rules : NamingRules) : (mapOperations settings operations rules).2.map (·.apiName) =
      (mapOperations settings operations rules).2.map (·.artifacts.interface) := by
  refine List.map_congr_left fun group among => ?_
  obtain ⟨named, stems⟩ := (grouped_mapOperations settings operations rules).named group among
  rw [named, stems]
  exact rules.apiName_eq_apiFilename group.tag

-- Camel case is a normal form of words, so a handler is named as the file of its interface is, and an operation as
-- its nickname is in camel case.
theorem camel_case_shared :
    (∀ word, CamelCased (camelize word) ∧ (camelize word = word ↔ CamelCased word)) ∧
    (∀ word, camelize (camelize word) = camelize word ∧ camelize (sanitize word) = camelize word ∧
      camelize (camelizeLower word) = camelize word) ∧
    (∀ (rules : NamingRules) tag, rules.apiName tag = rules.apiFilename tag) ∧
    (∀ settings operations rules, (mapOperations settings operations rules).2.map (·.apiName) =
      (mapOperations settings operations rules).2.map (·.artifacts.interface)) ∧
    ∀ settings o, (MappedOperation.ofOperation settings o).operationId =
      camelize (MappedOperation.ofOperation settings o).nickname := by
  refine ⟨fun word => ?_, fun word => ?_, ?_, ?_, ?_⟩
  · exact ⟨camelCased_camelize word, camelize_eq_self_iff⟩
  · exact ⟨camelize_camelize word, camelize_sanitize word, camelize_camelizeLower word⟩
  · exact NamingRules.apiName_eq_apiFilename
  · exact HandlerGroup.apiName_eq_interface
  · exact MappedOperation.operationId_eq_camelize

end ApiModels
