import ApiModels.Document.Parse
import ApiModels.Proofs.Schema.Rereading
import ApiModels.Report.Basic

namespace ApiModels

open Json

theorem SchemaTable.reread {value : Value} {schemas : SchemaTable} (read : SchemaTable.decode value = .ok schemas) :
    SchemaTable.decode schemas.toValue = .ok schemas := by
  refine Decoder.table_entries fun entry listed => ?_
  obtain ⟨_, decoded⟩ := Decoder.exists_of_table read entry listed
  exact Schema.rereads_of_decode decoded

namespace Document

-- Whatever is written of one document and of what is built from it is written of the other as well.
structure SameTexts (again document : Document) : Prop where
  names : again.names = document.names
  compact : again.schemas.toValue.compact = document.schemas.toValue.compact
  fingerprint : again.fingerprint = document.fingerprint
  modelJson : ∀ settings, (Project.of settings again).run.models.map (fun m => (m.name, m.modelJson)) =
    (Project.of settings document).run.models.map (fun m => (m.name, m.modelJson))

theorem schemas_reread :
    (∀ value s, Schema.decode value = .ok s → Schema.decode s.toValue = .ok s) ∧
      ∀ value schemas, SchemaTable.decode value = .ok schemas →
        ∃ again, SchemaTable.decode schemas.toValue = .ok again ∧ (ofSchemas again).SameTexts (ofSchemas schemas) := by
  refine ⟨fun _ _ read => Schema.rereads_of_decode read, fun _ schemas read => ?_⟩
  exact ⟨schemas, SchemaTable.reread read, rfl, rfl, rfl, fun _ => rfl⟩

def shelf : Value := .object [
  ("x-row", .null),
  ("type", .array [.string "object", .string "null"]),
  ("properties", .object [
    ("books", .object [("items", .object [("$ref", .string "#/components/schemas/Book")]), ("type", .string "array")]),
    ("label", .object [("xml", .array [.string "tag", .null])])]),
  ("required", .array []),
  ("additionalProperties", .object [("allOf", .array [.object []])])]

def shelfSchema : Schema where
  type := some (.listed ["object", "null"])
  properties := [
    ("books", { type := some (.single "array"), items := some { reference := some "#/components/schemas/Book" } }),
    ("label", { xml := some { name := some "tag" } })]
  additionalProperties := some (.schema { allOf := some [{}] })
  extra := SortedTable.empty.insert "x-row" .null

def shelves : SchemaTable := Table.empty.put "Shelf" shelfSchema

theorem schemas_reread_shelf :
    (Schema.decode shelf = .ok shelfSchema ∧ Schema.decode shelfSchema.toValue = .ok shelfSchema) ∧
      SchemaTable.decode (.object [("Shelf", shelf)]) = .ok shelves ∧
        ∃ again, SchemaTable.decode shelves.toValue = .ok again ∧ (ofSchemas again).SameTexts (ofSchemas shelves) :=
  have read : Schema.decode shelf = .ok shelfSchema := by cbv
  have entries : Decoder.entries Schema.decode (.object [("Shelf", shelf)]) = .ok [("Shelf", shelfSchema)] := by cbv
  have listed : SchemaTable.decode (.object [("Shelf", shelf)]) = .ok shelves := map_eq_ok.mpr ⟨_, entries, rfl⟩
  ⟨⟨read, schemas_reread.1 shelf shelfSchema read⟩, listed, schemas_reread.2 _ shelves listed⟩

end Document
end ApiModels
