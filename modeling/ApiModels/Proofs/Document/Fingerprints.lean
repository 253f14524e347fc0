import ApiModels.Proofs.Document.SchemaFiles
import ApiModels.Proofs.Json.Streams

namespace ApiModels

namespace Sha256

-- What is taken for granted of the digest: the two byte sequences at hand are no collision. No function to 32 bytes
-- keeps all sequences apart.
def Separates (a b : List UInt8) : Prop := digest a = digest b → a = b

theorem digitChar_injective {m n : Nat} (low : m < 16) (small : n < 16) (same : Nat.digitChar m = Nat.digitChar n) :
    m = n := by
  have each : ∀ m < 16, ∀ n < 16, Nat.digitChar m = Nat.digitChar n → m = n := by decide
  exact each m low n small same

theorem hexDigits_injective {a b : UInt8} (same : hexDigits a = hexDigits b) : a = b := by
  have high := a.toNat_lt
  have bound := b.toNat_lt
  simp only [hexDigits, List.cons.injEq, and_true] at same
  have upper := digitChar_injective (by omega) (by omega) same.1
  have lower := digitChar_injective (by omega) (by omega) same.2
  apply UInt8.toNat_inj.mp
  omega

theorem hex_injective {a b : List UInt8} (same : hex a = hex b) : a = b := by
  have chars : a.flatMap hexDigits = b.flatMap hexDigits := String.ofList_injective same
  clear same
  induction a generalizing b with
  | nil =>
      cases b with
      | nil => rfl
      | cons y ys => simp [hexDigits] at chars
  | cons x xs ih =>
      cases b with
      | nil => simp [hexDigits] at chars
      | cons y ys =>
          rw [List.flatMap_cons, List.flatMap_cons] at chars
          obtain ⟨first, later⟩ := List.append_inj chars rfl
          rw [hexDigits_injective first, ih later]

end Sha256

section Texts

theorem toList_loop (bytes : ByteArray) (i : Nat) (seen : List UInt8) :
    ByteArray.toList.loop bytes i seen = seen.reverse ++ bytes.data.toList.drop i := by
  fun_induction ByteArray.toList.loop bytes i seen with
  | case1 i seen inside ih =>
      have bound : i < bytes.data.toList.length := inside
      have next : bytes.get! i = bytes.data.toList[i] := by simp [ByteArray.get!, inside]
      rw [ih, List.drop_eq_getElem_cons bound, next, List.reverse_cons, List.append_assoc, List.singleton_append]
  | case2 i seen past => rw [List.drop_eq_nil_of_le (Nat.le_of_not_lt past), List.append_nil]

theorem textBytes_eq (text : String) : Sha256.textBytes text = text.toByteArray.data.toList :=
  toList_loop text.toByteArray 0 []

theorem textBytes_append (text more : String) :
    Sha256.textBytes (text ++ more) = Sha256.textBytes text ++ Sha256.textBytes more := by
  simp [textBytes_eq, ByteArray.data_append]

theorem textOf_ok {bytes : List UInt8} {text : String} (read : FileTree.textOf bytes = .ok text) :
    bytes = Sha256.textBytes text := by
  unfold FileTree.textOf at read
  split at read
  · rename_i found
    cases read
    unfold String.fromUTF8? at found
    split at found
    · cases found
      rw [textBytes_eq]
      rfl
    · cases found
  · cases read

theorem textOf_textBytes (text : String) : FileTree.textOf (Sha256.textBytes text) = .ok text := by
  have valid := text.isValidUTF8
  have whole : String.fromUTF8? text.toByteArray = some text := by
    rw [String.fromUTF8?, dif_pos valid]
    rfl
  simp [FileTree.textOf, textBytes_eq, whole]

theorem textBytes_injective {text other : String} (same : Sha256.textBytes text = Sha256.textBytes other) :
    text = other := by
  have read := textOf_textBytes text
  rw [same, textOf_textBytes other] at read
  exact (Except.ok.inj read).symm

end Texts

namespace Document

open Json Reader

variable {tree : FileTree} {settings : InputSettings} {path : String} {gathered next : Gathered} {s : Schema}
  {value : Value} {file : List String × List UInt8} {files : List (List String × List UInt8)}
  {entries : List (Value × Schema)}

def contentsOf (tree : FileTree) (settings : InputSettings) (path : String) : List UInt8 :=
  (schemaFiles tree settings path).flatMap Prod.snd

abbrev HoldAll (path : String) (files : List (List String × List UInt8)) (entries : List (Value × Schema)) : Prop :=
  List.Forall₂ (fun file entry => Holds path file entry.1 entry.2) files entries

def named (file : List String × List UInt8) (entry : Value × Schema) : String × Schema :=
  (standaloneName entry.1 (fileName file), entry.2)

def keepFirst (schemas : SchemaTable) (entry : String × Schema) : SchemaTable :=
  if schemas.contains entry.1 then schemas else schemas.put entry.1 entry.2

theorem gather_contents (ran : gather (PathName.child path file.1) (fileName file) gathered file.2 = .ok next) :
    next.contents = gathered.contents ++ file.2 := by
  obtain ⟨value, -, ran⟩ := bind_eq_ok.mp ran
  obtain ⟨s, -, ran⟩ := bind_eq_ok.mp ran
  cases ran
  rfl

theorem gatherFiles_ok (ran : gatherFiles path gathered files = .ok next) : ∃ entries, HoldAll path files entries ∧
    next.schemas = (List.zipWith named files entries).foldl keepFirst gathered.schemas ∧
      next.contents = gathered.contents ++ files.flatMap Prod.snd := by
  induction files generalizing gathered with
  | nil =>
      cases ran
      exact ⟨[], .nil, rfl, (List.append_nil _).symm⟩
  | cons file files ih =>
      obtain ⟨middle, one, rest⟩ := bind_eq_ok.mp ran
      obtain ⟨entries, hold, schemas, contents⟩ := ih rest
      obtain ⟨value, s, holds, made⟩ := gather_ok one
      refine ⟨(value, s) :: entries, .cons holds hold, ?_, ?_⟩
      · rw [schemas, made]
        rfl
      · rw [contents, gather_contents one, List.append_assoc, List.flatMap_cons]

theorem object_of_decode (decoded : Schema.decode value = .ok s) : ∃ fields, value = .object fields := by
  cases value with
  | object fields => exact ⟨fields, rfl⟩
  | _ => cases decoded

theorem Holds.reads (holds : Holds path file value s) :
    ∃ text, file.2 = Sha256.textBytes text ∧ Reads nestingLimit text.toList value := by
  obtain ⟨fields, rfl⟩ := object_of_decode holds.decoded
  obtain ⟨text, utf8, read⟩ := bind_eq_ok.mp holds.read
  refine ⟨text, textOf_ok (mapError_eq_ok.mp utf8), reads_of_read? ?_⟩
  cases found : Json.read? text with
  | none => simp [found] at read
  | some value => simpa [found] using read

theorem HoldAll.reads (hold : HoldAll path files entries) : ∃ (whole : String) (texts : List (List Char)),
    files.flatMap Prod.snd = Sha256.textBytes whole ∧ whole.toList = texts.flatten ∧
      List.Forall₂ (Reads nestingLimit) texts (entries.map Prod.fst) := by
  induction hold with
  | nil => exact ⟨"", [], (textBytes_eq "").symm, rfl, .nil⟩
  | cons holds _ ih =>
      obtain ⟨whole, texts, bytes, joined, reads⟩ := ih
      obtain ⟨text, same, first⟩ := holds.reads
      refine ⟨text ++ whole, text.toList :: texts, ?_, ?_, .cons first reads⟩
      · rw [List.flatMap_cons, bytes, same, textBytes_append]
      · rw [String.toList_append, joined, List.flatten_cons]

theorem HoldAll.decoded (hold : HoldAll path files entries) : ∀ entry ∈ entries, Schema.decode entry.1 = .ok entry.2 := by
  induction hold with
  | nil => exact fun _ listed => absurd listed List.not_mem_nil
  | cons holds _ ih => exact List.forall_mem_cons.mpr ⟨holds.decoded, ih⟩

theorem eq_of_values {others : List (Value × Schema)} (left : ∀ entry ∈ entries, Schema.decode entry.1 = .ok entry.2)
    (right : ∀ entry ∈ others, Schema.decode entry.1 = .ok entry.2)
    (same : entries.map Prod.fst = others.map Prod.fst) : entries = others := by
  induction entries generalizing others with
  | nil => exact (List.map_eq_nil_iff.mp same.symm).symm
  | cons entry rest ih =>
      cases others with
      | nil => cases same
      | cons other others =>
          obtain ⟨value, values⟩ := List.cons.inj same
          obtain ⟨first, left⟩ := List.forall_mem_cons.mp left
          obtain ⟨second, right⟩ := List.forall_mem_cons.mp right
          rw [value, second] at first
          rw [ih left right values, Prod.ext value (Except.ok.inj first).symm]

section Two
variable {path₁ path₂ : String} {files₁ files₂ : List (List String × List UInt8)}
  {entries₁ entries₂ : List (Value × Schema)}

theorem HoldAll.unique (left : HoldAll path₁ files₁ entries₁) (right : HoldAll path₂ files₂ entries₂)
    (same : files₁.flatMap Prod.snd = files₂.flatMap Prod.snd) : entries₁ = entries₂ := by
  obtain ⟨whole₁, texts₁, bytes₁, joined₁, reads₁⟩ := HoldAll.reads left
  obtain ⟨whole₂, texts₂, bytes₂, joined₂, reads₂⟩ := HoldAll.reads right
  have wholes : whole₁ = whole₂ := textBytes_injective (by rw [← bytes₁, ← bytes₂, same])
  have none : Blank [] := fun _ listed => absurd listed List.not_mem_nil
  exact eq_of_values (HoldAll.decoded left) (HoldAll.decoded right)
    (values_joined reads₁ reads₂ none none (by rw [← joined₁, ← joined₂, wholes]))

-- A value without a title that two directories hold in the same place, in files that give it different names.
inductive Renamed : List (List String × List UInt8) → List (List String × List UInt8) → List (Value × Schema) → Prop where
  | here {file₁ file₂ : List String × List UInt8} {entry : Value × Schema} {files₁ files₂ entries}
      (untitled : Untitled entry.1)
      (differ : standaloneName entry.1 (fileName file₁) ≠ standaloneName entry.1 (fileName file₂)) :
      Renamed (file₁ :: files₁) (file₂ :: files₂) (entry :: entries)
  | later {file₁ file₂ entry files₁ files₂ entries} (rest : Renamed files₁ files₂ entries) :
      Renamed (file₁ :: files₁) (file₂ :: files₂) (entry :: entries)

theorem untitled_of_names {name other : String} (differ : standaloneName value name ≠ standaloneName value other) :
    Untitled value := by
  unfold standaloneName at differ
  cases title : (value.field? "title").bind Value.asString? with
  | none => exact title
  | some text => simp [title] at differ

theorem renamed_of_named (left : HoldAll path₁ files₁ entries) (right : HoldAll path₂ files₂ entries)
    (differ : List.zipWith named files₁ entries ≠ List.zipWith named files₂ entries) :
    Renamed files₁ files₂ entries := by
  induction left generalizing files₂ with
  | nil =>
      cases right
      exact absurd rfl differ
  | @cons file₁ entry files₁ entries _ left ih =>
      cases right with
      | @cons file₂ _ files₂ _ _ right =>
          by_cases same : standaloneName entry.1 (fileName file₁) = standaloneName entry.1 (fileName file₂)
          · refine .later (ih right fun rest => differ ?_)
            rw [List.zipWith_cons_cons, List.zipWith_cons_cons, rest, named, named, same]
          · exact .here (untitled_of_names same) same

end Two

theorem ofDirectory_ok {document : Document} (loaded : ofDirectory tree settings path = .ok document) :
    ∃ entries, HoldAll path (schemaFiles tree settings path) entries ∧
      document.schemas = (List.zipWith named (schemaFiles tree settings path) entries).foldl keepFirst Table.empty ∧
        document.fingerprint = Sha256.hexDigest (Sha256.digest (contentsOf tree settings path)) := by
  rw [ofDirectory_eq] at loaded
  obtain ⟨gathered, ran, rfl⟩ := map_eq_ok.mp loaded
  obtain ⟨entries, hold, schemas, contents⟩ := gatherFiles_ok ran
  refine ⟨entries, hold, schemas, ?_⟩
  rw [contentsOf, ← List.nil_append (List.flatMap _ _)]
  exact congrArg (fun bytes => Sha256.hexDigest (Sha256.digest bytes)) contents

section Alone
variable {name text : String}

def alone (name text : String) : FileTree := ⟨[([name], .file (Sha256.textBytes text))]⟩

theorem schemaFiles_alone (filed : isSchemaFile [name]) (admitted : InputSettings.defaults.admits name) :
    schemaFiles (alone name text) InputSettings.defaults "." = [([name], Sha256.textBytes text)] := by
  have here : PathName.place "." = [] := by cbv
  simp [schemaFiles, FileTree.filesBelow, here, alone, filed, admitted]

theorem holds_of_read (steps : List String) (read : Json.read? text = some value)
    (decoded : Schema.decode value = .ok s) : Holds path (steps, Sha256.textBytes text) value s := by
  refine ⟨?_, decoded⟩
  rw [readJson, textOf_textBytes]
  simp [Except.mapError, read, bind, Except.bind]

theorem ofDirectory_alone (filed : isSchemaFile [name]) (admitted : InputSettings.defaults.admits name)
    (read : Json.read? text = some value) (decoded : Schema.decode value = .ok s) :
    ofDirectory (alone name text) InputSettings.defaults "." =
      .ok ((ofSchemas (Table.empty.put (standaloneName value name) s)).withSource
        (Sha256.digest (Sha256.textBytes text))) := by
  have holds : Holds "." ([name], Sha256.textBytes text) value s := holds_of_read [name] read decoded
  have one : gather (PathName.child "." [name]) name {} (Sha256.textBytes text) =
      .ok ⟨Table.empty.put (standaloneName value name) s, Sha256.textBytes text⟩ :=
    bind_eq_ok.mpr ⟨value, holds.read, bind_eq_ok.mpr ⟨s, by rw [holds.decoded]; rfl, rfl⟩⟩
  have folded : gatherFiles "." {} [([name], Sha256.textBytes text)] = _ := bind_eq_ok.mpr ⟨_, one, rfl⟩
  rw [ofDirectory_eq, schemaFiles_alone filed admitted, folded]
  rfl

theorem withSource_fingerprint (document : Document) (bytes : List UInt8) :
    (document.withSource bytes).fingerprint = fingerprintOf bytes := rfl

theorem ofDirectory_typed (text type : String) (read : Json.read? text = some (.object [("type", .string type)])) :
    ofDirectory (alone "A.json" text) InputSettings.defaults "." =
      .ok ((ofSchemas (Table.empty.put "A" { type := some (.single type) })).withSource
        (Sha256.digest (Sha256.textBytes text))) := by
  have decoded : Schema.decode (.object [("type", .string type)]) = .ok { type := some (.single type) } := by cbv
  have untitled : standaloneName (.object [("type", .string type)]) "A.json" = standaloneName (.object []) "A.json" := rfl
  have named : standaloneName (.object []) "A.json" = "A" := by decide +kernel
  rw [ofDirectory_alone (by decide +kernel) (by decide +kernel) read decoded, untitled, named]

end Alone

-- Two directories with one fingerprint hold the same values in the same order. Whatever tells their tables apart is
-- the name of a file that gives its name to a schema.
theorem fingerprints_tell (tree₁ tree₂ : FileTree) (settings : InputSettings) (path₁ path₂ : String)
    {document₁ document₂ : Document} (loaded₁ : ofDirectory tree₁ settings path₁ = .ok document₁)
    (loaded₂ : ofDirectory tree₂ settings path₂ = .ok document₂)
    (first : Sha256.Separates (contentsOf tree₁ settings path₁) (contentsOf tree₂ settings path₂))
    (second : Sha256.Separates (Sha256.digest (contentsOf tree₁ settings path₁))
      (Sha256.digest (contentsOf tree₂ settings path₂))) :
    (document₁.fingerprint = document₂.fingerprint ↔
      contentsOf tree₁ settings path₁ = contentsOf tree₂ settings path₂) ∧
    (document₁.schemas ≠ document₂.schemas → document₁.fingerprint ≠ document₂.fingerprint ∨
      ∃ entries, HoldAll path₁ (schemaFiles tree₁ settings path₁) entries ∧
        HoldAll path₂ (schemaFiles tree₂ settings path₂) entries ∧
        Renamed (schemaFiles tree₁ settings path₁) (schemaFiles tree₂ settings path₂) entries) := by
  obtain ⟨entries₁, hold₁, schemas₁, fingerprint₁⟩ := ofDirectory_ok loaded₁
  obtain ⟨entries₂, hold₂, schemas₂, fingerprint₂⟩ := ofDirectory_ok loaded₂
  have tells : document₁.fingerprint = document₂.fingerprint ↔
      contentsOf tree₁ settings path₁ = contentsOf tree₂ settings path₂ := by
    rw [fingerprint₁, fingerprint₂]
    exact ⟨fun same => first (second (Sha256.hex_injective same)), fun same => by rw [same]⟩
  refine ⟨tells, fun differ => or_iff_not_imp_left.mpr fun same => ?_⟩
  obtain rfl := HoldAll.unique hold₁ hold₂ (tells.mp (not_not.mp same))
  refine ⟨entries₁, hold₁, hold₂, renamed_of_named hold₁ hold₂ fun named => differ ?_⟩
  rw [schemas₁, schemas₂, named]

def strings : String := "\x7b\"type\":\"string\"\x7d"

def integers : String := "\x7b\"type\":\"integer\"\x7d"

theorem fingerprints_tell_types : ∃ before after,
    ofDirectory (alone "A.json" strings) InputSettings.defaults "." = .ok before ∧
      ofDirectory (alone "A.json" integers) InputSettings.defaults "." = .ok after ∧
        before.schemas ≠ after.schemas ∧ before.fingerprint ≠ after.fingerprint := by
  have files (text : String) : schemaFiles (alone "A.json" text) InputSettings.defaults "." =
      [(["A.json"], Sha256.textBytes text)] := schemaFiles_alone (by decide +kernel) (by decide +kernel)
  have contents (text : String) : contentsOf (alone "A.json" text) InputSettings.defaults "." = Sha256.textBytes text := by
    simp [contentsOf, files]
  have first : Sha256.digest (Sha256.textBytes strings) ≠ Sha256.digest (Sha256.textBytes integers) := by decide +kernel
  have second : Sha256.digest (Sha256.digest (Sha256.textBytes strings)) ≠
      Sha256.digest (Sha256.digest (Sha256.textBytes integers)) := by decide +kernel
  have loaded₁ := ofDirectory_typed strings "string" (by cbv)
  have loaded₂ := ofDirectory_typed integers "integer" (by cbv)
  have told := (fingerprints_tell _ _ _ _ _ loaded₁ loaded₂ (by rw [contents, contents]; exact (absurd · first))
    (by rw [contents, contents]; exact (absurd · second))).2
  have differ : (Table.empty.put "A" { type := some (.single "string") } : SchemaTable) ≠
      Table.empty.put "A" { type := some (.single "integer") } := by
    intro same
    simpa [Table.get?_put] using congrArg (fun schemas : SchemaTable => schemas.get? "A") same
  refine ⟨_, _, loaded₁, loaded₂, differ, (told differ).resolve_right ?_⟩
  rintro ⟨entries, -, -, renamed⟩
  rw [files, files] at renamed
  cases renamed with
  | here _ names => exact names rfl
  | later rest => cases rest

-- The same file under two names: the tables differ, and nothing of it is digested.
theorem not_told_renamed : ∃ cats dogs, ofDirectory (alone "Cat.json" "\x7b\x7d") InputSettings.defaults "." = .ok cats ∧
    ofDirectory (alone "Dog.json" "\x7b\x7d") InputSettings.defaults "." = .ok dogs ∧ cats.names = ["Cat"] ∧
      dogs.names = ["Dog"] ∧ cats.fingerprint = dogs.fingerprint := by
  have read : Json.read? "\x7b\x7d" = some (.object []) := by cbv
  have decoded : Schema.decode (.object []) = .ok {} := by cbv
  have cat : standaloneName (.object []) "Cat.json" = "Cat" := by decide +kernel
  have dog : standaloneName (.object []) "Dog.json" = "Dog" := by decide +kernel
  refine ⟨_, _, ofDirectory_alone (by decide +kernel) (by decide +kernel) read decoded,
    ofDirectory_alone (by decide +kernel) (by decide +kernel) read decoded, ?_, ?_, ?_⟩
  · rw [cat]
    rfl
  · rw [dog]
    rfl
  · rw [withSource_fingerprint, withSource_fingerprint]

end Document
end ApiModels
