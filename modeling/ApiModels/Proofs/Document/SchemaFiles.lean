import Mathlib
import ApiModels.Files.Load
import ApiModels.Proofs.Document.Pointers
import ApiModels.Proofs.Json.Decoding

namespace ApiModels

theorem dropEnding_append (front ending : List Char) : dropEnding ending (front ++ ending) = front := by
  rw [dropEnding, if_pos (List.isSuffixOf_iff_suffix.mpr (List.suffix_append front ending)), List.length_append,
    Nat.add_sub_cancel, List.take_left]

section Removal
variable {first : Char} {tail chars before after : List Char}

theorem removeAll_skip (pattern : List Char) (skip : Nat) (chars : List Char) :
    removeAll pattern skip chars = removeAll pattern 0 (chars.drop skip) := by
  induction chars generalizing skip with
  | nil => cases skip <;> rfl
  | cons c rest ih =>
      cases skip with
      | zero => rfl
      | succ skip => exact ih skip

theorem removeAll_length_le (pattern : List Char) (skip : Nat) (chars : List Char) :
    (removeAll pattern skip chars).length ≤ chars.length := by
  induction chars generalizing skip with
  | nil => cases skip <;> exact Nat.le_refl _
  | cons c rest ih =>
      cases skip with
      | succ skip => exact Nat.le_succ_of_le (ih skip)
      | zero =>
          rw [removeAll]
          split
          · exact Nat.le_succ_of_le (ih _)
          · exact Nat.succ_le_succ (ih 0)

theorem removeAll_eq_self (absent : ¬ first :: tail <:+: chars) : removeAll (first :: tail) 0 chars = chars := by
  induction chars with
  | nil => rfl
  | cons c rest ih =>
      obtain ⟨here, later⟩ := not_or.mp (mt List.infix_cons_iff.mpr absent)
      rw [removeAll, if_neg fun begins => here (List.isPrefixOf_iff_prefix.mp begins), ih later]

-- Up to the first occurrence everything is kept. No other one begins inside, as it would begin with the same
-- character.
theorem removeAll_first (single : first ∉ tail) (absent : ¬ first :: tail <:+: before) (after : List Char) :
    removeAll (first :: tail) 0 (before ++ (first :: tail ++ after)) = before ++ removeAll (first :: tail) 0 after := by
  induction before with
  | nil =>
      have begins : (first :: tail).isPrefixOf (first :: (tail ++ after)) :=
        List.isPrefixOf_iff_prefix.mpr (List.prefix_append (first :: tail) after)
      rw [List.nil_append, List.cons_append, removeAll, if_pos begins, removeAll_skip]
      simp
  | cons c before ih =>
      obtain ⟨here, later⟩ := not_or.mp (mt List.infix_cons_iff.mpr absent)
      have differs : ¬ (first :: tail).isPrefixOf (c :: (before ++ (first :: tail ++ after))) := by
        intro begins
        have whole : first :: tail <+: (c :: before) ++ (first :: tail ++ after) := List.isPrefixOf_iff_prefix.mp begins
        obtain ⟨inside, split⟩ := (List.prefix_or_prefix_of_prefix whole (List.prefix_append _ _)).resolve_left here
        rw [← split, List.prefix_append_right_inj] at whole
        cases inside with
        | nil => exact here (by rw [← split, List.append_nil])
        | cons d inside =>
            obtain ⟨rfl, rfl⟩ := List.cons.inj split
            obtain ⟨rfl, -⟩ := List.cons_prefix_cons.mp whole
            exact single (List.mem_append_right before List.mem_cons_self)
      rw [List.cons_append, removeAll, if_neg differs, ih later, List.cons_append]

theorem exists_first (present : first :: tail <:+: chars) :
    ∃ before after, chars = before ++ (first :: tail ++ after) ∧ ¬ first :: tail <:+: before := by
  induction chars with
  | nil => cases List.eq_nil_of_infix_nil present
  | cons c rest ih =>
      by_cases here : first :: tail <+: c :: rest
      · obtain ⟨after, split⟩ := here
        exact ⟨[], after, split.symm, fun inside => by cases List.eq_nil_of_infix_nil inside⟩
      · obtain ⟨before, after, rfl, absent⟩ := ih ((List.infix_cons_iff.mp present).resolve_left here)
        refine ⟨c :: before, after, rfl, fun inside => ?_⟩
        rcases List.infix_cons_iff.mp inside with begins | later
        · exact here (begins.trans (List.prefix_append (c :: before) _))
        · exact absent later

theorem removeAll_length_lt (single : first ∉ tail) (present : first :: tail <:+: chars) :
    (removeAll (first :: tail) 0 chars).length < chars.length := by
  obtain ⟨before, after, rfl, absent⟩ := exists_first present
  have bound := removeAll_length_le (first :: tail) 0 after
  rw [removeAll_first single absent]
  simp only [List.length_append, List.length_cons]
  omega

theorem removeAll_eq_dropEnding (single : first ∉ tail) :
    removeAll (first :: tail) 0 chars = dropEnding (first :: tail) chars ↔
      ¬ first :: tail <:+: dropEnding (first :: tail) chars := by
  by_cases ends : first :: tail <:+ chars
  · obtain ⟨front, rfl⟩ := ends
    rw [dropEnding_append]
    constructor
    · intro same present
      obtain ⟨before, after, rfl, absent⟩ := exists_first present
      have shorter := removeAll_length_lt single (List.suffix_append after (first :: tail)).isInfix
      rw [List.append_assoc, List.append_assoc, removeAll_first single absent] at same
      have kept := congrArg List.length same
      simp only [List.length_append, List.length_cons] at kept shorter
      omega
    · intro absent
      have removed := removeAll_first single absent []
      rwa [List.append_nil, removeAll, List.append_nil] at removed
  · rw [(dropEnding_eq_self (List.cons_ne_nil first tail)).mpr ends]
    refine ⟨fun same present => ?_, removeAll_eq_self⟩
    have shorter := removeAll_length_lt single present
    rw [same] at shorter
    exact Nat.lt_irrefl _ shorter

end Removal

theorem PathName.lastDot?_eq {chars front extension : List Char} (found : lastDot? chars = some (front, extension)) :
    chars = front ++ '.' :: extension := by
  unfold lastDot? at found
  dsimp only at found
  split at found
  · rename_i stem dotted
    split at found
    · cases found
    · cases found
      have whole := List.takeWhile_append_dropWhile (p := (· ≠ '.')) (l := chars.reverse)
      rw [dotted] at whole
      simpa using (congrArg List.reverse whole).symm
  · cases found

theorem PathName.toList_of_extension? {name extension : String} (ends : extension? name = some extension) :
    name.toList = (stem name).toList ++ '.' :: extension.toList := by
  obtain ⟨⟨front, behind⟩, found, rfl⟩ := Option.map_eq_some_iff.mp ends
  rw [stem, found]
  simpa using lastDot?_eq found

def Untitled (value : Json.Value) : Prop := (value.field? "title").bind Json.Value.asString? = none

-- The stem of a file has the mark of a schema file at its end, if at all.
def EndMarked (fileName : String) : Prop :=
  ¬ ".schema".toList <:+: dropEnding ".schema".toList (PathName.stem fileName).toList

section Names
variable {value : Json.Value} {fileName : String}

theorem refName_relative (steps : List String) (fileName : String) :
    refName (String.intercalate "/" (steps ++ [fileName])) = refName fileName := by
  cases steps with
  | nil => simp
  | cons step steps =>
      rw [String.intercalate_append_of_ne_nil (by simp) (by simp)]
      have path : (String.intercalate "/" (step :: steps) ++ "/" ++ String.intercalate "/" [fileName]).toList =
          (String.intercalate "/" (step :: steps)).toList ++ '/' :: fileName.toList := by simp
      rw [refName, refName, simpleName, simpleName, path, lastSegment_append]

theorem refName_schemaFile (filed : PathName.extension? fileName = some "json")
    (unbroken : ∀ c ∈ fileName.toList, isSeparator c = false) :
    refName fileName = String.ofList (dropEnding ".schema".toList (PathName.stem fileName).toList) := by
  have json : dropEnding ".json".toList fileName.toList = (PathName.stem fileName).toList := by
    rw [PathName.toList_of_extension? filed]
    exact dropEnding_append _ _
  rw [refName, simpleName, lastSegment_eq_self.mpr unbroken, json]

theorem standaloneName_eq_refName (untitled : Untitled value) (filed : PathName.extension? fileName = some "json")
    (unbroken : ∀ c ∈ fileName.toList, isSeparator c = false) (steps : List String) :
    standaloneName value fileName = refName (String.intercalate "/" (steps ++ [fileName])) ↔ EndMarked fileName := by
  have single : ".schema".toList = '.' :: "schema".toList := by decide
  have named : standaloneName value fileName =
      String.ofList (removeAll ".schema".toList 0 (PathName.stem fileName).toList) := by
    rw [standaloneName, untitled]
  rw [refName_relative, refName_schemaFile filed unbroken, named, String.ofList_inj, EndMarked, single]
  exact removeAll_eq_dropEnding (by decide)

end Names

namespace Document
variable {tree : FileTree} {settings : InputSettings} {path name : String} {gathered next : Gathered} {s : Schema}
  {document : Document} {file : List String × List UInt8} {files : List (List String × List UInt8)}

def schemaFiles (tree : FileTree) (settings : InputSettings) (path : String) : List (List String × List UInt8) :=
  (tree.filesBelow path).filter fun file => isSchemaFile file.1 && settings.admits (String.intercalate "/" file.1)

-- What a file below the directory holds, as text and as a schema.
structure Holds (path : String) (file : List String × List UInt8) (value : Json.Value) (s : Schema) : Prop where
  read : readJson (PathName.child path file.1) file.2 = .ok value
  decoded : Schema.decode value = .ok s

def fileName (file : List String × List UInt8) : String := file.1.getLastD ""

def gatherFiles (path : String) (gathered : Gathered) (files : List (List String × List UInt8)) :
    Except LoadError Gathered :=
  files.foldlM (fun gathered file => gather (PathName.child path file.1) (fileName file) gathered file.2) gathered

theorem ofDirectory_eq (tree : FileTree) (settings : InputSettings) (path : String) : ofDirectory tree settings path =
    (gatherFiles path {} (schemaFiles tree settings path)).map fun gathered =>
      (ofSchemas gathered.schemas).withSource (Sha256.digest gathered.contents) := rfl

theorem gather_ok (ran : gather (PathName.child path file.1) (fileName file) gathered file.2 = .ok next) :
    ∃ value s, Holds path file value s ∧ next.schemas =
      if gathered.schemas.contains (standaloneName value (fileName file)) then gathered.schemas
      else gathered.schemas.put (standaloneName value (fileName file)) s := by
  obtain ⟨value, read, ran⟩ := bind_eq_ok.mp ran
  obtain ⟨s, decoded, ran⟩ := bind_eq_ok.mp ran
  cases ran
  refine ⟨value, s, ⟨read, ?_⟩, rfl⟩
  cases outcome : Schema.decode value with
  | ok t =>
      rw [outcome] at decoded
      cases decoded
      rfl
  | error e => simp [outcome, Except.mapError] at decoded

theorem gather_keeps (ran : gather (PathName.child path file.1) (fileName file) gathered file.2 = .ok next)
    (found : gathered.schemas.get? name = some s) : next.schemas.get? name = some s := by
  obtain ⟨value, t, -, made⟩ := gather_ok ran
  rw [made]
  split
  · exact found
  · rename_i fresh
    rw [Table.get?_put, if_neg]
    · exact found
    · rintro rfl
      exact fresh (by simp [Table.contains, found])

theorem gatherFiles_keeps (ran : gatherFiles path gathered files = .ok next)
    (found : gathered.schemas.get? name = some s) : next.schemas.get? name = some s := by
  induction files generalizing gathered with
  | nil =>
      cases ran
      exact found
  | cons file files ih =>
      obtain ⟨middle, one, rest⟩ := bind_eq_ok.mp ran
      exact ih rest (gather_keeps one found)

theorem gatherFiles_names (ran : gatherFiles path gathered files = .ok next) (listed : name ∈ next.schemas.names) :
    name ∈ gathered.schemas.names ∨
      ∃ file ∈ files, ∃ value s, Holds path file value s ∧ standaloneName value (fileName file) = name := by
  induction files generalizing gathered with
  | nil =>
      cases ran
      exact .inl listed
  | cons file files ih =>
      obtain ⟨middle, one, rest⟩ := bind_eq_ok.mp ran
      rcases ih rest with early | ⟨other, later, gives⟩
      · obtain ⟨value, t, holds, made⟩ := gather_ok one
        rw [made] at early
        split at early
        · exact .inl early
        · rcases Table.mem_names_put.mp early with rfl | old
          · exact .inr ⟨file, List.mem_cons_self, value, t, holds, rfl⟩
          · exact .inl old
      · exact .inr ⟨other, List.mem_cons_of_mem _ later, gives⟩

theorem gatherFiles_first {earlier later : List (List String × List UInt8)}
    (ran : gatherFiles path {} (earlier ++ file :: later) = .ok next) : ∃ value s, Holds path file value s ∧
      ((∀ other ∈ earlier, ∀ v t, Holds path other v t →
          standaloneName v (fileName other) ≠ standaloneName value (fileName file)) →
        next.schemas.get? (standaloneName value (fileName file)) = some s) := by
  unfold gatherFiles at ran
  rw [List.foldlM_append] at ran
  obtain ⟨before, first, ran⟩ := bind_eq_ok.mp ran
  obtain ⟨after, one, rest⟩ := bind_eq_ok.mp ran
  obtain ⟨value, s, holds, made⟩ := gather_ok one
  refine ⟨value, s, holds, fun unique => gatherFiles_keeps rest ?_⟩
  have fresh : ¬ before.schemas.contains (standaloneName value (fileName file)) := by
    rw [Table.contains_iff]
    intro known
    rcases gatherFiles_names first known with none_ | ⟨other, listed, v, t, holds', same⟩
    · cases none_
    · exact unique other listed v t holds' same
  rw [made, if_neg fresh, Table.get?_put, if_pos rfl]

-- A file without a title has the name of every relative reference to it exactly where its stem is marked at the
-- end only. There the reference leads to its schema, unless an earlier file of the directory has taken the name.
theorem schema_files_found (tree : FileTree) (settings : InputSettings) (path : String) (steps : List String) :
    (∀ value fileName, Untitled value → PathName.extension? fileName = some "json" →
      (∀ c ∈ fileName.toList, isSeparator c = false) →
        (standaloneName value fileName = refName (String.intercalate "/" (steps ++ [fileName])) ↔ EndMarked fileName)) ∧
    ∀ document, ofDirectory tree settings path = .ok document →
      ∀ earlier file later, schemaFiles tree settings path = earlier ++ file :: later → ∃ value s,
        Holds path file value s ∧
        ((∀ other ∈ earlier, ∀ v t, Holds path other v t →
            standaloneName v (fileName other) ≠ standaloneName value (fileName file)) →
          Untitled value → (∀ c ∈ (fileName file).toList, isSeparator c = false) → EndMarked (fileName file) →
            document.get? (refName (String.intercalate "/" (steps ++ [fileName file]))) = some s) := by
  refine ⟨fun _ _ untitled filed unbroken => standaloneName_eq_refName untitled filed unbroken steps, ?_⟩
  intro document loaded earlier file later split
  rw [ofDirectory_eq] at loaded
  obtain ⟨gathered, folded, rfl⟩ := map_eq_ok.mp loaded
  have filed : PathName.extension? (fileName file) = some "json" := by
    have listed : file ∈ schemaFiles tree settings path := split ▸ List.mem_append_right _ List.mem_cons_self
    have admitted := (List.mem_filter.mp listed).2
    simpa [isSchemaFile, fileName] using (Bool.and_eq_true_iff.mp admitted).1
  rw [split] at folded
  obtain ⟨value, s, holds, found⟩ := gatherFiles_first folded
  refine ⟨value, s, holds, fun unique untitled unbroken marked => ?_⟩
  rw [← (standaloneName_eq_refName untitled filed unbroken steps).mpr marked]
  exact found unique

def numeric : List UInt8 := Sha256.textBytes "\x7b\"type\": \"number\"\x7d"

def versioned : FileTree := ⟨[(["Pet.schema.v1.json"], .file numeric)]⟩

-- The mark before the version goes missing in the name of the file, and stays in the name of a reference.
theorem not_found_versioned : ∃ document, ofDirectory versioned InputSettings.defaults "." = .ok document ∧
    document.names = ["Pet.v1"] ∧ document.get? (refName "Pet.schema.v1.json") = none := by
  have here : PathName.place "." = [] := by cbv
  have filed : isSchemaFile ["Pet.schema.v1.json"] := by decide +kernel
  have admitted : InputSettings.defaults.admits "Pet.schema.v1.json" := by decide +kernel
  have files : schemaFiles versioned InputSettings.defaults "." = [(["Pet.schema.v1.json"], numeric)] := by
    simp [schemaFiles, FileTree.filesBelow, here, versioned, filed, admitted]
  have read : readJson (PathName.child "." ["Pet.schema.v1.json"]) numeric =
      .ok (.object [("type", .string "number")]) := by cbv
  have decoded : Schema.decode (.object [("type", .string "number")]) = .ok { type := some (.single "number") } := by cbv
  have named : standaloneName (.object [("type", .string "number")]) "Pet.schema.v1.json" = "Pet.v1" := by decide +kernel
  have one : gather (PathName.child "." ["Pet.schema.v1.json"]) "Pet.schema.v1.json" {} numeric =
      .ok ⟨Table.empty.put "Pet.v1" { type := some (.single "number") }, numeric⟩ := by
    refine bind_eq_ok.mpr ⟨_, read, bind_eq_ok.mpr ⟨_, by rw [decoded]; rfl, ?_⟩⟩
    rw [named]
    rfl
  have folded : gatherFiles "." {} [(["Pet.schema.v1.json"], numeric)] = _ := bind_eq_ok.mpr ⟨_, one, rfl⟩
  rw [ofDirectory_eq, files, folded]
  exact ⟨_, rfl, rfl, by decide +kernel⟩

end Document
end ApiModels
