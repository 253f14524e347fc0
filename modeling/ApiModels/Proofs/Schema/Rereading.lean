import ApiModels.Proofs.Json.Decoding
import ApiModels.Schema.Encode

namespace ApiModels

open Json

theorem TypeDecl.reread (t : TypeDecl) : TypeDecl.decode t.toValue = .ok t := by
  cases t with
  | single => rfl
  | listed names =>
      have read : Decoder.strings (.array (names.map .string)) = .ok names := Decoder.strings_ofStrings names
      simp only [toValue, Value.ofStrings, decode, read]

theorem Xml.reread (x : Xml) : Xml.shape.decode x.toValue = .ok x := by
  obtain ⟨name, nsUri, nsPrefix, isAttribute, isWrapped⟩ := x
  cases name <;> cases nsUri <;> cases nsPrefix <;> cases isAttribute <;> cases isWrapped <;> rfl

theorem Keyword.ofKey?_key (k : Keyword) : Keyword.ofKey? k.key = some k := by
  cases k <;> rfl

namespace Schema

def readKey (r : Schema) (key : String) (value : Value) : Except DecodeError Schema :=
  match Keyword.ofKey? key with
  | some keyword => r.readKeyword keyword value
  | none => .ok { r with extra := r.extra.insert key value }

def Rereads (s : Schema) : Prop := decode s.toValue = .ok s

structure Regular (s : Schema) : Prop where
  named : (s.properties.map Prod.fst).Nodup
  properties : ∀ entry ∈ s.properties, entry.2.Rereads
  items : ∀ inner, s.items = some inner → inner.Rereads
  extras : ∀ inner, s.additionalProperties = some (.schema inner) → inner.Rereads
  allOf : ∀ members, s.allOf = some members → ∀ member ∈ members, member.Rereads
  oneOf : ∀ members, s.oneOf = some members → ∀ member ∈ members, member.Rereads
  anyOf : ∀ members, s.anyOf = some members → ∀ member ∈ members, member.Rereads
  documented : s.externalDocs ≠ some .null
  foreign : ∀ entry ∈ s.extra.entries, Keyword.ofKey? entry.1 = none

section Reading
variable {s r : Schema} {members : List Schema}

theorem readKeys_cons (key : String) (value : Value) (rest : List (String × Value)) :
    r.readKeys ((key, value) :: rest) = r.readKey key value >>= fun next => next.readKeys rest := by
  rw [readKeys, readKey]
  cases Keyword.ofKey? key <;> rfl

theorem readKeys_append (front back : List (String × Value)) :
    r.readKeys (front ++ back) = r.readKeys front >>= fun next => next.readKeys back := by
  induction front generalizing r with
  | nil => rw [List.nil_append, readKeys]; rfl
  | cons head rest ih =>
      obtain ⟨key, value⟩ := head
      simp only [List.cons_append, readKeys_cons, ih, bind_assoc]

theorem readKeys_keyword (k : Keyword) (value : Value) : r.readKeys [(k.key, value)] = r.readKeyword k value := by
  simp only [readKeys_cons, readKey, Keyword.ofKey?_key, readKeys]
  exact bind_pure _

theorem readKeys_foreign {entries : List (String × Value)}
    (foreign : ∀ entry ∈ entries, Keyword.ofKey? entry.1 = none) :
    r.readKeys entries = .ok { r with extra := r.extra.insertAll entries } := by
  induction entries generalizing r with
  | nil =>
      rw [readKeys]
      -- The record is recursive: rewriting one of its fields by itself gives it back only once it is taken apart.
      cases r
      rfl
  | cons head rest ih =>
      obtain ⟨first, later⟩ := List.forall_mem_cons.mp foreign
      rw [readKeys_cons, readKey, first]
      exact ih later

theorem Rereads.written (rereads : s.Rereads) :
    ∃ fields, s.toValue = .object fields ∧ blank.readKeys fields = .ok s := by
  unfold Rereads at rereads
  obtain ⟨⟩ := s
  rw [toValue] at rereads ⊢
  exact ⟨_, rfl, rereads⟩

theorem readOptional_toValue (rereads : s.Rereads) : readOptional s.toValue = .ok (some s) := by
  obtain ⟨fields, written, read⟩ := rereads.written
  rw [written, readOptional, read]
  rfl

theorem readExtras_toValue (rereads : s.Rereads) : readExtras s.toValue = .ok (some (.schema s)) := by
  obtain ⟨fields, written, read⟩ := rereads.written
  rw [written, readExtras, read]

theorem readItems_values (each : ∀ member ∈ members, member.Rereads) : readItems (values members) = .ok members := by
  induction members with
  | nil => rw [values, readItems]
  | cons first rest ih =>
      obtain ⟨rereads, later⟩ := List.forall_mem_cons.mp each
      obtain ⟨fields, written, read⟩ := rereads.written
      rw [values, written, readItems, read, ih later]
      rfl

theorem readNamed_namedValues {front entries : List (String × Schema)}
    (distinct : ((front ++ entries).map Prod.fst).Nodup) (each : ∀ entry ∈ entries, entry.2.Rereads) :
    readNamed front (namedValues entries) = .ok (front ++ entries) := by
  induction entries generalizing front with
  | nil => rw [namedValues, readNamed, List.append_nil]
  | cons head rest ih =>
      obtain ⟨rereads, later⟩ := List.forall_mem_cons.mp each
      obtain ⟨fields, written, read⟩ := rereads.written
      have fresh := Entries.fresh_of_nodup distinct
      rw [List.append_cons] at distinct ⊢
      rw [namedValues, written, readNamed, read, ← ih distinct later, ← Entries.put_of_fresh fresh]
      rfl

end Reading

def filled? {α : Type} (items : List α) : Option (List α) := if items.isEmpty then none else some items

def extrasValue : Extras Schema → Value
  | .flag isOpen => .bool isOpen
  | .schema s => s.toValue

def written? (s : Schema) : Keyword → Option Value
  | .reference => s.reference.map .string
  | .type => s.type.map TypeDecl.toValue
  | .format => s.format.map .string
  | .title => s.title.map .string
  | .description => s.description.map .string
  | .enumValues => s.enumValues.map .array
  | .properties => (filled? s.properties).map fun properties => .object (namedValues properties)
  | .required => (filled? s.required).map Value.ofStrings
  | .nullable => s.nullable.map .bool
  | .readOnly => s.readOnly.map .bool
  | .items => s.items.map toValue
  | .additionalProperties => s.additionalProperties.map extrasValue
  | .uniqueItems => s.uniqueItems.map .bool
  | .allOf => s.allOf.map fun members => .array (values members)
  | .oneOf => s.oneOf.map fun arms => .array (values arms)
  | .anyOf => s.anyOf.map fun branches => .array (values branches)
  | .deprecated => s.deprecated.map .bool
  | .externalDocs => s.externalDocs
  | .xml => s.xml.map Xml.toValue

def overlaid (r s : Schema) : Keyword → Schema
  | .reference => { r with reference := s.reference.or r.reference }
  | .type => { r with type := s.type.or r.type }
  | .format => { r with format := s.format.or r.format }
  | .title => { r with title := s.title.or r.title }
  | .description => { r with description := s.description.or r.description }
  | .enumValues => { r with enumValues := s.enumValues.or r.enumValues }
  | .properties => { r with properties := (filled? s.properties).getD r.properties }
  | .required => { r with required := (filled? s.required).getD r.required }
  | .nullable => { r with nullable := s.nullable.or r.nullable }
  | .readOnly => { r with readOnly := s.readOnly.or r.readOnly }
  | .items => { r with items := s.items.or r.items }
  | .additionalProperties =>
      { r with additionalProperties := s.additionalProperties.or r.additionalProperties }
  | .uniqueItems => { r with uniqueItems := s.uniqueItems.or r.uniqueItems }
  | .allOf => { r with allOf := s.allOf.or r.allOf }
  | .oneOf => { r with oneOf := s.oneOf.or r.oneOf }
  | .anyOf => { r with anyOf := s.anyOf.or r.anyOf }
  | .deprecated => { r with deprecated := s.deprecated.or r.deprecated }
  | .externalDocs => { r with externalDocs := s.externalDocs.or r.externalDocs }
  | .xml => { r with xml := s.xml.or r.xml }

section Keywords
variable {s r : Schema} {k : Keyword}

theorem filled?_getD {α : Type} (items : List α) : (filled? items).getD [] = items := by
  cases items <;> rfl

theorem eq_of_filled? {α : Type} {items present : List α} (filled : filled? items = some present) : items = present := by
  rw [← filled?_getD items, filled]
  rfl

theorem optionalField_map {α : Type} (key : String) (write : α → Value) (field : Option α) :
    optionalField key id (field.map write) = optionalField key write field := by
  cases field <;> rfl

theorem propertiesField_eq (properties : List (String × Schema)) :
    propertiesField properties =
      optionalField Keyword.properties.key (fun present => .object (namedValues present)) (filled? properties) := by
  cases properties <;> rw [propertiesField] <;> rfl

theorem schemaField_eq (inner : Option Schema) : schemaField inner = optionalField Keyword.items.key toValue inner := by
  cases inner <;> rw [schemaField] <;> rfl

theorem extrasField_eq (extras : Option (Extras Schema)) :
    extrasField extras = optionalField Keyword.additionalProperties.key extrasValue extras := by
  rcases extras with _ | _ | _ <;> rw [extrasField] <;> rfl

theorem listField_eq (key : String) (members : Option (List Schema)) :
    listField key members = optionalField key (fun members => .array (values members)) members := by
  cases members <;> rw [listField] <;> rfl

theorem requiredField_eq (required : List String) :
    (if required.isEmpty then [] else [(Keyword.required.key, Value.ofStrings required)]) =
      optionalField Keyword.required.key Value.ofStrings (filled? required) := by
  cases required <;> rfl

theorem toValue_eq (s : Schema) :
    s.toValue = .object ((Keyword.all.flatMap fun k => optionalField k.key id (s.written? k)) ++ s.extra.entries) := by
  obtain ⟨⟩ := s
  rw [toValue, propertiesField_eq, requiredField_eq, schemaField_eq, extrasField_eq]
  simp [Keyword.all, written?, listField_eq, optionalField_map]

theorem foldl_overlaid (s : Schema) :
    Keyword.all.foldl (fun r k => r.overlaid s k) blank = { s with extra := SortedTable.empty } := by
  simp [Keyword.all, overlaid, blank, filled?_getD]

theorem overlaid_of_unwritten (unwritten : s.written? k = none) : r.overlaid s k = r := by
  cases k
  case externalDocs =>
    rw [overlaid, show s.externalDocs = none from unwritten]
    cases r
    rfl
  all_goals
    have absent := Option.map_eq_none_iff.mp unwritten
    rw [overlaid, absent]
    cases r
    rfl

theorem readKeyword_written (regular : s.Regular) {value : Value} (written : s.written? k = some value) :
    r.readKeyword k value = .ok (r.overlaid s k) := by
  cases k
  case externalDocs =>
    have present : s.externalDocs = some value := written
    have some : Decoder.present value = .ok (some value) :=
      Decoder.present_of_ne_null fun null => regular.documented (null ▸ present)
    rw [overlaid, present, readKeyword, some]
    rfl
  all_goals
    obtain ⟨a, present, rfl⟩ := Option.map_eq_some_iff.mp written
    rw [overlaid, present, readKeyword]
  case reference | format | title | description | nullable | readOnly | uniqueItems | deprecated => rfl
  case type =>
    rw [Decoder.optional_of_ok (by cases a <;> rintro ⟨⟩) a.reread]
    rfl
  case enumValues =>
    rw [Decoder.optional_of_ok (by rintro ⟨⟩) (Decoder.list_ok a)]
    rfl
  case properties =>
    have same := eq_of_filled? present
    rw [readProperties, readNamed_namedValues (same ▸ regular.named) (same ▸ regular.properties)]
    rfl
  case required =>
    rw [Decoder.strings_ofStrings]
    rfl
  case items =>
    rw [readOptional_toValue (regular.items a present)]
    rfl
  case additionalProperties =>
    cases a with
    | flag => rw [extrasValue, readExtras]; rfl
    | schema inner => rw [extrasValue, readExtras_toValue (regular.extras inner present)]; rfl
  case allOf =>
    rw [readOptionalList, readItems_values (regular.allOf a present)]
    rfl
  case oneOf =>
    rw [readOptionalList, readItems_values (regular.oneOf a present)]
    rfl
  case anyOf =>
    rw [readOptionalList, readItems_values (regular.anyOf a present)]
    rfl
  case xml =>
    rw [Decoder.optional_of_ok (by rintro ⟨⟩) a.reread]
    rfl

theorem readKeys_written (regular : s.Regular) (keywords : List Keyword) :
    r.readKeys (keywords.flatMap fun k => optionalField k.key id (s.written? k)) =
      .ok (keywords.foldl (fun r k => r.overlaid s k) r) := by
  induction keywords generalizing r with
  | nil => exact readKeys.eq_1 r
  | cons k rest ih =>
      have first : r.readKeys (optionalField k.key id (s.written? k)) = .ok (r.overlaid s k) := by
        cases written : s.written? k with
        | none => rw [overlaid_of_unwritten written]; exact readKeys.eq_1 r
        | some value => exact (readKeys_keyword k value).trans (readKeyword_written regular written)
      rw [List.flatMap_cons, readKeys_append, first]
      exact ih

theorem Regular.rereads (regular : s.Regular) : s.Rereads := by
  rw [Rereads, toValue_eq, decode, readKeys_append, readKeys_written regular, foldl_overlaid]
  refine (readKeys_foreign regular.foreign).trans ?_
  rw [show SortedTable.empty.insertAll s.extra.entries = s.extra from s.extra.ofList_entries]
  cases s
  rfl

end Keywords
section Decoding

theorem blank_regular : blank.Regular where
  named := List.nodup_nil
  properties := fun _ listed => absurd listed List.not_mem_nil
  items := nofun
  extras := nofun
  allOf := nofun
  oneOf := nofun
  anyOf := nofun
  documented := nofun
  foreign := fun _ listed => absurd listed List.not_mem_nil

theorem Regular.readForeign {s : Schema} {key : String} (regular : s.Regular) (foreign : Keyword.ofKey? key = none)
    (value : Value) : Regular { s with extra := s.extra.insert key value } := by
  refine { regular with foreign := fun entry listed => ?_ }
  rcases SortedTable.mem_insertInto_name key value _ entry listed with same | old
  · rwa [same]
  · exact regular.foreign entry old

-- Every schema below has been read, and so reads back; one theorem for each of the functions that read.
mutual
theorem readKeys_regular {s r : Schema} (regular : s.Regular) :
    (fields : List (String × Value)) → s.readKeys fields = .ok r → r.Regular
  | [], read => by
      rw [readKeys] at read
      exact Except.ok.inj read ▸ regular
  | (key, value) :: rest, read => by
      rw [readKeys_cons] at read
      obtain ⟨next, first, later⟩ := bind_eq_ok.mp read
      refine readKeys_regular ?_ rest later
      rw [readKey] at first
      cases keyword : Keyword.ofKey? key with
      | none =>
          rw [keyword] at first
          exact Except.ok.inj first ▸ regular.readForeign keyword value
      | some k =>
          rw [keyword] at first
          exact readKeyword_regular regular k value first
termination_by fields => (sizeOf fields, 0)

theorem readKeyword_regular {s r : Schema} (regular : s.Regular) (k : Keyword) (value : Value)
    (read : s.readKeyword k value = .ok r) : r.Regular := by
  cases k
  all_goals
    rw [readKeyword] at read
    obtain ⟨field, found, made⟩ := bind_eq_ok.mp read
    cases made
  case properties =>
    obtain ⟨named, properties⟩ := readProperties_rereads value found
    exact { regular with named, properties }
  case items => exact { regular with items := readOptional_rereads value found }
  case additionalProperties => exact { regular with extras := readExtras_rereads value found }
  case allOf => exact { regular with allOf := readOptionalList_rereads value found }
  case oneOf => exact { regular with oneOf := readOptionalList_rereads value found }
  case anyOf => exact { regular with anyOf := readOptionalList_rereads value found }
  case externalDocs => exact { regular with documented := Decoder.ne_null_of_present found }
  all_goals exact { regular with }
termination_by (sizeOf value, 1)

theorem readOptional_rereads {inner : Option Schema} (value : Value) (read : readOptional value = .ok inner) :
    ∀ s, inner = some s → s.Rereads := by
  cases value with
  | null =>
      rw [readOptional] at read
      cases read
      nofun
  | object fields =>
      rw [readOptional] at read
      obtain ⟨s, found, made⟩ := bind_eq_ok.mp read
      cases made
      exact fun _ same => Option.some.inj same ▸ (readKeys_regular blank_regular fields found).rereads
  | bool | number | string | array =>
      rw [readOptional] at read
      · cases read
      all_goals nofun
termination_by (sizeOf value, 0)

theorem readExtras_rereads {extras : Option (Extras Schema)} (value : Value) (read : readExtras value = .ok extras) :
    ∀ s, extras = some (.schema s) → s.Rereads := by
  cases value with
  | null | bool =>
      rw [readExtras] at read
      cases read
      nofun
  | object fields =>
      rw [readExtras] at read
      cases inside : blank.readKeys fields with
      | error => rw [inside] at read; cases read
      | ok s =>
          rw [inside] at read
          cases read
          exact fun _ same => by cases same; exact (readKeys_regular blank_regular fields inside).rereads
  | number | string | array =>
      rw [readExtras] at read
      · cases read
      all_goals nofun
termination_by (sizeOf value, 0)

theorem readOptionalList_rereads {members : Option (List Schema)} (value : Value)
    (read : readOptionalList value = .ok members) : ∀ each, members = some each → ∀ s ∈ each, s.Rereads := by
  cases value with
  | null =>
      rw [readOptionalList] at read
      cases read
      nofun
  | array items =>
      rw [readOptionalList] at read
      obtain ⟨each, found, made⟩ := bind_eq_ok.mp read
      cases made
      exact fun _ same => Option.some.inj same ▸ readItems_rereads items found
  | bool | number | string | object =>
      rw [readOptionalList] at read
      · cases read
      all_goals nofun
termination_by (sizeOf value, 0)

theorem readItems_rereads {members : List Schema} :
    (items : List Value) → readItems items = .ok members → ∀ s ∈ members, s.Rereads
  | [], read => by
      rw [readItems] at read
      cases read
      exact fun _ listed => absurd listed List.not_mem_nil
  | .object fields :: rest, read => by
      rw [readItems] at read
      obtain ⟨head, first, read⟩ := bind_eq_ok.mp read
      obtain ⟨later, others, made⟩ := bind_eq_ok.mp read
      cases made
      exact List.forall_mem_cons.mpr
        ⟨(readKeys_regular blank_regular fields first).rereads, readItems_rereads rest others⟩
  | .null :: _, read | .bool _ :: _, read | .number _ :: _, read | .string _ :: _, read | .array _ :: _, read => by
      rw [readItems] at read
      · cases read
      all_goals nofun
termination_by items => (sizeOf items, 0)

theorem readProperties_rereads {properties : List (String × Schema)} (value : Value)
    (read : readProperties value = .ok properties) :
    (properties.map Prod.fst).Nodup ∧ ∀ entry ∈ properties, entry.2.Rereads := by
  cases value with
  | object fields =>
      rw [readProperties] at read
      have distinct : (([] : List (String × Schema)).map Prod.fst).Nodup := List.nodup_nil
      exact readNamed_rereads distinct (fun _ listed => absurd listed List.not_mem_nil) fields read
  | null | bool | number | string | array =>
      rw [readProperties] at read
      · cases read
      all_goals nofun
termination_by (sizeOf value, 0)

theorem readNamed_rereads {named properties : List (String × Schema)} (distinct : (named.map Prod.fst).Nodup)
    (each : ∀ entry ∈ named, entry.2.Rereads) :
    (fields : List (String × Value)) → readNamed named fields = .ok properties →
      (properties.map Prod.fst).Nodup ∧ ∀ entry ∈ properties, entry.2.Rereads
  | [], read => by
      rw [readNamed] at read
      cases read
      exact ⟨distinct, each⟩
  | (key, .object fields) :: rest, read => by
      rw [readNamed] at read
      obtain ⟨s, first, read⟩ := bind_eq_ok.mp read
      have rereads : s.Rereads := (readKeys_regular blank_regular fields first).rereads
      exact readNamed_rereads (Entries.put_nodup key s named distinct) (Entries.put_forall each rereads) rest read
  | (_, .null) :: _, read | (_, .bool _) :: _, read | (_, .number _) :: _, read | (_, .string _) :: _, read
  | (_, .array _) :: _, read => by
      rw [readNamed] at read
      · cases read
      all_goals nofun
termination_by fields => (sizeOf fields, 0)
end

theorem rereads_of_decode {value : Value} {s : Schema} (read : decode value = .ok s) : s.Rereads := by
  cases value with
  | object fields => exact (readKeys_regular blank_regular fields read).rereads
  | null | bool | number | string | array => cases read

end Decoding
end Schema
end ApiModels
