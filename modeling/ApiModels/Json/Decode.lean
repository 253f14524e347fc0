import ApiModels.Json.Writer
import ApiModels.Table.Ordered
import ApiModels.Text.Hidden

namespace ApiModels.Json

inductive Found where
  | null
  | bool (value : Bool)
  | number (value : Number)
  | string (text : String)
  | sequence
  | map
  deriving DecidableEq

inductive DecodeError where
  | invalidType (found : Found) (wanted : String)
  | missingField (name : String)
  | unknownVariant (name : String) (known : List String)
  | noMatch (type : String)
  | invalidLength (length : Nat) (wanted : String)
  | notSingleKey
  deriving DecidableEq

namespace Found

def text : Found → String
  | .null => "null"
  | .bool true => "boolean `true`"
  | .bool false => "boolean `false`"
  | .number (.integer value) => "integer `" ++ Number.integerText value ++ "`"
  | .number value => "floating point `" ++ value.text ++ "`"
  | .string text => "string " ++ Text.shown text
  | .sequence => "sequence"
  | .map => "map"

end Found

def Value.found : Value → Found
  | .null => .null
  | .bool value => .bool value
  | .number value => .number value
  | .string text => .string text
  | .array _ => .sequence
  | .object _ => .map

namespace DecodeError

def choices : List String → String
  | [] => "there are no variants"
  | [only] => "expected `" ++ only ++ "`"
  | [first, second] => "expected `" ++ first ++ "` or `" ++ second ++ "`"
  | many => "expected one of " ++ String.intercalate ", " (many.map fun name => "`" ++ name ++ "`")

def message : DecodeError → String
  | .invalidType found wanted => "invalid type: " ++ found.text ++ ", expected " ++ wanted
  | .missingField name => "missing field `" ++ name ++ "`"
  | .unknownVariant name known => "unknown variant `" ++ name ++ "`, " ++ choices known
  | .noMatch type => "data did not match any variant of untagged enum " ++ type
  | .invalidLength length wanted => "invalid length " ++ Nat.repr length ++ ", expected " ++ wanted
  | .notSingleKey => "invalid value: map, expected map with a single key"

end DecodeError

abbrev Decoder (α : Type) := Value → Except DecodeError α

namespace Decoder

def mismatch {α : Type} (value : Value) (wanted : String) : Except DecodeError α :=
  .error (.invalidType value.found wanted)

def string (wanted : String := "a string") : Decoder String
  | .string text => .ok text
  | value => mismatch value wanted

def bool : Decoder Bool
  | .bool value => .ok value
  | value => mismatch value "a boolean"

def optional {α : Type} (read : Decoder α) : Decoder (Option α)
  | .null => .ok none
  | value => (read value).map some

def present : Decoder (Option Value)
  | .null => .ok none
  | value => .ok (some value)

def list {α : Type} (read : Decoder α) : Decoder (List α)
  | .array items => items.mapM read
  | value => mismatch value "a sequence"

def strings : Decoder (List String) := list string

def entries {α : Type} (read : Decoder α) : Decoder (List (String × α))
  | .object fields => fields.mapM fun (key, value) => (read value).map fun result => (key, result)
  | value => mismatch value "a map"

def table {α : Type} (read : Decoder α) : Decoder (Table α) :=
  fun value => (entries read value).map Table.ofEntries

def sortedTable {α : Type} (read : Decoder α) : Decoder (SortedTable α) :=
  fun value => (entries read value).map SortedTable.ofList

def nameSet (read : Decoder String) : Decoder NameSet := fun value => (list read value).map NameSet.ofList

def alternative {α : Type} (known : List (String × α)) : Decoder α
  | .string name => pick name .null
  | .object [(name, value)] => pick name value
  | .object _ => .error .notSingleKey
  | value => mismatch value "string or map"
where
  pick (name : String) (value : Value) : Except DecodeError α :=
    match Entries.find? name known, value with
    | none, _ => .error (.unknownVariant name (known.map Prod.fst))
    | some result, .null => .ok result
    | some _, value => mismatch value "unit"

end Decoder

-- One field of a record: its key, whether an object must have it, whether a list of field
-- values may end before it, and how its value enters the record.
structure RecordField (σ : Type) where
  key : String
  required : Bool
  mayBeCutOff : Bool
  read : σ → Value → Except DecodeError σ

namespace RecordField
variable {σ α : Type}

def mandatory (key : String) (read : Decoder α) (set : σ → α → σ) : RecordField σ :=
  ⟨key, true, false, fun record value => (read value).map (set record)⟩

def defaulted (key : String) (read : Decoder α) (set : σ → α → σ) : RecordField σ :=
  ⟨key, false, true, fun record value => (read value).map (set record)⟩

-- Absent means none in an object, but a list of field values has to reach it.
def nullable (key : String) (read : Decoder α) (set : σ → Option α → σ) : RecordField σ :=
  ⟨key, false, false, fun record value => (Decoder.optional read value).map (set record)⟩

end RecordField

-- A record is written as an object, or as the list of its field values in declaration order.
structure Shape (σ : Type) where
  name : String
  initial : σ
  fields : List (RecordField σ)

namespace Shape
variable {σ : Type}

def wanted (shape : Shape σ) : String := "struct " ++ shape.name

def ofObject (shape : Shape σ) (entries : List (String × Value)) : Except DecodeError σ := do
  let record ← entries.foldlM (fun record (key, value) =>
    match shape.fields.find? (·.key = key) with
    | some field => field.read record value
    | none => .ok record) shape.initial
  match shape.fields.find? (fun field => field.required && !entries.any (·.1 = field.key)) with
  | some field => .error (.missingField field.key)
  | none => .ok record

def ofItems (shape : Shape σ) (total : Nat) : List (RecordField σ) → List Value → Nat → σ → Except DecodeError σ
  | [], [], _, record => .ok record
  | [], _ :: _, _, _ => .error (.invalidLength total "fewer elements in array")
  | field :: fields, [], index, record =>
      if field.mayBeCutOff then ofItems shape total fields [] (index + 1) record
      else .error (.invalidLength index
        (shape.wanted ++ " with " ++ Nat.repr shape.fields.length ++ " elements"))
  | field :: fields, value :: values, index, record => do
      ofItems shape total fields values (index + 1) (← field.read record value)

def decode (shape : Shape σ) : Decoder σ
  | .object entries => shape.ofObject entries
  | .array items => shape.ofItems items.length shape.fields items 0 shape.initial
  | value => Decoder.mismatch value shape.wanted

end Shape
end ApiModels.Json
