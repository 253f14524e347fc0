import ApiModels.Json.Value
import ApiModels.Table.Ordered

namespace ApiModels.Toml

open Json

inductive Origin where
  | header
  | passed
  | dotted
  deriving DecidableEq

-- Of a list of tables the last one is still open.
inductive Item where
  | value (value : Value)
  | table (origin : Origin) (fields : List (String × Item))
  | tables (closed : List Value) (last : List (String × Item))

abbrev Fields := List (String × Item)

mutual
def Item.close : Item → Value
  | .value value => value
  | .table _ fields => .object (closeFields fields)
  | .tables closed last => .array (closed ++ [.object (closeFields last)])

def closeFields : Fields → List (String × Value)
  | [] => []
  | (key, item) :: rest => (key, item.close) :: closeFields rest
end

namespace Fields

-- Puts a value at the end of a dotted key. A new key goes into the table at hand (`open` tells
-- whether it may), never over an old one.
def insert (value : Value) (key : String) : List String → Bool → Fields → Option Fields
  | [], isOpen, fields =>
      if isOpen && (Entries.find? key fields).isNone then some (Entries.put key (.value value) fields) else none
  | name :: path, _, fields =>
      match Entries.find? name fields with
      | none => (insert value key path true []).map fun inner => Entries.put name (.table .dotted inner) fields
      | some (.table .header _) => none
      | some (.table origin inner) =>
          (insert value key path (origin = .dotted) inner).map fun inner =>
            Entries.put name (.table origin inner) fields
      | some (.tables closed last) =>
          (insert value key path false last).map fun last => Entries.put name (.tables closed last) fields
      | some (.value _) => none

def follow (change : Option Item → Option Item) : List String → Fields → Option Fields
  | [], _ => none
  | [name], fields => (change (Entries.find? name fields)).map fun item => Entries.put name item fields
  | name :: path, fields =>
      match Entries.find? name fields with
      | none => (follow change path []).map fun inner => Entries.put name (.table .passed inner) fields
      | some (.table origin inner) =>
          (follow change path inner).map fun inner => Entries.put name (.table origin inner) fields
      | some (.tables closed last) =>
          (follow change path last).map fun last => Entries.put name (.tables closed last) fields
      | some (.value _) => none

def openTable : Option Item → Option Item
  | none => some (.table .header [])
  | some (.table .passed fields) => some (.table .header fields)
  | some _ => none

def openElement : Option Item → Option Item
  | none => some (.tables [] [])
  | some (.tables closed last) => some (.tables (closed ++ [.object (closeFields last)]) [])
  | some _ => none

def within (change : Fields → Option Fields) (path : List String) (fields : Fields) : Option Fields :=
  if path.isEmpty then change fields
  else follow (fun
    | some (.table origin inner) => (change inner).map (.table origin)
    | some (.tables closed last) => (change last).map (.tables closed)
    | _ => none) path fields

end Fields
end ApiModels.Toml
