import ApiModels.Json.Value
import ApiModels.Toml.Quoted

namespace ApiModels.Toml

open Json

def scalar : Value → String
  | .bool true => "true"
  | .bool false => "false"
  | .string text => quotedText text
  | _ => ""

def array (items : List Value) : String :=
  match items with
  | [] => "[]"
  | [only] => "[" ++ scalar only ++ "]"
  | many => "[\n" ++ String.join (many.map fun item => "    " ++ scalar item ++ ",\n") ++ "]"

def plainLine : String × Value → Option String
  | (_, .object _) => none
  | (name, .array items) => some (key name ++ " = " ++ array items ++ "\n")
  | (name, value) => some (key name ++ " = " ++ scalar value ++ "\n")

def header (path : List String) : String := "[" ++ String.intercalate "." (path.map key) ++ "]\n"

-- A table that holds only tables has no header; an empty one keeps it.
mutual
def sections (path : List String) : List (String × Value) → List String
  | fields =>
      let plain := fields.filterMap plainLine
      let own := String.join plain
      let first :=
        if path.isEmpty then (if plain.isEmpty then [] else [own])
        else if plain.isEmpty && !fields.isEmpty then []
        else [header path ++ own]
      first ++ subsections path fields

def subsections (path : List String) : List (String × Value) → List String
  | [] => []
  | (name, .object fields) :: rest => sections (path ++ [name]) fields ++ subsections path rest
  | _ :: rest => subsections path rest
end

def write : Value → String
  | .object fields => String.intercalate "\n" (sections [] fields)
  | _ => ""

end ApiModels.Toml
