import ApiModels.Files.Tree
import ApiModels.Settings.Engine
import ApiModels.Settings.Path
import ApiModels.Toml.Reader

namespace ApiModels

open Json

namespace Settings

def locations : List String := ["oas-models.toml", ".oas-models.toml", "config/oas-models.toml"]

def extension : String := "toml"

def environmentMark : String := "oas_models__"

def lay? (below : Value) (settings : List (String × Value)) : Option Value :=
  settings.foldlM (fun there (key, value) => put? value (pathOf key) there) below

def ofText (text : String) : Value :=
  let lowered := Text.lowercase text
  if lowered = "true" then .bool true
  else if lowered = "false" then .bool false
  else match Nearest.integer? text.toList with
    | some n => .number (.integer n)
    | none => match Nearest.real? text.toList with
        | some number => .number number
        | none => .string text

-- `OAS_MODELS__OUTPUT__FORMAT` sets `format` in `output`.
def ofVariable (entry : String × String) : Option (String × Value) :=
  let lowered := Text.lowercase entry.1
  if lowered.startsWith environmentMark then
    some (String.intercalate "." ((lowered.drop environmentMark.length).copy.splitOn "__"), ofText entry.2)
  else none

def variablesOf (text : String) : List (String × String) :=
  (text.splitOn "\x00").filterMap fun entry =>
    match entry.splitOn "=" with
    | name :: value :: rest => some (name, String.intercalate "=" (value :: rest))
    | _ => none

inductive FileLayer where
  | absent
  | invalid
  | fields (fields : List (String × Value))

def spellings (name : String) : List String := name :: (PathName.withExtension? name extension).toList

def fileLayer (tree : FileTree) (name : String) : FileLayer :=
  match (spellings name).find? tree.isFile with
  | none => .absent
  | some path =>
      if (PathName.fileName? path).bind PathName.extension? ≠ some extension then .invalid
      else match tree.readText path with
        | .error _ => .absent
        | .ok text => match Toml.read? text with
            | some fields => .fields fields
            | none => .invalid

def sources (asked : Option String) : List (String × Bool) :=
  locations.map (·, false) ++ (asked.map (·, true)).toList

def layFile (tree : FileTree) (below : Value) (source : String × Bool) : Option Value :=
  match fileLayer tree source.1 with
  | .absent => if source.2 then none else some below
  | .invalid => none
  | .fields fields => lay? below fields

def load? (tree : FileTree) (environment : List (String × String)) (asked : Option String) :
    Option EngineSettings := do
  let files ← (sources asked).foldlM (layFile tree) (.object [])
  let merged ← lay? files (environment.filterMap ofVariable)
  (Scalars.loose.record (EngineSettings.shape Scalars.loose) merged).toOption

end Settings
end ApiModels
