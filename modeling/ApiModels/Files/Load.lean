import ApiModels.Document.Parse
import ApiModels.Files.Tree
import ApiModels.Json.Reader
import ApiModels.Settings.Engine

namespace ApiModels

open Json

-- Leaves out every occurrence of a pattern; `skip` counts the characters of the present one
-- that are still to be passed over.
def removeAll (pattern : List Char) : Nat → List Char → List Char
  | _, [] => []
  | skip + 1, _ :: rest => removeAll pattern skip rest
  | 0, c :: rest =>
      if pattern.isPrefixOf (c :: rest) then removeAll pattern (pattern.length - 1) rest
      else c :: removeAll pattern 0 rest

def standaloneName (value : Value) (fileName : String) : String :=
  match (value.field? "title").bind Value.asString? with
  | some title => title
  | none => String.ofList (removeAll ".schema".toList 0 (PathName.stem fileName).toList)

namespace InputSettings

def admits (settings : InputSettings) (relative : String) : Bool :=
  (settings.includePrefixes.isEmpty || settings.includePrefixes.any (relative.startsWith ·))
    && !settings.skipPrefixes.any (relative.startsWith ·)

end InputSettings

structure Gathered where
  schemas : SchemaTable := Table.empty
  contents : List UInt8 := []

namespace Document

def readJson (path : String) (bytes : List UInt8) : Except LoadError Value := do
  let text ← (FileTree.textOf bytes).mapError fun error => .unreadable path error.message
  match Json.read? text with
  | some value => .ok value
  | none => .error (.notJson path)

-- Of two files that give the same name the first is kept; the second must still be valid.
def gather (path : String) (fileName : String) (gathered : Gathered) (bytes : List UInt8) :
    Except LoadError Gathered := do
  let value ← readJson path bytes
  let s ← (Schema.decode value).mapError (.invalidSchema path)
  let name := standaloneName value fileName
  let schemas := if gathered.schemas.contains name then gathered.schemas else gathered.schemas.put name s
  return { schemas, contents := gathered.contents ++ bytes }

def isSchemaFile (names : List String) : Bool := PathName.extension? (names.getLastD "") = some "json"

def ofDirectory (tree : FileTree) (settings : InputSettings) (path : String) : Except LoadError Document := do
  let files := (tree.filesBelow path).filter fun file =>
    isSchemaFile file.1 && settings.admits (String.intercalate "/" file.1)
  let gathered ← files.foldlM (fun gathered (names, bytes) =>
    gather (PathName.child path names) (names.getLastD "") gathered bytes) ({} : Gathered)
  return (ofSchemas gathered.schemas).withSource (Sha256.digest gathered.contents)

def ofFile (tree : FileTree) (path : String) : Except LoadError Document := do
  let bytes ← (tree.fileBytes path).mapError fun error => .unreadable path error.message
  let value ← readJson path bytes
  let document ←
    if isApiDocument value then parse value
    else
      let s ← (Schema.decode value).mapError (.invalidSchema path)
      pure (ofSchemas (Table.empty.put (standaloneName value ((PathName.fileName? path).getD "")) s))
  return document.withSource bytes

def load (tree : FileTree) (settings : InputSettings) (path : String) : Except LoadError Document :=
  if tree.isDirectory path then ofDirectory tree settings path else ofFile tree path

end Document
end ApiModels
