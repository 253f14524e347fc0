import ApiModels.Files.Path

namespace ApiModels

inductive FileError where
  | notFound | notDirectory | isDirectory | alreadyExists | nameTooLong | nulByte | notText
  deriving DecidableEq

def FileError.message : FileError → String
  | .notFound => "No such file or directory (os error 2)"
  | .alreadyExists => "File exists (os error 17)"
  | .notDirectory => "Not a directory (os error 20)"
  | .isDirectory => "Is a directory (os error 21)"
  | .nameTooLong => "File name too long (os error 36)"
  | .nulByte => "file name contained an unexpected NUL byte"
  | .notText => "stream did not contain valid UTF-8"

inductive FileNode where
  | file (bytes : List UInt8)
  | directory
  deriving DecidableEq

-- Nodes by the names on the way to them. The start of every path and what is above it are
-- directories.
structure FileTree where
  nodes : List (List String × FileNode) := []

namespace FileTree

def nameLimit : Nat := 255
def pathLimit : Nat := 4095

def find? (tree : FileTree) (place : List String) : Option FileNode :=
  if PathName.isAbove place then some .directory else (tree.nodes.find? (·.1 = place)).map Prod.snd

def set (tree : FileTree) (place : List String) (node : FileNode) : FileTree :=
  ⟨tree.nodes.filter (·.1 ≠ place) ++ [(place, node)]⟩

def checkPath (path : String) : Except FileError Unit :=
  if path.toList.contains '\x00' then .error .nulByte
  else if path.isEmpty then .error .notFound
  else if pathLimit < path.utf8ByteSize then .error .nameTooLong
  else .ok ()

def checkDirectory (tree : FileTree) (place : List String) : Except FileError Unit :=
  match tree.find? place with
  | some .directory => .ok ()
  | some (.file _) => .error .notDirectory
  | none => .error .notFound

def enter (tree : FileTree) (place : List String) (step : String) : Except FileError (List String) := do
  tree.checkDirectory place
  if nameLimit < step.utf8ByteSize then .error .nameTooLong else .ok (PathName.enter place step)

def walk (tree : FileTree) (steps : List String) : Except FileError (List String) := steps.foldlM tree.enter []

def node (tree : FileTree) (path : String) : Except FileError FileNode := do
  checkPath path
  match tree.find? (← tree.walk (PathName.steps path)) with
  | none => .error .notFound
  | some .directory => .ok .directory
  | some (.file bytes) => if PathName.endsOpen path then .error .notDirectory else .ok (.file bytes)

def pathExists (tree : FileTree) (path : String) : Bool := (tree.node path).toOption.isSome

def isDirectory (tree : FileTree) (path : String) : Bool := (tree.node path).toOption = some .directory

def fileBytes (tree : FileTree) (path : String) : Except FileError (List UInt8) := do
  match ← tree.node path with
  | .file bytes => .ok bytes
  | .directory => .error .isDirectory

def isFile (tree : FileTree) (path : String) : Bool := (tree.fileBytes path).toOption.isSome

def textOf (bytes : List UInt8) : Except FileError String :=
  match String.fromUTF8? (ByteArray.mk bytes.toArray) with
  | some text => .ok text
  | none => .error .notText

def readText (tree : FileTree) (path : String) : Except FileError String :=
  (tree.fileBytes path).bind textOf

def target (tree : FileTree) (above : List String) (last : String) (atMove : FileError) :
    Except FileError (List String) := do
  let directory ← tree.walk above
  tree.checkDirectory directory
  if PathName.isMove last then .error atMove else tree.enter directory last

def makeDirectory (tree : FileTree) : List String → Except FileError FileTree
  | [] => .error .alreadyExists
  | last :: above => do
      let place ← tree.target above.reverse last .alreadyExists
      if (tree.find? place).isSome then .error .alreadyExists else .ok (tree.set place .directory)

def leadsToDirectory (tree : FileTree) (steps : List String) : Bool :=
  match tree.walk steps with
  | .ok place => tree.find? place = some .directory
  | .error _ => false

-- Makes a directory and, where it cannot stand alone, those above it; the last step comes first.
def makeAll (tree : FileTree) : List String → Except FileError FileTree
  | [] => .ok tree
  | last :: above =>
      match tree.makeDirectory (last :: above) with
      | .ok made => .ok made
      | .error .notFound => do
          let tree ← tree.makeAll above
          if tree.leadsToDirectory (last :: above).reverse then .ok tree else tree.makeDirectory (last :: above)
      | .error error => if tree.leadsToDirectory (last :: above).reverse then .ok tree else .error error

def makeDirectories (tree : FileTree) (path : String) : Except FileError FileTree := do
  checkPath path
  tree.makeAll ((PathName.steps path).filter (· ≠ ".")).reverse

def write (tree : FileTree) (path : String) (bytes : List UInt8) : Except FileError FileTree := do
  checkPath path
  let steps := PathName.steps path
  let last := if PathName.endsOpen path then "." else steps.getLastD "."
  let place ← tree.target steps.dropLast last .isDirectory
  if tree.find? place = some .directory then .error .isDirectory else .ok (tree.set place (.file bytes))

def filesBelow (tree : FileTree) (path : String) : List (List String × List UInt8) :=
  let place := PathName.place path
  let below := tree.nodes.filterMap fun (other, node) =>
    match node with
    | .file bytes => if place.isPrefixOf other then some (other.drop place.length, bytes) else none
    | .directory => none
  below.mergeSort fun a b => !(b.1 < a.1)

end FileTree
end ApiModels
