import ApiModels.CommandLine.Run
import Std.Time.Format

namespace ApiModels.Program

def usage : String :=
  "Usage: oas-models [-c FILE] [--compact] COMMAND\n\n"
    ++ "  models INPUT [-o FILE]\n"
    ++ "  aliases INPUT\n"
    ++ "  diagnostics INPUT [--strict] [--text]\n"
    ++ "  config show\n"
    ++ "  config init [PATH] [--force]"

def isDirectoryAt (path : String) : IO Bool := do
  match ← (IO.FS.realPath path).toBaseIO with
  | .ok real => real.isDir
  | .error _ => return false

def node? (path : String) : IO (Option FileNode) := do
  if ← isDirectoryAt path then return some .directory
  match ← (IO.FS.readBinFile path).toBaseIO with
  | .ok bytes => return some (.file bytes.toList)
  | .error _ => return none

def namesIn (path : String) : IO (List String) := do
  match ← (IO.FS.realPath path).toBaseIO with
  | .ok real => return (← real.readDir).toList.map (·.fileName)
  | .error _ => return []

def see (tree : FileTree) (path : String) : IO FileTree := do
  match ← node? path with
  | some node => return tree.set (PathName.place path) node
  | none => return tree

def seeWay (tree : FileTree) (path : String) : IO FileTree := do
  let steps := PathName.steps path
  (List.range steps.length).foldlM (fun tree count => see tree (PathName.ofPlace (steps.take (count + 1)))) tree

partial def seeBelow (tree : FileTree) (path : String) : IO FileTree := do
  let tree ← see tree path
  if ← isDirectoryAt path then
    (← namesIn path).foldlM (fun tree name => seeBelow tree (PathName.child path [name])) tree
  else return tree

def environment : IO (List (String × String)) := do
  match ← (IO.FS.readBinFile "/proc/self/environ").toBaseIO with
  | .ok bytes => return ((FileTree.textOf bytes.toList).toOption.map Settings.variablesOf).getD []
  | .error _ => return []

-- The files that a command can tell from absent ones.
def surroundings (invocation : Invocation) (environment : List (String × String)) : IO FileTree := do
  let settingsFiles ← invocation.settingsPaths.foldlM seeWay {}
  let read ← invocation.input?.toList.foldlM seeBelow settingsFiles
  match Settings.load? settingsFiles environment invocation.settingsPath with
  | some settings => (invocation.command.target? settings).toList.foldlM seeWay read
  | none => return read

def writeNode (entry : List String × FileNode) : IO Unit :=
  let path := PathName.ofPlace entry.1
  match entry.2 with
  | .directory => IO.FS.createDirAll path
  | .file bytes => IO.FS.writeBinFile path ⟨bytes.toArray⟩

def now : IO String := do
  let time := Std.Time.DateTime.ofTimestamp (← Std.Time.Timestamp.now) Std.Time.TimeZone.ZoneRules.UTC
  return time.format "uuuu-MM-dd'T'HH:mm:ss.SSSSSSSSS'Z'"

def perform (invocation : Invocation) : IO UInt32 := do
  let environment ← environment
  let before ← surroundings invocation environment
  let outcome := invocation.run before environment (← now)
  (outcome.files.nodes.filter (· ∉ before.nodes)).forM writeNode
  IO.print outcome.output
  IO.eprint outcome.messages
  return outcome.code.toUInt32

end ApiModels.Program

def main (arguments : List String) : IO UInt32 := do
  match ApiModels.Invocation.parse? arguments with
  | some invocation => ApiModels.Program.perform invocation
  | none =>
      IO.eprintln ApiModels.Program.usage
      return 2
