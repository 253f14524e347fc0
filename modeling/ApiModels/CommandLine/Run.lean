import ApiModels.CommandLine.Arguments
import ApiModels.Files.Load
import ApiModels.Report.Basic
import ApiModels.Settings.Layers
import ApiModels.Toml.Writer

namespace ApiModels

open Json

inductive CommandError where
  | settings
  | load (cause : LoadError)
  | alreadyExists (path : String)
  | create (path : String) (cause : FileError)
  | write (path : String) (cause : FileError)
  deriving DecidableEq

def CommandError.message : CommandError → String
  | .settings => "Failed to load configuration"
  | .load cause => cause.message
  | .alreadyExists path => path ++ " already exists (use --force to overwrite)"
  | .create path cause => "Failed to create " ++ path ++ ": " ++ cause.message
  | .write path cause => "Failed to write " ++ path ++ ": " ++ cause.message

structure Outcome where
  code : Nat := 0
  output : String := ""
  messages : String := ""
  files : FileTree

namespace Outcome

def print (outcome : Outcome) (text : String) : Outcome := { outcome with output := outcome.output ++ text }

def tell (outcome : Outcome) (line : String) : Outcome :=
  { outcome with messages := outcome.messages ++ line ++ "\n" }

def failWith (outcome : Outcome) (error : CommandError) : Outcome :=
  { outcome.tell ("❌ Error: " ++ error.message) with code := 1 }

def andThen (outcome : Outcome) (next : Outcome → Except CommandError Outcome) : Outcome :=
  match next outcome with
  | .ok done => done
  | .error error => outcome.failWith error

def prepare (files : FileTree) (path : String) : Except CommandError FileTree :=
  match PathName.parent? path with
  | none => .ok files
  | some directory => (files.makeDirectories directory).mapError (.create directory)

def emit (format : OutputFormat) (target : Option String) (value : Value) (outcome : Outcome) :
    Except CommandError Outcome :=
  match target with
  | none => .ok (outcome.print (format.render value ++ "\n"))
  | some path => do
      let prepared ← prepare outcome.files path
      let files ← (prepared.write path (Sha256.textBytes (format.render value))).mapError (.write path)
      return { outcome with files }.tell ("✅ Wrote " ++ path)

end Outcome

namespace Command

def summary (report : Report) : String :=
  "📊 " ++ Nat.repr report.models.length ++ " models, " ++ Nat.repr report.failures.length ++ " failures, "
    ++ Nat.repr report.operations.length ++ " operations, " ++ Nat.repr report.diagnostics.items.length
    ++ " diagnostics"

-- Errors end a check with a failure; so do warnings if it is strict.
def verdict (strict : Bool) (d : Diagnostics) (outcome : Outcome) : Outcome :=
  if d.hasErrors || (strict && !d.warnings.isEmpty) then { outcome.tell ("❌ " ++ d.tally) with code := 1 }
  else outcome.tell ("✅ " ++ Nat.repr d.warnings.length ++ " warning(s), no errors")

def loadProject (settings : EngineSettings) (files : FileTree) (input : String) : Except CommandError Project :=
  ((Document.load files settings.input input).map (Project.of settings.generator)).mapError .load

def target? (settings : EngineSettings) : Command → Option String
  | .models _ output => output.or settings.output.path
  | .writeSettings path _ => some path
  | _ => none

def writeDefaults (path : String) (force : Bool) (outcome : Outcome) : Except CommandError Outcome :=
  if outcome.files.pathExists path && !force then .error (.alreadyExists path)
  else do
    let text := Toml.write EngineSettings.defaults.toValue
    let files ← (outcome.files.write path (Sha256.textBytes text)).mapError (.write path)
    return { outcome with files }.tell ("✅ Wrote default configuration to " ++ path)

def perform (settings : EngineSettings) (now : String) (outcome : Outcome) : Command → Except CommandError Outcome
  | .models input output => do
      let report := (← loadProject settings outcome.files input).run
      return (outcome.tell (summary report)).andThen
        (Outcome.emit settings.output.format (target? settings (.models input output)) (report.toValue now))
  | .aliases input => do
      let project ← loadProject settings outcome.files input
      outcome.emit settings.output.format none (Report.aliasesValue project.aliases)
  | .diagnostics input strict text => do
      let report := (← loadProject settings outcome.files input).run
      let printed := if text then outcome.print report.diagnostics.text
        else outcome.print (settings.output.format.render report.diagnostics.itemsValue ++ "\n")
      return verdict strict report.diagnostics printed
  | .showSettings => .ok (outcome.print (Toml.write settings.toValue))
  | .writeSettings path force => writeDefaults path force outcome

end Command

namespace Invocation

def effective (invocation : Invocation) (settings : EngineSettings) : EngineSettings :=
  if invocation.compact then { settings with output := { settings.output with format := .compact } } else settings

def settingsPaths (invocation : Invocation) : List String :=
  (Settings.sources invocation.settingsPath).flatMap fun source => Settings.spellings source.1

def input? (invocation : Invocation) : Option String :=
  match invocation.command with
  | .models input _ => some input
  | .aliases input => some input
  | .diagnostics input .. => some input
  | _ => none

def run (invocation : Invocation) (files : FileTree) (environment : List (String × String)) (now : String) :
    Outcome :=
  let start : Outcome := { files }
  match Settings.load? files environment invocation.settingsPath with
  | none => start.failWith .settings
  | some settings => start.andThen fun outcome => invocation.command.perform (invocation.effective settings) now outcome

end Invocation
end ApiModels
