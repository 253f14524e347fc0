import ApiModels.Table.Ordered

namespace ApiModels

inductive Command where
  | models (input : String) (output : Option String)
  | aliases (input : String)
  | diagnostics (input : String) (strict text : Bool)
  | showSettings
  | writeSettings (path : String) (force : Bool)
  deriving DecidableEq

structure Invocation where
  command : Command
  settingsPath : Option String
  compact : Bool
  deriving DecidableEq

namespace Invocation

def defaultSettingsPath : String := "oas-models.toml"

def valued : List (String × String) :=
  [("-c", "config"), ("--config", "config"), ("-o", "output"), ("--output", "output")]

def flags : List String := ["--compact", "--strict", "--text", "--force"]

structure Sorted where
  values : List (String × String) := []
  flags : List String := []
  words : List String := []

def joined? (argument : String) : Option (String × String) :=
  valued.findSome? fun (spelling, option) =>
    let opening := if spelling.length = 2 then spelling else spelling ++ "="
    if argument.startsWith opening then
      let value := (argument.drop opening.length).copy
      some (option, if spelling.length = 2 && value.startsWith "=" then (value.drop 1).copy else value)
    else none

-- Behind `--` every argument is a word.
def sort : Sorted → List String → Option Sorted
  | sorted, [] => some sorted
  | sorted, "--" :: rest => some { sorted with words := sorted.words ++ rest }
  | sorted, argument :: rest =>
      if argument ∈ flags then sort { sorted with flags := sorted.flags ++ [argument] } rest
      else match Entries.find? argument valued with
        | some option => match rest with
            | value :: rest => sort { sorted with values := sorted.values ++ [(option, value)] } rest
            | [] => none
        | none => match joined? argument with
            | some found => sort { sorted with values := sorted.values ++ [found] } rest
            | none =>
                if argument.startsWith "-" && argument ≠ "-" then none
                else sort { sorted with words := sorted.words ++ [argument] } rest

-- Of an option that is given more than once the last value counts.
def Sorted.value? (sorted : Sorted) (option : String) : Option String :=
  ((sorted.values.filter (·.1 = option)).getLast?).map Prod.snd

def commandOf? (sorted : Sorted) : Option Command :=
  match sorted.words with
  | ["models", input] => some (.models input (sorted.value? "output"))
  | ["aliases", input] => some (.aliases input)
  | ["diagnostics", input] => some (.diagnostics input ("--strict" ∈ sorted.flags) ("--text" ∈ sorted.flags))
  | ["config", "show"] => some .showSettings
  | ["config", "init"] => some (.writeSettings defaultSettingsPath ("--force" ∈ sorted.flags))
  | ["config", "init", path] => some (.writeSettings path ("--force" ∈ sorted.flags))
  | _ => none

def parse? (arguments : List String) : Option Invocation := do
  let sorted ← sort {} arguments
  let command ← commandOf? sorted
  return { command, settingsPath := sorted.value? "config", compact := "--compact" ∈ sorted.flags }

end Invocation
end ApiModels
