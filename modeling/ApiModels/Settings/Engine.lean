import ApiModels.Schema.Encode
import ApiModels.Settings.Generator

namespace ApiModels

open Json

inductive OutputFormat where
  | pretty | compact
  deriving DecidableEq

def OutputFormat.text : OutputFormat → String
  | .pretty => "pretty"
  | .compact => "compact"

def OutputFormat.variants : List (String × OutputFormat) := [("pretty", .pretty), ("compact", .compact)]

def OutputFormat.render : OutputFormat → Value → String
  | .pretty, value => value.pretty
  | .compact, value => value.compact

structure InputSettings where
  skipPrefixes : List String
  includePrefixes : List String
  deriving DecidableEq

structure OutputSettings where
  format : OutputFormat
  path : Option String
  deriving DecidableEq

structure EngineSettings where
  generator : GeneratorSettings
  input : InputSettings
  output : OutputSettings

def InputSettings.defaults : InputSettings := ⟨["target/", ".git/", "node_modules/"], []⟩

def OutputSettings.defaults : OutputSettings := ⟨.pretty, none⟩

def EngineSettings.defaults : EngineSettings :=
  ⟨GeneratorSettings.defaults, InputSettings.defaults, OutputSettings.defaults⟩

instance : Inhabited EngineSettings := ⟨EngineSettings.defaults⟩

-- Where the case of a name does not matter, the variants are in lower case and what stands under
-- a name is not looked at.
def Scalars.alternative {α : Type} (scalars : Scalars) (variants : List (String × α)) : Decoder α :=
  if scalars.lenient then fun
    | .string name => Decoder.alternative variants (.string (Text.lowercase name))
    | .object [(name, _)] => Decoder.alternative variants (.string (Text.lowercase name))
    | value => Decoder.alternative variants value
  else Decoder.alternative variants

namespace InputSettings

def shape (scalars : Scalars) : Shape InputSettings where
  name := "InputConfig"
  initial := defaults
  fields := [
    .defaulted "skip_prefixes" (.list scalars.text) (fun i skipPrefixes => { i with skipPrefixes }),
    .defaulted "include_prefixes" (.list scalars.text) (fun i includePrefixes => { i with includePrefixes })]

def toValue (i : InputSettings) : Value :=
  .object [("skip_prefixes", Value.ofStrings i.skipPrefixes),
    ("include_prefixes", Value.ofStrings i.includePrefixes)]

end InputSettings

namespace OutputSettings

def shape (scalars : Scalars) : Shape OutputSettings where
  name := "OutputConfig"
  initial := defaults
  fields := [
    .defaulted "format" (scalars.alternative OutputFormat.variants) (fun o format => { o with format }),
    .defaulted "path" (Decoder.optional scalars.path) (fun o path => { o with path })]

def toValue (o : OutputSettings) : Value :=
  .object (("format", .string o.format.text) :: optionalField "path" .string o.path)

end OutputSettings

namespace EngineSettings

def shape (scalars : Scalars) : Shape EngineSettings where
  name := "EngineConfig"
  initial := defaults
  fields := [
    .defaulted "generator" (scalars.record (GeneratorSettings.shape scalars)) (fun e generator => { e with generator }),
    .defaulted "input" (scalars.record (InputSettings.shape scalars)) (fun e input => { e with input }),
    .defaulted "output" (scalars.record (OutputSettings.shape scalars)) (fun e output => { e with output })]

def toValue (e : EngineSettings) : Value :=
  .object [("generator", e.generator.toValue), ("input", e.input.toValue), ("output", e.output.toValue)]

end EngineSettings
end ApiModels
