import ApiModels.Naming.Words
import ApiModels.Text.Case
import ApiModels.Table.Sorted

namespace ApiModels

structure NamingRules where
  modelPrefix : String
  modelSuffix : String
  reservedWords : NameSet
  defaultApiName : String
  apiSuffix : String
  deriving DecidableEq

namespace NamingRules
open Naming

def defaultReservedWords : List String :=
  ["abstract", "assert", "boolean", "break", "byte", "case", "catch", "char", "class",
   "const", "continue", "default", "do", "double", "else", "enum", "extends", "final",
   "finally", "float", "for", "goto", "if", "implements", "import", "instanceof", "int",
   "interface", "long", "native", "new", "package", "private", "protected", "public",
   "return", "short", "static", "strictfp", "super", "switch", "synchronized", "this",
   "throw", "throws", "transient", "try", "void", "volatile", "while",
   "true", "false", "null", "object", "list", "file", "localdate", "localdatetime"]

def defaults : NamingRules where
  modelPrefix := ""
  modelSuffix := ""
  reservedWords := NameSet.ofList defaultReservedWords
  defaultApiName := "DefaultController"
  apiSuffix := "Handler"

instance : Inhabited NamingRules := ⟨defaults⟩

def isReserved (rules : NamingRules) (word : String) : Bool :=
  Text.lowercase word ∈ rules.reservedWords

def decorated (rules : NamingRules) (word : String) : String :=
  let withPrefix := if rules.modelPrefix.isEmpty then word else rules.modelPrefix ++ "_" ++ word
  if rules.modelSuffix.isEmpty then withPrefix else withPrefix ++ "_" ++ rules.modelSuffix

def modelName (rules : NamingRules) (name : String) : String :=
  let camelized := camelize (rules.decorated (sanitize name))
  if rules.isReserved camelized || startsWithDigit camelized then "Model" ++ camelized else camelized

def modelFilename (rules : NamingRules) (name : String) : String := rules.modelName name

def isConstantChar (c : Char) : Bool := ('A' ≤ c && c ≤ 'Z') || isDigit c || c = '_'

-- Variable name; constants stay as written.
def varName (rules : NamingRules) (name : String) : String :=
  let sanitized := sanitize name
  if !sanitized.isEmpty && sanitized.toList.all isConstantChar then sanitized
  else
    let var := camelizeLower sanitized
    if rules.isReserved var || startsWithDigit var then "_" ++ var else var

def apiName (rules : NamingRules) (tag : String) : String :=
  if tag.isEmpty then rules.defaultApiName
  else camelize (String.ofList (underscoreRuns isAlphanumeric false tag.toList)) ++ rules.apiSuffix

def apiFilename (rules : NamingRules) (tag : String) : String :=
  if tag.isEmpty then rules.defaultApiName else camelize tag ++ rules.apiSuffix

end NamingRules
end ApiModels
