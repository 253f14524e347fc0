namespace ApiModels

inductive ModelError where
  | unresolvedReference (schema reference : String)
  | cyclicReference (schema : String) (chain : List String)
  | cyclicInheritance (schema : String) (cycle : List String)
  | dependencyFailed (schema dependency : String)
  | invalidDocument (text : String)
  | io (text : String)
  | json (text : String)
  | config (text : String)
  deriving DecidableEq

namespace ModelError

def arrows (names : List String) : String := String.intercalate " -> " names

def message : ModelError → String
  | .unresolvedReference schema reference =>
      "Schema '" ++ schema ++ "' references '" ++ reference ++ "', which is not defined in the document"
  | .cyclicReference schema chain =>
      "Schema '" ++ schema ++ "' was requested again before it could be cached: " ++ arrows chain
  | .cyclicInheritance schema cycle =>
      "Schema '" ++ schema ++ "' is part of a cyclic allOf chain: " ++ arrows cycle
  | .dependencyFailed schema dependency =>
      "Schema '" ++ schema ++ "' depends on '" ++ dependency ++ "', which failed to resolve"
  | .invalidDocument text => "Invalid document: " ++ text
  | .io text => "IO error: " ++ text
  | .json text => "JSON error: " ++ text
  | .config text => "Configuration error: " ++ text

def schema? : ModelError → Option String
  | .unresolvedReference schema _ => some schema
  | .cyclicReference schema _ => some schema
  | .cyclicInheritance schema _ => some schema
  | .dependencyFailed schema _ => some schema
  | _ => none

end ModelError
end ApiModels
