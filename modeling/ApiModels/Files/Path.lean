namespace ApiModels.PathName

def rootName : String := "/"

-- What a walk along the path does, step by step. A single point stays, two points go up.
def steps (path : String) : List String :=
  let names := (path.splitOn "/").filter (· ≠ "")
  if path.startsWith "/" then rootName :: names else names

def endsOpen (path : String) : Bool := path.toList.getLast? = some '/'

def isMove (step : String) : Bool := step = "." || step = ".." || step = rootName

-- Where a step leads, from a place given by the names on the way to it. Above the start the way
-- begins with double points.
def enter (place : List String) (step : String) : List String :=
  if step = "." then place
  else if step = rootName then [rootName]
  else if step = ".." then match place.getLast? with
    | none => [".."]
    | some last => if last = ".." then place ++ [".."] else if last = rootName then place else place.dropLast
  else place ++ [step]

def place (path : String) : List String := (steps path).foldl enter []

def ofPlace : List String → String
  | [] => "."
  | name :: names =>
      if name = rootName then rootName ++ String.intercalate "/" names else String.intercalate "/" (name :: names)

def isAbove (place : List String) : Bool := place.all (· = "..") || place = [rootName]

def child (directory : String) (names : List String) : String :=
  let rest := String.intercalate "/" names
  if directory.isEmpty || endsOpen directory then directory ++ rest else directory ++ "/" ++ rest

def trimmed : List String → List String
  | [] => []
  | first :: rest => first :: (rest.reverse.dropWhile fun piece => piece = "" || piece = ".").reverse

def pieces (path : String) : List String := trimmed (path.splitOn "/")

def fileName? (path : String) : Option String :=
  ((pieces path).getLast?).filter fun piece => piece ≠ "" && piece ≠ "." && piece ≠ ".."

def parent? (path : String) : Option String :=
  match trimmed (pieces path).dropLast with
  | [] => none
  | [""] => some rootName
  | above => some (String.intercalate "/" above)

def withExtension? (path extension : String) : Option String :=
  (fileName? path).map fun _ => String.intercalate "/" (pieces path) ++ "." ++ extension

def lastDot? (name : List Char) : Option (List Char × List Char) :=
  let extension := name.reverse.takeWhile (· ≠ '.')
  let front := name.reverse.dropWhile (· ≠ '.')
  match front with
  | '.' :: stem => if stem.isEmpty then none else some (stem.reverse, extension.reverse)
  | _ => none

-- What stands behind the last point of a name; a point at the start of a name begins nothing.
def extension? (name : String) : Option String := (lastDot? name.toList).map fun parts => String.ofList parts.2

def stem (name : String) : String := ((lastDot? name.toList).map fun parts => String.ofList parts.1).getD name

end ApiModels.PathName
