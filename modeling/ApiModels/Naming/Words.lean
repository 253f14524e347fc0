namespace ApiModels.Text

def blankRanges : List (Nat × Nat) :=
  [(0x9, 0xD), (0x20, 0x20), (0x85, 0x85), (0xA0, 0xA0), (0x1680, 0x1680), (0x2000, 0x200A),
   (0x2028, 0x2029), (0x202F, 0x202F), (0x205F, 0x205F), (0x3000, 0x3000)]

def isBlank (c : Char) : Bool := blankRanges.any (fun range => range.1 ≤ c.toNat && c.toNat ≤ range.2)

def trimBoth (drop : Char → Bool) (chars : List Char) : List Char :=
  (((chars.dropWhile drop).reverse).dropWhile drop).reverse

end ApiModels.Text

namespace ApiModels.Naming

def isLetter (c : Char) : Bool := ('A' ≤ c && c ≤ 'Z') || ('a' ≤ c && c ≤ 'z')

def isDigit (c : Char) : Bool := '0' ≤ c && c ≤ '9'

def isAlphanumeric (c : Char) : Bool := isLetter c || isDigit c

def isWordChar (c : Char) : Bool := isAlphanumeric c || c = '_'

-- `begins` tells that the next letter starts a part.
def camelChars (begins : Bool) : List Char → List Char
  | [] => []
  | c :: rest =>
      if isAlphanumeric c then (if begins then c.toUpper else c) :: camelChars false rest
      else camelChars true rest

def camelize (word : String) : String := String.ofList (camelChars true word.toList)

def lowerFirst : List Char → List Char
  | [] => []
  | c :: rest => c.toLower :: rest

def camelizeLower (word : String) : String := String.ofList (lowerFirst (camelChars true word.toList))

-- Replaces every run of characters that `keep` refuses by one underscore; `inRun` tells that
-- the underscore of the present run has been written.
def underscoreRuns (keep : Char → Bool) (inRun : Bool) : List Char → List Char
  | [] => []
  | c :: rest =>
      if keep c then c :: underscoreRuns keep false rest
      else if inRun then underscoreRuns keep true rest
      else '_' :: underscoreRuns keep true rest

def trimUnderscores (chars : List Char) : List Char :=
  ((chars.dropWhile (· = '_')).reverse.dropWhile (· = '_')).reverse

def sanitize (word : String) : String :=
  String.ofList (trimUnderscores (underscoreRuns isWordChar false word.toList))

def enumName (word : String) : String := sanitize (camelize word) ++ "Enum"

def operationId (word : String) : String := camelize (sanitize word)

def startsWithDigit (word : String) : Bool := word.toList.head?.any isDigit

def spaced (c : Char) : Char := if c = '\t' ∨ c = '\n' ∨ c = '\r' then ' ' else c

def replaceChar (plain : Char) (written : List Char) (chars : List Char) : List Char :=
  chars.flatMap fun c => if c = plain then written else [c]

-- Puts an underscore between the two characters of a mark.
def breakUp (first second : Char) : List Char → List Char
  | [] => []
  | [c] => [c]
  | c :: d :: rest =>
      if c = first ∧ d = second then c :: '_' :: d :: breakUp first second rest
      else c :: breakUp first second (d :: rest)

def escapeChars (chars : List Char) : List Char :=
  breakUp '/' '*' (breakUp '*' '/'
    (replaceChar '"' ['\\', '"'] (replaceChar '\\' ['\\', '\\'] (chars.map spaced))))

def escapeText (text : String) : String :=
  String.ofList (escapeChars (Text.trimBoth Text.isBlank text.toList))

end ApiModels.Naming
