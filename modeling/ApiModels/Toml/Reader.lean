import ApiModels.Json.Nearest
import ApiModels.Json.Reader
import ApiModels.Toml.Quoted
import ApiModels.Toml.Tree

namespace ApiModels.Toml.Reader

open Json

abbrev Step (α : Type) := Option (α × List Char)

def isBlank (c : Char) : Bool := c = ' ' || c = '\t'

def skipBlanks (chars : List Char) : List Char := chars.dropWhile isBlank

def isPlain (c : Char) : Bool := !isControl c || c = '\t'

def lineEnd? : List Char → Option (List Char)
  | '\n' :: rest => some rest
  | '\r' :: '\n' :: rest => some rest
  | _ => none

def skipLines (inComment : Bool) : List Char → List Char
  | [] => []
  | '\n' :: rest => skipLines false rest
  | '\r' :: '\n' :: rest => skipLines false rest
  | c :: rest =>
      if inComment then (if isPlain c then skipLines true rest else c :: rest)
      else if isBlank c then skipLines false rest
      else if c = '#' then skipLines true rest
      else c :: rest

def endLine (chars : List Char) : Option (List Char) :=
  let rest := match skipBlanks chars with
    | '#' :: comment => comment.dropWhile isPlain
    | rest => rest
  if rest.isEmpty then some [] else lineEnd? rest

def hexValue? (digits : List Char) : Option Nat :=
  digits.foldlM (fun value c => (Json.Reader.hexDigit? c).map (value * 16 + ·)) 0

def isScalarValue (code : Nat) : Bool := code < 0xD800 || (0xDFFF < code && code < 0x110000)

def escape? : List Char → Step Char
  | 'b' :: rest => some ('\x08', rest)
  | 't' :: rest => some ('\t', rest)
  | 'n' :: rest => some ('\n', rest)
  | 'f' :: rest => some ('\x0c', rest)
  | 'r' :: rest => some ('\r', rest)
  | '"' :: rest => some ('"', rest)
  | '\\' :: rest => some ('\\', rest)
  | 'u' :: rest => code 4 rest
  | 'U' :: rest => code 8 rest
  | _ => none
where
  code (count : Nat) (rest : List Char) : Step Char :=
    if rest.length < count then none
    else (hexValue? (rest.take count)).bind fun value =>
      if isScalarValue value then some (Char.ofNat value, rest.drop count) else none

def finished (read : List Char) (rest : List Char) : Step String := some (String.ofList read.reverse, rest)

def line? (form : TextForm) (mark : Char) : Nat → List Char → List Char → Step String
  | 0, _, _ => none
  | fuel + 1, read, chars =>
      match chars with
      | [] => none
      | c :: rest =>
          if c = mark then finished read rest
          else if c = '\\' && form = .basic then
            (escape? rest).bind fun (c, rest) => line? form mark fuel (c :: read) rest
          else if isPlain c then line? form mark fuel (c :: read) rest
          else none

-- A backslash at the end of a line takes the blank space behind it away.
def continued? (chars : List Char) : Option (List Char) :=
  (lineEnd? (skipBlanks chars)).map fun rest => spaced rest
where
  spaced : List Char → List Char
    | '\n' :: rest => spaced rest
    | '\r' :: '\n' :: rest => spaced rest
    | c :: rest => if isBlank c then spaced rest else c :: rest
    | [] => []

-- A text over several lines up to its threefold mark, before which one or two more marks may
-- stand as part of the text.
def lines? (form : TextForm) (mark : Char) : Nat → List Char → List Char → Step String
  | 0, _, _ => none
  | fuel + 1, read, chars =>
      match chars with
      | [] => none
      | '\n' :: rest => lines? form mark fuel ('\n' :: read) rest
      | '\r' :: '\n' :: rest => lines? form mark fuel ('\n' :: read) rest
      | c :: rest =>
          if c = mark then
            let marks := chars.takeWhile (· = mark)
            if marks.length < 3 then lines? form mark fuel (mark :: read) rest
            else
              let kept := min 2 (marks.length - 3)
              finished (List.replicate kept mark ++ read) (chars.drop (kept + 3))
          else if c = '\\' && form = .basicLines then
            match continued? rest with
            | some rest => lines? form mark fuel read rest
            | none => (escape? rest).bind fun (c, rest) => lines? form mark fuel (c :: read) rest
          else if isPlain c then lines? form mark fuel (c :: read) rest
          else none

-- A line end right behind the opening mark does not belong to the text.
def skipFirstLine (chars : List Char) : List Char := (lineEnd? chars).getD chars

def string? : List Char → Step String
  | '"' :: '"' :: '"' :: rest => lines? .basicLines '"' (rest.length + 1) [] (skipFirstLine rest)
  | '"' :: rest => line? .basic '"' (rest.length + 1) [] rest
  | '\'' :: '\'' :: '\'' :: rest => lines? .literalLines '\'' (rest.length + 1) [] (skipFirstLine rest)
  | '\'' :: rest => line? .literal '\'' (rest.length + 1) [] rest
  | _ => none

def key? (chars : List Char) : Step String :=
  match chars with
  | '"' :: rest => line? .basic '"' (rest.length + 1) [] rest
  | '\'' :: rest => line? .literal '\'' (rest.length + 1) [] rest
  | _ =>
      let name := chars.takeWhile isBareChar
      if name.isEmpty then none else some (String.ofList name, chars.dropWhile isBareChar)

def path? : Nat → List Char → Option ((List String × String) × List Char)
  | 0, _ => none
  | fuel + 1, chars => do
      let (name, rest) ← key? (skipBlanks chars)
      match skipBlanks rest with
      | '.' :: more =>
          let ((names, last), rest) ← path? fuel more
          return ((name :: names, last), rest)
      | rest => return (([], name), rest)

def isWordChar (c : Char) : Bool := c.isAlphanum || c = '_' || c = '-' || c = '+' || c = '.'

def grouped? (isDigit : Char → Bool) : List Char → Option (List Char)
  | [] => none
  | [c] => if isDigit c then some [c] else none
  | c :: '_' :: rest => if isDigit c then (grouped? isDigit rest).map (c :: ·) else none
  | c :: rest => if isDigit c then (grouped? isDigit rest).map (c :: ·) else none

def inRange? (value : Int) : Option Number :=
  if -Int.ofNat (twoTo 63) ≤ value ∧ value < Int.ofNat (twoTo 63) then some (.integer value) else none

def inBase? (base : Nat) (isDigit : Char → Bool) (digits : List Char) : Option Number := do
  let digits ← grouped? isDigit digits
  let value ← digits.foldlM (fun value c => (Json.Reader.hexDigit? c).map (value * base + ·)) 0
  inRange? (Int.ofNat value)

def whole? (digits : List Char) : Option (List Char) :=
  (grouped? (·.isDigit) digits).filter fun digits => digits.length = 1 || digits.head? ≠ some '0'

def isMark (c : Char) : Bool := c = '.' || Nearest.isExponentMark c

def tail? (chars : List Char) : Option (List Char) :=
  match chars with
  | '.' :: rest => do
      let fraction ← grouped? (·.isDigit) (rest.takeWhile (!Nearest.isExponentMark ·))
      return '.' :: fraction ++ (← power? (rest.dropWhile (!Nearest.isExponentMark ·)))
  | rest => power? rest
where
  power? : List Char → Option (List Char)
    | [] => some []
    | mark :: '-' :: digits => (grouped? (·.isDigit) digits).map (mark :: '-' :: ·)
    | mark :: '+' :: digits => (grouped? (·.isDigit) digits).map (mark :: ·)
    | mark :: digits => (grouped? (·.isDigit) digits).map (mark :: ·)

def decimal? (negative : Bool) (digits : List Char) : Option Number := do
  let sign := if negative then ['-'] else []
  let whole ← whole? (digits.takeWhile (!isMark ·))
  match digits.dropWhile (!isMark ·) with
  | [] => (Nearest.signedDigits? (sign ++ whole)).bind inRange?
  | rest =>
      let number ← Nearest.real? (sign ++ whole ++ (← tail? rest))
      match number with
      | .infinite _ => none
      | number => some number

def number? (word : List Char) : Option Number :=
  match word with
  | '0' :: 'x' :: digits => inBase? 16 (fun c => (Json.Reader.hexDigit? c).isSome) digits
  | '0' :: 'o' :: digits => inBase? 8 (fun c => '0' ≤ c && c ≤ '7') digits
  | '0' :: 'b' :: digits => inBase? 2 (fun c => c = '0' || c = '1') digits
  | _ =>
      let (negative, digits) := Nearest.signed word
      if digits = ['i', 'n', 'f'] then some (.infinite negative)
      else if digits = ['n', 'a', 'n'] then some .undefined
      else decimal? negative digits

def word? (chars : List Char) : Step Value :=
  let word := chars.takeWhile isWordChar
  let rest := chars.dropWhile isWordChar
  if String.ofList word = "true" then some (.bool true, rest)
  else if String.ofList word = "false" then some (.bool false, rest)
  else (number? word).map fun number => (.number number, rest)

mutual
def value? : Nat → List Char → Option (Value × List Char)
  | 0, _ => none
  | fuel + 1, chars =>
      match chars with
      | '[' :: rest => items? fuel [] rest
      | '\x7b' :: rest =>
          match skipBlanks rest with
          | '\x7d' :: more => some (.object [], more)
          | rest => members? fuel [] rest
      | '"' :: _ => (string? chars).map fun (text, rest) => (.string text, rest)
      | '\'' :: _ => (string? chars).map fun (text, rest) => (.string text, rest)
      | _ => word? chars

-- The items of an array, those already read last first; a comma may stand behind the last one.
def items? : Nat → List Value → List Char → Option (Value × List Char)
  | 0, _, _ => none
  | fuel + 1, read, chars =>
      match skipLines false chars with
      | ']' :: rest => some (.array read.reverse, rest)
      | start => do
          let (value, rest) ← value? fuel start
          match skipLines false rest with
          | ',' :: more => items? fuel (value :: read) more
          | ']' :: more => return (.array (value :: read).reverse, more)
          | _ => none

def members? : Nat → Fields → List Char → Option (Value × List Char)
  | 0, _, _ => none
  | fuel + 1, read, chars => do
      let ((path, key), rest) ← path? (chars.length + 1) chars
      match rest with
      | '=' :: more =>
          let (value, rest) ← value? fuel (skipBlanks more)
          let read ← read.insert value key path true
          match skipBlanks rest with
          | ',' :: more => members? fuel read more
          | '\x7d' :: more => return (.object (closeFields read), more)
          | _ => none
      | _ => none
end

structure State where
  root : Fields := []
  table : List String := []

def header? (state : State) (change : Option Item → Option Item) (chars : List Char) :
    Option (State × List Char) := do
  let ((path, last), rest) ← path? (chars.length + 1) chars
  let root ← state.root.follow change (path ++ [last])
  return (⟨root, path ++ [last]⟩, rest)

def tableHeader? (state : State) (chars : List Char) : Option (State × List Char) := do
  match ← header? state Fields.openTable chars with
  | (state, ']' :: rest) => return (state, ← endLine rest)
  | _ => none

def elementHeader? (state : State) (chars : List Char) : Option (State × List Char) := do
  match ← header? state Fields.openElement chars with
  | (state, ']' :: ']' :: rest) => return (state, ← endLine rest)
  | _ => none

def pair? (state : State) (chars : List Char) : Option (State × List Char) := do
  let ((path, key), rest) ← path? (chars.length + 1) chars
  match rest with
  | '=' :: more =>
      let (value, rest) ← value? (chars.length + 1) (skipBlanks more)
      let root ← state.root.within (Fields.insert value key path true) state.table
      return ({ state with root }, ← endLine rest)
  | _ => none

def document? : Nat → State → List Char → Option State
  | 0, _, _ => none
  | fuel + 1, state, chars => do
      match skipLines false chars with
      | [] => return state
      | '[' :: '[' :: rest =>
          let (state, rest) ← elementHeader? state rest
          document? fuel state rest
      | '[' :: rest =>
          let (state, rest) ← tableHeader? state rest
          document? fuel state rest
      | start =>
          let (state, rest) ← pair? state start
          document? fuel state rest

def byteOrderMark : Char := Char.ofNat 0xFEFF

end Reader

def read? (text : String) : Option (List (String × Json.Value)) :=
  let chars := match text.toList with
    | c :: rest => if c = Reader.byteOrderMark then rest else c :: rest
    | [] => []
  (Reader.document? (chars.length + 1) {} chars).map fun state => closeFields state.root

end ApiModels.Toml
