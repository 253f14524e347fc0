namespace ApiModels.Toml

inductive TextForm where
  | basic
  | literal
  | basicLines
  | literalLines
  deriving DecidableEq

def longestRun (mark : Char) (current : Nat) : List Char → Nat
  | [] => current
  | c :: rest => if c = mark then longestRun mark (current + 1) rest else max current (longestRun mark 0 rest)

def isControl (c : Char) : Bool := c.toNat < 0x20 || c.toNat = 0x7F

def needsEscape (c : Char) : Bool := isControl c && c ≠ '\t' && c ≠ '\n'

namespace TextForm

def multiline : TextForm → Bool
  | .basicLines => true
  | .literalLines => true
  | _ => false

def ofText (chars : List Char) : TextForm :=
  let lines := chars.contains '\n'
  let verbatim := !chars.any needsEscape
  let plain := verbatim && !chars.contains '\\'
  if plain && !lines && longestRun '"' 0 chars = 0 then .basic
  else if verbatim && !lines && longestRun '\'' 0 chars = 0 then .literal
  else if plain && longestRun '"' 0 chars ≤ 2 then .basicLines
  else if verbatim && longestRun '\'' 0 chars ≤ 2 then .literalLines
  else if lines then .basicLines
  else .basic

def ofKey (chars : List Char) : TextForm :=
  let verbatim := !chars.any fun c => needsEscape c || c = '\n'
  if verbatim && !chars.contains '\\' && !chars.contains '"' then .basic
  else if verbatim && !chars.contains '\'' then .literal
  else .basic

def mark : TextForm → String
  | .basic => "\""
  | .literal => "'"
  | .basicLines => "\"\"\""
  | .literalLines => "'''"

end TextForm

def hexDigit (n : Nat) : Char := if n < 10 then Char.ofNat (n + 48) else Char.ofNat (n + 55)

def escapeChar (c : Char) : List Char :=
  match c with
  | '\x08' => ['\\', 'b']
  | '\t' => ['\\', 't']
  | '\n' => ['\\', 'n']
  | '\x0c' => ['\\', 'f']
  | '\r' => ['\\', 'r']
  | '"' => ['\\', '"']
  | '\\' => ['\\', '\\']
  | c =>
      if isControl c then ['\\', 'u', '0', '0', hexDigit (c.toNat / 16), hexDigit (c.toNat % 16)]
      else [c]

-- Between threefold marks line ends stand for themselves, and so do quotes up to the third of a
-- run; `quotes` counts those just written.
def escapeChars (multiline : Bool) (quotes : Nat) : List Char → List Char
  | [] => []
  | c :: rest =>
      if multiline && c = '\n' then c :: escapeChars multiline 0 rest
      else if multiline && c = '"' && quotes < 2 then c :: escapeChars multiline (quotes + 1) rest
      else escapeChar c ++ escapeChars multiline 0 rest

def TextForm.write (form : TextForm) (chars : List Char) : String :=
  let first := if form.multiline && chars.contains '\n' then "\n" else ""
  let body := match form with
    | .basic => escapeChars false 0 chars
    | .basicLines => escapeChars true 0 chars
    | _ => chars
  form.mark ++ first ++ String.ofList body ++ form.mark

def quotedText (text : String) : String := (TextForm.ofText text.toList).write text.toList

def isBareChar (c : Char) : Bool := c.isAlphanum || c = '_' || c = '-'

def key (name : String) : String :=
  if !name.isEmpty && name.toList.all isBareChar then name else (TextForm.ofKey name.toList).write name.toList

end ApiModels.Toml
