import ApiModels.Json.Value
import ApiModels.Decimal.Shortest
import ApiModels.Table.Sorted

namespace ApiModels.Json

def hexDigit (n : Nat) : Char := (Nat.toDigits 16 n).getLastD '0'

def escapeChar (c : Char) : List Char :=
  match c with
  | '"' => ['\\', '"']
  | '\\' => ['\\', '\\']
  | '\x08' => ['\\', 'b']
  | '\x0c' => ['\\', 'f']
  | '\n' => ['\\', 'n']
  | '\r' => ['\\', 'r']
  | '\t' => ['\\', 't']
  | c =>
      if c.toNat < 0x20 then ['\\', 'u', '0', '0', hexDigit (c.toNat / 16), hexDigit (c.toNat % 16)]
      else [c]

def quoted (text : String) : String :=
  String.ofList ('"' :: text.toList.flatMap escapeChar ++ ['"'])

namespace Number

-- Plain notation while the leading digit stands at 10^-5 to 10^15.
def layout : Decimal.Layout := ⟨some (-5), some 15⟩

def integerText (value : Int) : String :=
  if value < 0 then "-" ++ Nat.repr (-value).toNat else Nat.repr value.toNat

def text : Number → String
  | .integer value => integerText value
  | .real value => Decimal.text layout value
  | _ => "null"

end Number

namespace Value

def scalarText : Value → String
  | .null => "null"
  | .bool true => "true"
  | .bool false => "false"
  | .number n => n.text
  | .string s => quoted s
  | _ => ""

mutual
def compact : Value → String
  | .array items => "[" ++ String.intercalate "," (compactItems items) ++ "]"
  | .object fields => "\x7b" ++ String.intercalate "," (compactFields fields) ++ "\x7d"
  | value => scalarText value

def compactItems : List Value → List String
  | [] => []
  | item :: rest => compact item :: compactItems rest

def compactFields : List (String × Value) → List String
  | [] => []
  | (key, value) :: rest => (quoted key ++ ":" ++ compact value) :: compactFields rest
end

def indentation (level : Nat) : String := "\n" ++ String.ofList (List.replicate (2 * level) ' ')

def bracketed (opening closing : String) (level : Nat) (lines : List String) : String :=
  if lines.isEmpty then opening ++ closing
  else opening ++ indentation (level + 1) ++ String.intercalate ("," ++ indentation (level + 1)) lines
    ++ indentation level ++ closing

mutual
def indented (level : Nat) : Value → String
  | .array items => bracketed "[" "]" level (indentedItems (level + 1) items)
  | .object fields => bracketed "\x7b" "\x7d" level (indentedFields (level + 1) fields)
  | value => scalarText value

def indentedItems (level : Nat) : List Value → List String
  | [] => []
  | item :: rest => indented level item :: indentedItems level rest

def indentedFields (level : Nat) : List (String × Value) → List String
  | [] => []
  | (key, value) :: rest => (quoted key ++ ": " ++ indented level value) :: indentedFields level rest
end

def pretty (value : Value) : String := indented 0 value

mutual
def keySorted : Value → Value
  | .array items => .array (keySortedItems items)
  | .object fields => .object (keySortedFields fields)
  | value => value

def keySortedItems : List Value → List Value
  | [] => []
  | item :: rest => keySorted item :: keySortedItems rest

def keySortedFields : List (String × Value) → List (String × Value)
  | [] => []
  | (key, value) :: rest => SortedTable.insertInto key (keySorted value) (keySortedFields rest)
end

end Value
end ApiModels.Json
