import ApiModels.Text.CaseTable

namespace ApiModels.Text

def inRanges (ranges : List (Nat × Nat)) (c : Char) : Bool :=
  ranges.any (fun range => range.1 ≤ c.toNat && c.toNat ≤ range.2)

def isCased : Char → Bool := inRanges casedRanges

def isCaseIgnorable : Char → Bool := inRanges caseIgnorableRanges

def lowerChar (c : Char) : List Char :=
  if c.toNat < 0x80 then [c.toLower]
  else if c = 'İ' then ['i', Char.ofNat 0x307]
  else [Char.ofNat ((lowerRanges.findSome? (·.map? c.toNat)).getD c.toNat)]

def upperChar (c : Char) : List Char :=
  if c.toNat < 0x80 then [c.toUpper]
  else match upperSequences.find? (·.1 = c.toNat) with
    | some (_, codes) => codes.map Char.ofNat
    | none => [Char.ofNat ((upperRanges.findSome? (·.map? c.toNat)).getD c.toNat)]

def meetsCased (chars : List Char) : Bool :=
  match chars.dropWhile isCaseIgnorable with
  | c :: _ => isCased c
  | [] => false

-- A capital sigma that ends a word becomes the final form; `before` holds the characters already read, last first.
def lowerChars (before : List Char) : List Char → List Char
  | [] => []
  | c :: rest =>
      let lowered :=
        if c = 'Σ' then (if meetsCased before && !meetsCased rest then ['ς'] else ['σ'])
        else lowerChar c
      lowered ++ lowerChars (c :: before) rest

def lowercase (text : String) : String := String.ofList (lowerChars [] text.toList)

def uppercase (text : String) : String := String.ofList (text.toList.flatMap upperChar)

end ApiModels.Text
