import ApiModels.Decimal.Binary64

namespace ApiModels.Json

-- An integer of 64 bits, signed or unsigned, or a finite binary64. The last two stand in settings
-- only; JSON has no numerals for them.
inductive Number where
  | integer (value : Int)
  | real (value : Binary64)
  | infinite (negative : Bool)
  | undefined
  deriving DecidableEq

inductive Value where
  | null
  | bool (value : Bool)
  | number (value : Number)
  | string (value : String)
  | array (items : List Value)
  | object (fields : List (String × Value))

instance : Inhabited Value := ⟨.null⟩

namespace Value

def ofStrings (texts : List String) : Value := .array (texts.map .string)

def ofOption (text : Option String) : Value := text.elim .null .string

def ofNat (n : Nat) : Value := .number (.integer n)

def field? (key : String) : Value → Option Value
  | .object fields => (fields.find? (·.1 = key)).map Prod.snd
  | _ => none

def asString? : Value → Option String
  | .string text => some text
  | _ => none

def asObject? : Value → Option (List (String × Value))
  | .object fields => some fields
  | _ => none

def asArray? : Value → Option (List Value)
  | .array items => some items
  | _ => none

end Value
end ApiModels.Json
