import ApiModels.Json.Numeral
import ApiModels.Table.Ordered

namespace ApiModels.Json.Reader

inductive Frame where
  | array (items : List Value)
  | object (fields : List (String × Value)) (key : String)

-- Characters of a string are held last first; `isKey` tells a key from a value.
inductive Mode where
  | value
  | firstItem
  | firstKey
  | nextKey
  | colon
  | afterValue
  | finished (value : Value)
  | text (isKey : Bool) (read : List Char)
  | escape (isKey : Bool) (read : List Char)
  | hex (isKey : Bool) (read : List Char) (high : Option Nat) (unit : Nat) (missing : Nat)
  | lowSurrogate (isKey : Bool) (read : List Char) (high : Nat) (slash : Bool)
  | numeral (read : List Char)
  | word (missing : List Char) (value : Value)

structure State where
  mode : Mode
  frames : List Frame

def start : State := ⟨.value, []⟩

def isBlank (c : Char) : Bool := c = ' ' || c = '\n' || c = '\t' || c = '\r'

def hexDigit? (c : Char) : Option Nat :=
  if c.isDigit then some (c.toNat - '0'.toNat)
  else if 'a' ≤ c ∧ c ≤ 'f' then some (c.toNat - 'a'.toNat + 10)
  else if 'A' ≤ c ∧ c ≤ 'F' then some (c.toNat - 'A'.toNat + 10)
  else none

def deliver (value : Value) : List Frame → State
  | [] => ⟨.finished value, []⟩
  | .array items :: rest => ⟨.afterValue, .array (value :: items) :: rest⟩
  | .object fields key :: rest => ⟨.afterValue, .object (Entries.put key value fields) key :: rest⟩

def deliverText (isKey : Bool) (read : List Char) (frames : List Frame) : Option State :=
  let text := String.ofList read.reverse
  if isKey then
    match frames with
    | .object fields _ :: rest => some ⟨.colon, .object fields text :: rest⟩
    | _ => none
  else some (deliver (.string text) frames)

def enter (depth : Nat) (mode : Mode) (frame : Frame) (frames : List Frame) : Option State :=
  if frames.length < depth then some ⟨mode, frame :: frames⟩ else none

def beginValue (depth : Nat) (frames : List Frame) (c : Char) : Option State :=
  match c with
  | '[' => enter depth .firstItem (.array []) frames
  | '\x7b' => enter depth .firstKey (.object [] "") frames
  | '"' => some ⟨.text false [], frames⟩
  | 't' => some ⟨.word ['r', 'u', 'e'] (.bool true), frames⟩
  | 'f' => some ⟨.word ['a', 'l', 's', 'e'] (.bool false), frames⟩
  | 'n' => some ⟨.word ['u', 'l', 'l'] .null, frames⟩
  | c => if c.isDigit || c = '-' then some ⟨.numeral [c], frames⟩ else none

def afterValue (frames : List Frame) (c : Char) : Option State :=
  match frames, c with
  | .array items :: rest, ',' => some ⟨.value, .array items :: rest⟩
  | .array items :: rest, ']' => some (deliver (.array items.reverse) rest)
  | .object fields key :: rest, ',' => some ⟨.nextKey, .object fields key :: rest⟩
  | .object fields _ :: rest, '\x7d' => some (deliver (.object fields) rest)
  | _, _ => none

def between (state : State) (c : Char) : Option State :=
  if isBlank c then some state
  else match state.mode with
    | .afterValue => afterValue state.frames c
    | _ => none

def numeralMark (c : Char) : Bool := c.isDigit || c = '-' || c = '+' || c = '.' || c = 'e' || c = 'E'

def finishNumeral (read : List Char) (frames : List Frame) : Option State :=
  (Numeral.number? read.reverse).map fun number => deliver (.number number) frames

def escaped? (c : Char) : Option Char :=
  match c with
  | '"' => some '"'
  | '\\' => some '\\'
  | '/' => some '/'
  | 'b' => some '\x08'
  | 'f' => some '\x0c'
  | 'n' => some '\n'
  | 'r' => some '\r'
  | 't' => some '\t'
  | _ => none

-- A complete `\uXXXX`: a character, the first half of a pair, or an error.
def endHex (isKey : Bool) (read : List Char) (high : Option Nat) (unit : Nat) (frames : List Frame) : Option State :=
  match high with
  | some first =>
      if 0xDC00 ≤ unit ∧ unit ≤ 0xDFFF then
        some ⟨.text isKey (Char.ofNat (0x10000 + (first - 0xD800) * 0x400 + (unit - 0xDC00)) :: read), frames⟩
      else none
  | none =>
      if 0xD800 ≤ unit ∧ unit ≤ 0xDBFF then some ⟨.lowSurrogate isKey read unit false, frames⟩
      else if 0xDC00 ≤ unit ∧ unit ≤ 0xDFFF then none
      else some ⟨.text isKey (Char.ofNat unit :: read), frames⟩

def step (depth : Nat) (state : State) (c : Char) : Option State :=
  let frames := state.frames
  match state.mode with
  | .value => if isBlank c then some state else beginValue depth frames c
  | .firstItem =>
      if isBlank c then some state
      else if c = ']' then afterValue frames c
      else beginValue depth frames c
  | .firstKey =>
      if isBlank c then some state
      else if c = '"' then some ⟨.text true [], frames⟩
      else if c = '\x7d' then afterValue frames c
      else none
  | .nextKey =>
      if isBlank c then some state
      else if c = '"' then some ⟨.text true [], frames⟩
      else none
  | .colon =>
      if isBlank c then some state
      else if c = ':' then some ⟨.value, frames⟩
      else none
  | .afterValue => between state c
  | .finished _ => between state c
  | .text isKey read =>
      if c = '"' then deliverText isKey read frames
      else if c = '\\' then some ⟨.escape isKey read, frames⟩
      else if c.toNat < 0x20 then none
      else some ⟨.text isKey (c :: read), frames⟩
  | .escape isKey read =>
      if c = 'u' then some ⟨.hex isKey read none 0 4, frames⟩
      else (escaped? c).map fun plain => ⟨.text isKey (plain :: read), frames⟩
  | .hex isKey read high unit missing =>
      (hexDigit? c).bind fun digit =>
        if missing ≤ 1 then endHex isKey read high (unit * 16 + digit) frames
        else some ⟨.hex isKey read high (unit * 16 + digit) (missing - 1), frames⟩
  | .lowSurrogate isKey read high slash =>
      if slash then if c = 'u' then some ⟨.hex isKey read (some high) 0 4, frames⟩ else none
      else if c = '\\' then some ⟨.lowSurrogate isKey read high true, frames⟩
      else none
  | .numeral read =>
      if numeralMark c then some ⟨.numeral (c :: read), frames⟩
      else (finishNumeral read frames).bind fun next => between next c
  | .word missing value =>
      match missing with
      | [] => none
      | [last] => if c = last then some (deliver value frames) else none
      | next :: rest => if c = next then some ⟨.word rest value, frames⟩ else none

def finish (state : State) : Option Value :=
  let ended := match state.mode with
    | .numeral read => finishNumeral read state.frames
    | _ => some state
  match ended with
  | some ⟨.finished value, _⟩ => some value
  | _ => none

end Reader

def nestingLimit : Nat := 127

def read? (text : String) (depth : Nat := nestingLimit) : Option Value :=
  (text.toList.foldlM (Reader.step depth) Reader.start).bind Reader.finish

end ApiModels.Json
