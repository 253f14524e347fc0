import ApiModels.Json.Nearest
import ApiModels.Settings.Generator

namespace ApiModels.Settings

open Json

inductive PathStep where
  | name (text : String)
  | item (index : Int)
  deriving DecidableEq

def isNameChar (c : Char) : Bool := c.isAlphanum || c = '_' || c = '-' || c = ' '

def isSpacing (c : Char) : Bool := c = ' ' || c = '\t'

def name? (chars : List Char) : Option (PathStep × List Char) :=
  let name := chars.takeWhile isNameChar
  if name.isEmpty then none
  else some (.name (String.ofList name), chars.dropWhile isNameChar)

def item? (chars : List Char) : Option (PathStep × List Char) :=
  let start := chars.dropWhile isSpacing
  let sign := start.takeWhile (· = '-')
  let digits := (start.drop sign.length).takeWhile (·.isDigit)
  match ((start.drop sign.length).dropWhile (·.isDigit)).dropWhile isSpacing with
  | ']' :: rest => (Nearest.integer? (sign ++ digits)).map fun index => (.item index, rest)
  | _ => none

def stepsBehind? : Nat → List Char → Option (List PathStep)
  | _, [] => some []
  | 0, _ => none
  | fuel + 1, '.' :: rest => (name? rest).bind fun (step, rest) => (stepsBehind? fuel rest).map (step :: ·)
  | fuel + 1, '[' :: rest => (item? rest).bind fun (step, rest) => (stepsBehind? fuel rest).map (step :: ·)
  | _, _ => none

-- Names are compared without regard to case, so the text is read in lower case. One that is no
-- path is a single name.
def pathOf (text : String) : List PathStep :=
  let lowered := Text.lowercase text
  ((name? lowered.toList).bind fun (step, rest) => (stepsBehind? rest.length rest).map (step :: ·)).getD
    [.name lowered]

-- Lays a value over what is there: a table key by key, anything else as a whole. A table without
-- keys changes nothing that is there.
mutual
def overlay (there : Value) : Value → Value
  | .object [] => match there with
      | .null => .object []
      | there => there
  | .object fields => .object (overlayFields (there.asObject?.getD []) fields)
  | value => value

def overlayFields (under : List (String × Value)) : List (String × Value) → List (String × Value)
  | [] => under
  | (key, value) :: rest =>
      let name := Text.lowercase key
      overlayFields (Entries.put name (overlay ((Entries.find? name under).getD .null) value) under) rest
end

def position? (items : List Value) (index : Int) : Option Nat :=
  if 0 ≤ index then some index.toNat
  else if index.natAbs ≤ items.length then some (items.length - index.natAbs)
  else none

def widened (items : List Value) (position : Nat) : List Value :=
  items ++ List.replicate (position + 1 - items.length) .null

-- What stands in the way of a step gives way to a table or a list.
def put? (value : Value) : List PathStep → Value → Option Value
  | [], there => some (overlay there value)
  | .name key :: steps, there =>
      let fields := there.asObject?.getD []
      (put? value steps ((Entries.find? key fields).getD .null)).map fun inner =>
        .object (Entries.put key inner fields)
  | .item index :: steps, there => do
      let items := there.asArray?.getD []
      let position ← position? items index
      let room := widened items position
      let inner ← if steps.isEmpty then some value else put? value steps (room[position]?.getD .null)
      return .array (room.set position inner)

end ApiModels.Settings
