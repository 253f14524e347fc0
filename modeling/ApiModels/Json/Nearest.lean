import ApiModels.Json.Value

namespace ApiModels.Json.Nearest

def digit? (c : Char) : Option Nat := if c.isDigit then some (c.toNat - '0'.toNat) else none

def natural? (digits : List Char) : Option Nat :=
  if digits.isEmpty then none
  else digits.foldlM (fun n c => (digit? c).map (n * 10 + ·)) 0

def signed : List Char → Bool × List Char
  | '-' :: rest => (true, rest)
  | '+' :: rest => (false, rest)
  | rest => (false, rest)

def signedDigits? (chars : List Char) : Option Int :=
  let (negative, digits) := signed chars
  (natural? digits).map fun n => if negative then -Int.ofNat n else Int.ofNat n

def integer? (chars : List Char) : Option Int :=
  (signedDigits? chars).filter fun n => -Int.ofNat (twoTo 63) ≤ n ∧ n < Int.ofNat (twoTo 63)

def decimalDigits? (chars : List Char) : Option (Nat × Nat) :=
  let whole := chars.takeWhile (·.isDigit)
  let rest := chars.dropWhile (·.isDigit)
  let fraction := match rest with
    | [] => some []
    | '.' :: digits => some digits
    | _ => none
  fraction.bind fun digits => (natural? (whole ++ digits)).map fun n => (n, digits.length)

def isExponentMark (c : Char) : Bool := c = 'e' || c = 'E'

-- `places` digits stand behind the point. Above and below certain scales a numeral is infinite or
-- zero whatever its digits are, so the power of ten is built only between them.
def scaled (negative : Bool) (digits places : Nat) (power : Int) : Number :=
  let exponent := power - Int.ofNat places
  let lead := exponent + Int.ofNat (Nat.toDigits 10 digits).length
  if digits = 0 ∨ lead < -400 then .real (Binary64.zero negative)
  else if 400 < lead then .infinite negative
  else match Binary64.ofRatio? negative (digits * tenTo exponent.toNat) (tenTo (-exponent).toNat) with
    | some x => .real x
    | none => .infinite negative

def infinityNames : List String := ["inf", "infinity"]

def named? (negative : Bool) (chars : List Char) : Option Number :=
  let name := String.ofList (chars.map Char.toLower)
  if name ∈ infinityNames then some (.infinite negative)
  else if name = "nan" then some .undefined
  else none

def real? (chars : List Char) : Option Number :=
  let (negative, unsigned) := signed chars
  (named? negative unsigned).or do
    let power ← match unsigned.dropWhile (!isExponentMark ·) with
      | [] => some 0
      | _ :: digits => signedDigits? digits
    let (digits, places) ← decimalDigits? (unsigned.takeWhile (!isExponentMark ·))
    return scaled negative digits places power

end ApiModels.Json.Nearest
