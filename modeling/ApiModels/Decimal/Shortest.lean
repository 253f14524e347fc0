import ApiModels.Decimal.Binary64

namespace ApiModels

structure Decimal where
  digits : Nat
  scale : Int
  deriving DecidableEq

namespace Decimal

-- The interval of reals that round to a positive number, in units of 1 / denominator.
structure Neighbourhood where
  low : Nat
  value : Nat
  high : Nat
  denominator : Nat
  closed : Bool

def neighbourhood (x : Binary64) : Neighbourhood :=
  let unit := twoTo x.exponent.toNat
  let narrow := x.significand = Binary64.hiddenBit ∧ Binary64.leastExponent < x.exponent
  { low := (4 * x.significand - (if narrow then 1 else 2)) * unit
    value := 4 * x.significand * unit
    high := (4 * x.significand + 2) * unit
    denominator := 4 * x.denominator
    closed := x.significand % 2 = 0 }

namespace Neighbourhood

def gridPoint (n : Neighbourhood) (count : Nat) (scale : Int) : Nat := count * tenTo scale.toNat * n.denominator

def onGrid (bound : Nat) (scale : Int) : Nat := bound * tenTo (-scale).toNat

def holds (n : Neighbourhood) (count : Nat) (scale : Int) : Bool :=
  let point := n.gridPoint count scale
  let low := onGrid n.low scale
  let high := onGrid n.high scale
  if n.closed then low ≤ point && point ≤ high else low < point && point < high

def floorOn (n : Neighbourhood) (scale : Int) : Nat := onGrid n.value scale / n.gridPoint 1 scale

def leading (n : Neighbourhood) : Int :=
  let guess := ((Int.ofNat n.value.log2 - Int.ofNat n.denominator.log2) * 30103).fdiv 100000 - 1
  let reaches (power : Int) : Bool := 1 ≤ n.floorOn power
  if reaches (guess + 2) then guess + 2 else if reaches (guess + 1) then guess + 1 else guess

def onScale? (n : Neighbourhood) (scale : Int) : Option Decimal :=
  let below := n.floorOn scale
  let value := onGrid n.value scale
  let down := n.holds below scale
  let up := n.holds (below + 1) scale
  let toDown := value - n.gridPoint below scale
  let toUp := n.gridPoint (below + 1) scale - value
  if down && up then
    if toDown < toUp ∨ (toDown = toUp ∧ below % 2 = 0) then some ⟨below, scale⟩ else some ⟨below + 1, scale⟩
  else if down then some ⟨below, scale⟩
  else if up then some ⟨below + 1, scale⟩
  else none

end Neighbourhood

def trimmed : Nat → Decimal → Decimal
  | 0, d => d
  | fuel + 1, d => if d.digits % 10 = 0 ∧ d.digits ≠ 0 then trimmed fuel ⟨d.digits / 10, d.scale + 1⟩ else d

def shortest (x : Binary64) : Decimal :=
  if x.isZero then ⟨0, 0⟩
  else
    let n := neighbourhood x
    let lead := n.leading
    let found := (List.range 18).findSome? (fun places => n.onScale? (lead - Int.ofNat places))
    trimmed 20 (found.getD ⟨x.numerator, 0⟩)

-- Positional notation runs from exponent `lowest` to `highest` of the leading digit, without a
-- bound where there is none. It always shows at least one decimal place.
structure Layout where
  lowest : Option Int
  highest : Option Int

def Layout.positional (l : Layout) (lead : Int) : Bool :=
  l.lowest.all (· ≤ lead) && l.highest.all (lead ≤ ·)

def zeros (count : Nat) : String := String.ofList (List.replicate count '0')

def plainText (digits : List Char) (lead : Int) : String :=
  let count := digits.length
  if lead < 0 then "0." ++ zeros ((-lead).toNat - 1) ++ String.ofList digits
  else if count ≤ lead.toNat + 1 then String.ofList digits ++ zeros (lead.toNat + 1 - count) ++ ".0"
  else String.ofList (digits.take (lead.toNat + 1)) ++ "." ++ String.ofList (digits.drop (lead.toNat + 1))

def exponentText (digits : List Char) (lead : Int) : String :=
  let mantissa := match digits with
    | [] => "0"
    | [only] => String.singleton only
    | first :: rest => String.singleton first ++ "." ++ String.ofList rest
  let power := if lead < 0 then "e-" ++ Nat.repr (-lead).toNat else "e+" ++ Nat.repr lead.toNat
  mantissa ++ power

def text (layout : Layout) (x : Binary64) : String :=
  let d := shortest x
  let digits := (Nat.repr d.digits).toList
  let lead := d.scale + Int.ofNat digits.length - 1
  let body := if layout.positional lead then plainText digits lead else exponentText digits lead
  if x.negative then "-" ++ body else body

def bareText (x : Binary64) : String :=
  let chars := (text ⟨none, none⟩ x).toList
  String.ofList (if ['.', '0'].isSuffixOf chars then chars.take (chars.length - 2) else chars)

end Decimal
end ApiModels
