namespace ApiModels

def twoTo (n : Nat) : Nat := Nat.pow 2 n

def tenTo (n : Nat) : Nat := Nat.pow 10 n

-- The value is ± significand · 2 ^ exponent. Canonical values have either 53 significant
-- bits or the least exponent, -1074.
structure Binary64 where
  negative : Bool
  significand : Nat
  exponent : Int
  deriving DecidableEq

namespace Binary64

def leastExponent : Int := -1074
def greatestExponent : Int := 971
def hiddenBit : Nat := twoTo 52

def zero (negative : Bool) : Binary64 := ⟨negative, 0, leastExponent⟩

def isZero (x : Binary64) : Bool := x.significand = 0

instance : Inhabited Binary64 := ⟨zero false⟩

def halfEven (numerator denominator : Nat) : Nat :=
  let quotient := numerator / denominator
  let twice := 2 * (numerator % denominator)
  if denominator < twice ∨ (twice = denominator ∧ quotient % 2 = 1) then quotient + 1 else quotient

def gridExponent (numerator denominator : Nat) : Int :=
  let leading : Int := Int.ofNat numerator.log2 - Int.ofNat denominator.log2
  let reaches := denominator * twoTo leading.toNat ≤ numerator * twoTo (-leading).toNat
  max (leading - (if reaches then 52 else 53)) leastExponent

def ofRatio? (negative : Bool) (numerator denominator : Nat) : Option Binary64 :=
  if numerator = 0 then some (zero negative)
  else
    let exponent := gridExponent numerator denominator
    let rounded := halfEven (numerator * twoTo (-exponent).toNat) (denominator * twoTo exponent.toNat)
    let (significand, exponent) :=
      if rounded = 2 * hiddenBit then (hiddenBit, exponent + 1) else (rounded, exponent)
    if greatestExponent < exponent then none else some ⟨negative, significand, exponent⟩

def numerator (x : Binary64) : Nat := x.significand * twoTo x.exponent.toNat

def denominator (x : Binary64) : Nat := twoTo (-x.exponent).toNat

def ofNat? (n : Nat) : Option Binary64 := ofRatio? false n 1

def mul? (x y : Binary64) : Option Binary64 :=
  ofRatio? (x.negative ^^ y.negative) (x.numerator * y.numerator) (x.denominator * y.denominator)

-- Division by zero is an overflow.
def div? (x y : Binary64) : Option Binary64 :=
  if y.isZero then none
  else ofRatio? (x.negative ^^ y.negative) (x.numerator * y.denominator) (x.denominator * y.numerator)

def neg (x : Binary64) : Binary64 := { x with negative := !x.negative }

end Binary64
end ApiModels
