import ApiModels.Json.Value

namespace ApiModels.Json.Numeral

def limit : Nat := twoTo 64 - 1

def digit? (c : Char) : Option Nat := if c.isDigit then some (c.toNat - '0'.toNat) else none

def integerDigits : List Char → Nat → Nat → (Nat × Nat) × List Char
  | c :: rest, significand, dropped =>
      match digit? c with
      | none => ((significand, dropped), c :: rest)
      | some d =>
          if dropped = 0 ∧ significand * 10 + d ≤ limit then integerDigits rest (significand * 10 + d) 0
          else integerDigits rest significand (dropped + 1)
  | [], significand, dropped => ((significand, dropped), [])

-- The digits behind the point: the significand, and how many digits went into it. Once one
-- digit does not fit, the rest are skipped.
def fractionDigits : List Char → Bool → Nat → Nat → (Nat × Nat) × List Char
  | c :: rest, full, significand, taken =>
      match digit? c with
      | none => ((significand, taken), c :: rest)
      | some d =>
          if !full ∧ significand * 10 + d ≤ limit then fractionDigits rest false (significand * 10 + d) (taken + 1)
          else fractionDigits rest true significand taken
  | [], _, significand, taken => ((significand, taken), [])

def wholeNumber? : List Char → Nat → Option Nat
  | [], n => some n
  | c :: rest, n => (digit? c).bind (fun d => wholeNumber? rest (n * 10 + d))

def exponent? : List Char → Option Int
  | [] => none
  | '+' :: c :: rest => (wholeNumber? (c :: rest) 0).map Int.ofNat
  | '-' :: c :: rest => (wholeNumber? (c :: rest) 0).map (fun n => -Int.ofNat n)
  | c :: rest => (wholeNumber? (c :: rest) 0).map Int.ofNat

def greatestPower : Nat := 308

def powerOfTen? (n : Nat) : Option Binary64 := Binary64.ofNat? (tenTo n)

def divideByPower (x : Binary64) (power : Nat) : Option Binary64 :=
  if x.isZero then some x
  else if power ≤ greatestPower then (powerOfTen? power).bind x.div?
  else ((powerOfTen? greatestPower).bind x.div?).bind (divideByPower · (power - greatestPower))
termination_by power
decreasing_by simp [greatestPower] at *; omega

-- The significand and the power of ten are each rounded first, so the result is near the numeral but not always the
-- nearest number.
def scaled? (significand : Nat) (exponent : Int) : Option Binary64 :=
  (Binary64.ofNat? significand).bind fun x =>
    if exponent < 0 then divideByPower x (-exponent).toNat
    else if exponent.toNat ≤ greatestPower then (powerOfTen? exponent.toNat).bind x.mul?
    else if x.isZero then some x
    else none

def real? (negative : Bool) (significand : Nat) (exponent : Int) : Option Number :=
  (scaled? significand exponent).map fun x => .real (if negative then x.neg else x)

-- Without point and exponent: an integer if 64 bits hold it. Minus zero is not an integer.
def integral? (negative : Bool) (significand dropped : Nat) : Option Number :=
  if 0 < dropped then real? negative significand (Int.ofNat dropped)
  else if !negative then some (.integer significand)
  else if 0 < significand ∧ significand ≤ twoTo 63 then some (.integer (-Int.ofNat significand))
  else real? true significand 0

def finish? (negative : Bool) (significand : Nat) (exponent : Int) : List Char → Option Number
  | [] => real? negative significand exponent
  | 'e' :: rest => (exponent? rest).bind fun power => real? negative significand (exponent + power)
  | 'E' :: rest => (exponent? rest).bind fun power => real? negative significand (exponent + power)
  | _ => none

def unsigned? (negative : Bool) (digits : List Char) : Option Number :=
  match digits with
  | '0' :: c :: rest => if c.isDigit then none else body 0 0 (c :: rest)
  | c :: rest => if c.isDigit then
      let ((significand, dropped), tail) := integerDigits (c :: rest) 0 0
      body significand dropped tail
    else none
  | [] => none
where
  body (significand dropped : Nat) : List Char → Option Number
    | [] => integral? negative significand dropped
    | '.' :: c :: rest =>
        if c.isDigit then
          let ((fraction, taken), tail) := fractionDigits (c :: rest) false significand 0
          finish? negative fraction (Int.ofNat dropped - Int.ofNat taken) tail
        else none
    | tail => finish? negative significand (Int.ofNat dropped) tail

def number? : List Char → Option Number
  | '-' :: digits => unsigned? true digits
  | digits => unsigned? false digits

end ApiModels.Json.Numeral
