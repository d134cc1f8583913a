/-!
# Binary floating point numbers of 64 bits

A finite number `± mantissa * 2 ^ exponent` of the format with 53 bits of precision, and the exact
rounding of a ratio of natural numbers to it: to the nearest number, a half to the even mantissa.
-/

namespace AgentThreads

/-- A finite number. The mantissa is below `2 ^ 53`, and it is at least `2 ^ 52` unless the exponent
is the least one, `-1074`. -/
structure Binary64 where
  /-- The sign, which zero has too. -/
  negative : Bool
  /-- The integer significand. -/
  mantissa : Nat
  /-- The power of two that multiplies it. -/
  exponent : Int
  deriving DecidableEq, Inhabited

namespace Binary64

/-- The zero with the given sign. -/
def zero (negative : Bool) : Binary64 :=
  ⟨negative, 0, -1074⟩

/-- The number is one of the two zeros. -/
def isZero (x : Binary64) : Bool :=
  x.mantissa == 0

/-- The number with the other sign. -/
def neg (x : Binary64) : Binary64 :=
  { x with negative := !x.negative }

/-- The quotient rounded to the nearest natural number, a half to the even one. -/
def roundQuotient (num den : Nat) : Nat :=
  let quotient := num / den
  let twice := 2 * (num % den)
  if twice < den then quotient
  else if den < twice then quotient + 1
  else quotient + quotient % 2

/-- The factors `(a, b)` with `2 ^ e = a / b`. -/
def powerOfTwo (e : Int) : Nat × Nat :=
  (Nat.pow 2 e.toNat, Nat.pow 2 (-e).toNat)

/-- The exponent that a positive ratio has as a number: its mantissa there has 53 bits, or fewer
because the exponent is the least one. -/
def exponentOfRatio (num den : Nat) : Int :=
  let e : Int := (num.log2 : Int) - den.log2
  let (a, b) := powerOfTwo e
  let floorLog := if den * a ≤ num * b then e else e - 1
  max (floorLog - 52) (-1074)

/-- The number nearest to `± num / den`, unless it lies beyond the greatest number. -/
def ofRatio? (negative : Bool) (num den : Nat) : Option Binary64 :=
  if num = 0 then some (zero negative)
  else
    let e := exponentOfRatio num den
    let (a, b) := powerOfTwo e
    let m := roundQuotient (num * b) (den * a)
    -- Rounded up to `2 ^ 53`, the mantissa has a bit too many.
    let (m, e) := if m = 9007199254740992 then (4503599627370496, e + 1) else (m, e)
    if 971 < e then none else some ⟨negative, m, e⟩

/-- The nearest number to the product, unless it is too great. -/
def mul? (x y : Binary64) : Option Binary64 :=
  let (a, b) := powerOfTwo (x.exponent + y.exponent)
  ofRatio? (x.negative != y.negative) (x.mantissa * y.mantissa * a) b

/-- The nearest number to the quotient by a number other than zero, unless it is too great. -/
def div? (x y : Binary64) : Option Binary64 :=
  let (a, b) := powerOfTwo (x.exponent - y.exponent)
  ofRatio? (x.negative != y.negative) (x.mantissa * a) (y.mantissa * b)

end Binary64

end AgentThreads
