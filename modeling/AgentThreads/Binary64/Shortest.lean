import AgentThreads.Binary64.Basic

/-!
# Shortest decimals

The decimal that stands for a binary number: of the decimals that round to the number, those on the
coarsest grid `… 100, 10, 1, 0.1 …` that has one, of these the nearest to the number, and of two at
the same distance the one with the even last digit.
-/

namespace AgentThreads.Binary64

/-- The decimal `digits * 10 ^ exponent`. -/
structure Decimal where
  /-- The digits as one natural number. -/
  digits : Nat
  /-- The power of ten that multiplies them. -/
  exponent : Int
  deriving DecidableEq

/-- A number without its sign, and the ends of the interval of values that round to it, all in units
of `unitNum / unitDen`. -/
structure Interval where
  /-- The lower end. -/
  low : Nat
  /-- The number. -/
  middle : Nat
  /-- The upper end. -/
  high : Nat
  /-- The ends themselves round to the number. -/
  closed : Bool
  /-- Numerator of the unit. -/
  unitNum : Nat
  /-- Denominator of the unit. -/
  unitDen : Nat

/-- The values that round to a number other than zero, in quarters of its last place. Below a power
of two the numbers lie twice as close. -/
def interval (x : Binary64) : Interval :=
  let (a, b) := powerOfTwo (x.exponent - 2)
  let below := if x.mantissa = 4503599627370496 ∧ -1074 < x.exponent then 1 else 2
  ⟨4 * x.mantissa - below, 4 * x.mantissa, 4 * x.mantissa + 2, x.mantissa % 2 == 0, a, b⟩

/-- The point of the grid `10 ^ k` nearest to the number of those that round to it. Only the two
points next to the number can be nearest. -/
def Interval.onGrid? (i : Interval) (k : Int) : Option Nat :=
  let num := i.unitNum * Nat.pow 10 (-k).toNat
  let den := i.unitDen * Nat.pow 10 k.toNat
  let inside (d : Nat) : Bool :=
    if i.closed then i.low * num ≤ d * den && d * den ≤ i.high * num
    else i.low * num < d * den && d * den < i.high * num
  let below := i.middle * num / den
  let nearest := roundQuotient (i.middle * num) den
  let other := if nearest = below then below + 1 else below
  if inside nearest then some nearest
  else if inside other then some other
  else none

/-- The grids from the coarsest to the finest that a number can need. -/
def grids : List Int :=
  (List.range 633).map fun (i : Nat) => 308 - (i : Int)

/-- The decimal that stands for the number without its sign. -/
def shortest (x : Binary64) : Decimal :=
  if x.isZero then ⟨0, 0⟩
  else
    let i := x.interval
    (grids.findSome? fun k => (i.onGrid? k).map (⟨·, k⟩)).getD ⟨0, 0⟩

end AgentThreads.Binary64
