import AgentThreads.Json.Fault
import AgentThreads.Json.Basic

/-!
# Numerals

Numbers as JSON writes them. A numeral is first cut out of the text, which settles whether it is well
written, and then given its value: an integer where one of 64 bits fits, else a binary number.

The binary number is computed from at most 64 bits of the digits by one multiplication or division
by a power of ten, each rounded, so its last bit may differ from that of the nearest number.
-/

namespace AgentThreads.Json

/-- The parts of a numeral. -/
structure Numeral where
  /-- There is a minus sign. -/
  negative : Bool
  /-- The digits before the point. -/
  whole : List Char
  /-- The digits after the point, if there is one. -/
  fraction : List Char
  /-- The sign and the digits of the exponent, if there is one. -/
  exponent : Option (Bool × List Char)

namespace Numeral

/-- One or more digits. `atEnd` is the fault of a text that ends before them. -/
def digits (atEnd : Fault) (s : List Char) : Except Fault (List Char × List Char) :=
  match s.takeWhile Char.isDigit, s.dropWhile Char.isDigit with
  | [], [] => .error atEnd
  | [], _ => .error .badNumber
  | ds, rest => .ok (ds, rest)

/-- The digits before the point. A leading zero stands alone. -/
def scanWhole (atEnd : Fault) (s : List Char) : Except Fault (List Char × List Char) := do
  let (ds, rest) ← digits atEnd s
  match ds with
  | '0' :: _ :: _ => .error .badNumber
  | _ => .ok (ds, rest)

/-- The digits after the point; none without a point. -/
def scanFraction (atEnd : Fault) : List Char → Except Fault (List Char × List Char)
  | '.' :: s => digits atEnd s
  | s => .ok ([], s)

/-- The exponent, whose sign is optional; `true` is the minus sign. -/
def scanExponent (atEnd : Fault) (s : List Char) :
    Except Fault (Option (Bool × List Char) × List Char) := do
  let signed (negative : Bool) (s : List Char) := do
    let (ds, rest) ← digits atEnd s
    return (some (negative, ds), rest)
  match s with
  | c :: s =>
    if c = 'e' ∨ c = 'E' then
      match s with
      | '-' :: s => signed true s
      | '+' :: s => signed false s
      | s => signed false s
    else return (none, c :: s)
  | [] => return (none, [])

/-- Cuts a numeral off the text. `atEnd` is the fault of a text that ends where a digit is needed. -/
def scan (atEnd : Fault) (s : List Char) : Except Fault (Numeral × List Char) := do
  let (negative, s) := match s with
    | '-' :: s => (true, s)
    | s => (false, s)
  let (whole, s) ← scanWhole atEnd s
  let (fraction, s) ← scanFraction atEnd s
  let (exponent, s) ← scanExponent atEnd s
  return (⟨negative, whole, fraction, exponent⟩, s)

/-- Appends digits to a number for as long as it stays below `2 ^ 64`, and gives the digits that are
left over. -/
def absorb (n : Nat) : List Char → Nat × List Char
  | [] => (n, [])
  | d :: ds =>
    let next := Nat.ofDigitChars 10 [d] n
    if next < 18446744073709551616 then absorb next ds else (n, d :: ds)

/-- The power of ten, rounded. -/
def powerOfTen (n : Nat) : Binary64 :=
  (Binary64.ofRatio? false (Nat.pow 10 n) 1).getD (.zero false)

/-- The number divided by `10 ^ n`, in steps of at most `10 ^ 308`. -/
def shrink (x : Binary64) (n : Nat) : Binary64 :=
  let by10 (k : Nat) := (x.div? (powerOfTen k)).getD (.zero false)
  if x.isZero then x
  else if n ≤ 308 then by10 n
  else shrink (by10 308) (n - 308)
termination_by n

/-- The number `n * 10 ^ e`, rounded after `n` and again after the power of ten. -/
def scale (n : Nat) (e : Int) : Except Fault Binary64 :=
  let x := (Binary64.ofRatio? false n 1).getD (.zero false)
  if 0 ≤ e then
    if x.isZero then .ok x
    else if 308 < e then .error .numberTooGreat
    else match x.mul? (powerOfTen e.toNat) with
      | some y => .ok y
      | none => .error .numberTooGreat
  else .ok (shrink x (-e).toNat)

/-- The value of a numeral as a binary number. An exponent of `2 ^ 31` or more is past all measure:
it gives zero, or a number that is too great. -/
def toBinary64 (x : Numeral) : Except Fault Binary64 := do
  let (n, cut) := absorb 0 x.whole
  let (n, left) := absorb n x.fraction
  let e : Int := cut.length - (x.fraction.length - left.length : Nat)
  let (negative, ds) := x.exponent.getD (false, [])
  let power := Nat.ofDigitChars 10 ds 0
  let y ←
    if power < 2147483648 then scale n (if negative then e - power else e + power)
    else if n = 0 ∨ negative then .ok (.zero false)
    else .error .numberTooGreat
  return if x.negative then y.neg else y

/-- The value of a numeral. Without point and exponent it is an integer if it fits in 64 bits, with
a sign if it has one; the integer zero has none. -/
def value (x : Numeral) : Except Fault Json :=
  let n := Nat.ofDigitChars 10 x.whole 0
  let isInt := x.fraction.isEmpty && x.exponent.isNone
  if isInt && !x.negative && n < 18446744073709551616 then .ok (.int n)
  else if isInt && x.negative && 0 < n && n ≤ 9223372036854775808 then .ok (.int (-n))
  else x.toBinary64.map .double

end Numeral

end AgentThreads.Json
