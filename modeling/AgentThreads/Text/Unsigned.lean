/-!
# Unsigned numbers

Natural numbers of 64 bits as people type them: decimal digits after an optional plus sign, with any
number of leading zeros.
-/

namespace AgentThreads.Text

/-- The number that a text stands for, if it is written as one and is below `2 ^ 64`. -/
def unsigned? (s : List Char) : Option Nat :=
  let digits := match s with
    | '+' :: s => s
    | s => s
  let n := Nat.ofDigitChars 10 digits 0
  if !digits.isEmpty && digits.all Char.isDigit && n < 18446744073709551616 then some n else none

end AgentThreads.Text
