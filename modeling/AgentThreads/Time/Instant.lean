/-!
# Instants

An instant is counted from 1970-01-01T00:00:00Z in days of 86400 seconds. A leap second shares its
second with the one before it and has 10⁹ nanoseconds more.
-/

namespace AgentThreads

/-- A point in time. -/
structure Instant where
  /-- Whole seconds, rounded down. -/
  seconds : Int
  /-- Nanoseconds after the whole second; `10 ^ 9` and more in a leap second. -/
  nanos : Nat
  deriving DecidableEq

namespace Instant

/-- The instant lies in a leap second. -/
def isLeap (t : Instant) : Bool :=
  1000000000 ≤ t.nanos

/-- The second of the day, from 0 to 86399. -/
def secondOfDay (t : Instant) : Nat :=
  (t.seconds % 86400).toNat

/-- The instant so many milliseconds from 1970-01-01T00:00:00Z, within the years from -262143 to
262142. -/
def ofMillis? (millis : Int) : Option Instant :=
  if -8334601228800000 ≤ millis ∧ millis ≤ 8210266876799999 then
    some ⟨millis / 1000, (millis % 1000).toNat * 1000000⟩
  else none

/-- The seconds that leap seconds add to the difference `a - b`. One of the two that is in a leap
second counts it if the other has the later, respectively the earlier, time of day. -/
def leapSeconds (a b : Instant) : Int :=
  if b.secondOfDay < a.secondOfDay ∧ b.isLeap then 1
  else if a.secondOfDay < b.secondOfDay ∧ a.isLeap then -1
  else 0

/-- The nanoseconds from `b` to `a`. -/
def nanosSince (a b : Instant) : Int :=
  (a.seconds - b.seconds + leapSeconds a b) * 1000000000 + (a.nanos - b.nanos)

/-- The whole milliseconds between two instants. -/
def millisBetween (a b : Instant) : Nat :=
  (nanosSince a b).natAbs / 1000000

end Instant

end AgentThreads
