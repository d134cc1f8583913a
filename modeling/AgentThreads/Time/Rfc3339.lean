import AgentThreads.Text.Utf8
import AgentThreads.Time.Calendar
import AgentThreads.Time.Instant

/-!
# Timestamps of RFC 3339

Reading `2026-02-23T10:00:00.5+01:00` and the like, and writing an instant in UTC with milliseconds.
A timestamp is read from the left: each part is checked when it has been read, the time of day after
its fraction, the offset after the end of the text.
-/

namespace AgentThreads.Rfc3339

/-- Why a text is not a timestamp. -/
inductive Fault where
  /-- The text ends too early. -/
  | tooShort
  /-- A character is not the one needed. -/
  | invalid
  /-- A number is out of its range. -/
  | outOfRange
  /-- Something follows the timestamp. -/
  | tooLong
  deriving DecidableEq

/-- The fault in words. -/
def Fault.message : Fault → String
  | tooShort => "premature end of input"
  | invalid => "input contains invalid characters"
  | outOfRange => "input is out of range"
  | tooLong => "trailing input"

/-- The number that decimal digits stand for. -/
def number (ds : List Char) : Nat :=
  Nat.ofDigitChars 10 ds 0

/-- What is wrong with a text that has fewer than two characters where two digits are needed: it is
too short unless a character of several bytes stands there. -/
def shortPair (s : List Char) : Fault :=
  if Text.Utf8.byteCount s < 2 then .tooShort else .invalid

/-- Two digits. -/
def scanPair : List Char → Except Fault (Nat × List Char)
  | a :: b :: s => if a.isDigit && b.isDigit then .ok (number [a, b], s) else .error .invalid
  | s => .error (shortPair s)

/-- The four digits of a year. -/
def scanYear : List Char → Except Fault (Nat × List Char)
  | a :: b :: c :: d :: s =>
    if [a, b, c, d].all Char.isDigit then .ok (number [a, b, c, d], s) else .error .invalid
  | _ => .error .invalid

/-- One character out of those given. -/
def scanOneOf (allowed : List Char) : List Char → Except Fault (List Char)
  | [] => .error .tooShort
  | c :: s => if c ∈ allowed then .ok s else .error .invalid

/-- The nanoseconds of a fraction; digits after the ninth are dropped. -/
def fractionNanos (ds : List Char) : Nat :=
  number (ds.take 9) * Nat.pow 10 (9 - ds.length)

/-- The fraction of a second, which may be missing. -/
def scanFraction : List Char → Except Fault (Nat × List Char)
  | '.' :: s =>
    match s.takeWhile Char.isDigit, s with
    | [], [] => .error .tooShort
    | [], _ => .error .invalid
    | ds, s => .ok (fractionNanos ds, s.dropWhile Char.isDigit)
  | s => .ok (0, s)

/-- The minutes of an offset. -/
def scanOffsetMinutes : List Char → Except Fault (Nat × List Char)
  | a :: b :: s =>
    if a.isDigit && b.isDigit then
      if a < '6' then .ok (number [a, b], s) else .error .outOfRange
    else .error .invalid
  | s => .error (shortPair s)

/-- The hours and minutes of an offset, in minutes. -/
def scanOffset (s : List Char) : Except Fault (Nat × List Char) := do
  let (hours, s) ← scanPair s
  let s ← scanOneOf [':'] s
  let (minutes, s) ← scanOffsetMinutes s
  return (60 * hours + minutes, s)

/-- The zone, as the minutes by which it is ahead of UTC. The minus sign may be `U+2212`. -/
def scanZone : List Char → Except Fault (Int × List Char)
  | [] => .error .tooShort
  | c :: s =>
    if c = 'Z' ∨ c = 'z' then .ok (0, s)
    else if c = '+' then (scanOffset s).map fun (minutes, s) => ((minutes : Int), s)
    else if c = '-' ∨ c = '\u2212' then
      (scanOffset s).map fun (minutes, s) => (-(minutes : Int), s)
    else .error .invalid

/-- The instant of a date, a time of day and a zone. Second 60 is the leap second after second 59,
at any minute. -/
def toInstant (date : Date) (hour minute second nanos : Nat) (offset : Int) : Instant where
  seconds := date.toDays * 86400 + (3600 * hour + 60 * minute + min second 59 : Nat) - 60 * offset
  nanos := if second = 60 then 1000000000 + nanos else nanos

/-- Reads a timestamp. None has fewer than 19 bytes. -/
def read (s : List Char) : Except Fault Instant := do
  if Text.Utf8.byteCount s < 19 then throw .tooShort
  let (year, s) ← scanYear s
  let s ← scanOneOf ['-'] s
  let (month, s) ← scanPair s
  let s ← scanOneOf ['-'] s
  let (day, s) ← scanPair s
  let date : Date := ⟨year, month, day⟩
  if !date.isValid then throw .outOfRange
  let s ← scanOneOf ['T', 't', ' '] s
  let (hour, s) ← scanPair s
  let s ← scanOneOf [':'] s
  let (minute, s) ← scanPair s
  let s ← scanOneOf [':'] s
  let (second, s) ← scanPair s
  let (nanos, s) ← scanFraction s
  if 23 < hour ∨ 59 < minute ∨ 60 < second then throw .outOfRange
  let (offset, s) ← scanZone s
  if !s.isEmpty then throw .tooLong
  if 24 * 60 ≤ offset.natAbs then throw .outOfRange
  return toInstant date hour minute second nanos offset

/-- A number in at least so many digits. -/
def padded (width n : Nat) : List Char :=
  (Nat.toDigits 10 n).leftpad width '0'

/-- A year; one that does not have four digits is written with a sign. -/
def yearChars (year : Int) : List Char :=
  if 0 ≤ year ∧ year ≤ 9999 then padded 4 year.toNat
  else (if year < 0 then '-' else '+') :: padded 4 year.natAbs

/-- Writes an instant in UTC with milliseconds, cut off and not rounded. A leap second is second
60. -/
def write (t : Instant) : List Char :=
  let date := Date.ofDays (t.seconds / 86400)
  let time := t.secondOfDay
  let second := time % 60 + if t.isLeap then 1 else 0
  yearChars date.year ++ '-' :: padded 2 date.month ++ '-' :: padded 2 date.day
    ++ 'T' :: padded 2 (time / 3600) ++ ':' :: padded 2 (time / 60 % 60) ++ ':' :: padded 2 second
    ++ '.' :: padded 3 (t.nanos % 1000000000 / 1000000) ++ ['Z']

end AgentThreads.Rfc3339
