import AgentThreads.Event.Writer
import AgentThreads.Proofs.Event.Reading
import Mathlib

/-!
# Times that are read again

A time is read from milliseconds or from a timestamp, and written as a timestamp. Within the years
from 0 to 9999 of UTC it can be read again, but for the digits below the millisecond. Outside of them
it cannot, although it may have been read: milliseconds reach farther than four digits of a year, and
the zone of a timestamp can carry its last hours into the year 10000, and its first into the year -1.
-/

namespace AgentThreads.Event

variable {e : Event}

theorem instantOf_string {text : List Char} : instantOf (.string (String.ofList text)) =
    (Rfc3339.read text).mapError (.badTimestamp (String.ofList text)) := by
  rw [instantOf, String.toList_ofList]

/-- A time of a year with four digits can be read again. -/
theorem instantOf_timestamp (ht : e.time.Valid) (hfrom : 0 ≤ e.time.date.year)
    (hto : e.time.date.year ≤ 9999) : instantOf (.string e.timestamp) = .ok e.time.cut := by
  rw [timestamp, instantOf_string, Rfc3339.read_write ht hfrom hto, mapError_ok]

/-- A time of another year cannot. -/
theorem instantOf_timestamp_of_year (h : ¬(0 ≤ e.time.date.year ∧ e.time.date.year ≤ 9999)) :
    instantOf (.string e.timestamp) = .error (.badTimestamp e.timestamp .invalid) := by
  rw [timestamp, instantOf_string, Rfc3339.read_write_of_year h, mapError_error]

/-- **Times that are read again**: whether a time was read from milliseconds or from a timestamp, the
timestamp that is written for it is read as the same time without the digits below the millisecond, a
leap second as a leap second, if its year in UTC has four digits. If not, what is written is no
timestamp. -/
theorem timestamp_read_again (value : Json) (e : Event) (h : instantOf value = .ok e.time) :
    (instantOf (.string e.timestamp) =
      if 0 ≤ e.time.date.year ∧ e.time.date.year ≤ 9999 then .ok e.time.cut
      else .error (.badTimestamp e.timestamp .invalid)) ∧
      e.time.cut.isLeap = e.time.isLeap := by
  refine ⟨?_, e.time.isLeap_cut⟩
  by_cases hyear : 0 ≤ e.time.date.year ∧ e.time.date.year ≤ 9999
  · rw [if_pos hyear]
    exact instantOf_timestamp (valid_of_instantOf h) hyear.1 hyear.2
  · rw [if_neg hyear]
    exact instantOf_timestamp_of_year hyear

/-- A leap second at the end of a year, in a zone where the next year has begun. -/
theorem timestamp_read_again_leap_second :
    let e : Event := { kind := .message, time := ⟨1483228799, 1123456700⟩ }
    instantOf (.string "2017-01-01T05:29:60.1234567+05:30") = .ok e.time ∧
      e.timestamp = "2016-12-31T23:59:60.123Z" ∧ e.time.date.year = 2016 ∧
      instantOf (.string e.timestamp) = .ok ⟨1483228799, 1123000000⟩ := by
  intro e
  have read : instantOf (.string "2017-01-01T05:29:60.1234567+05:30") = .ok e.time := by cbv
  have cut : e.time.cut = ⟨1483228799, 1123000000⟩ := by decide
  have again := (timestamp_read_again _ e read).1
  rw [if_pos (by decide), cut] at again
  exact ⟨read, by cbv, by decide, again⟩

/-- The last hour of the year 9999 in a zone behind UTC is the first of the year 10000, and what is
written for it is no timestamp. -/
theorem timestamp_not_read_again :
    let e : Event := { kind := .message, time := ⟨253402302600, 0⟩ }
    instantOf (.string "9999-12-31T23:30:00-01:00") = .ok e.time ∧
      e.timestamp = "+10000-01-01T00:30:00.000Z" ∧
      instantOf (.string e.timestamp) = .error (.badTimestamp e.timestamp .invalid) := by
  intro e
  have read : instantOf (.string "9999-12-31T23:30:00-01:00") = .ok e.time := by cbv
  exact ⟨read, by cbv, instantOf_timestamp_of_year (by decide)⟩

end AgentThreads.Event
