import AgentThreads.Proofs.Event.RoundTrip
import AgentThreads.Proofs.Text.Lines
import Mathlib

/-!
# Written sessions

The events of a session that was read can be written, each on a line of its own, and read again: they
are the same events in the same order, with times cut to the millisecond. From then on nothing is
lost: these events are written the same.
-/

namespace AgentThreads

/-! ### Lines -/

namespace Event

/-- The line of an event ends nowhere before its end. -/
theorem newLine_not_mem_toLine (e : Event) : '\n' ∉ e.toLine := by
  intro hmem
  have visible := Json.isVisible_of_mem_compact '\n' hmem
  cases visible

/-- The line of an event begins and ends with a brace. -/
theorem toLine_eq (e : Event) : ∃ s, e.toLine = '\x7b' :: s ++ ['\x7d'] :=
  ⟨_, rfl⟩

end Event

namespace Session

/-- Events, each on a line of its own. -/
def writeEvents (events : List Event) : List Char :=
  events.flatMap fun e => e.toLine ++ ['\n']

theorem lines_writeEvents (events : List Event) :
    Text.lines (writeEvents events) = events.map Event.toLine ++ [[]] := by
  induction events with
  | nil => rfl
  | cons e events ih =>
    rw [Text.lines] at ih ⊢
    rw [writeEvents, List.flatMap_cons, List.append_assoc, List.singleton_append,
      List.splitOn_append_cons_self_of_not_mem e.newLine_not_mem_toLine, ← writeEvents, ih]
    rfl

/-! ### Reading again -/

theorem readLine_toLine {e : Event} (he : e.Writable) : readLine e.toLine = .ok (some e.cut) := by
  obtain ⟨s, hs⟩ := e.toLine_eq
  have trimmed : Text.trim e.toLine = e.toLine := by
    rw [hs]
    exact Text.trim_eq_self (by decide) (by decide) s
  have nonempty : e.toLine.isEmpty = false := by
    rw [hs]
    rfl
  rw [readLine, trimmed]
  simp [nonempty, Event.read_toLine he]

theorem readLines_toLine {events : List Event} (h : ∀ e ∈ events, e.Writable) (number : Nat) :
    readLines number (events.map Event.toLine ++ [[]]) = .ok (events.map Event.cut) := by
  induction events generalizing number with
  | nil => rfl
  | cons e events ih =>
    obtain ⟨he, hevents⟩ := List.forall_mem_cons.mp h
    rw [List.map_cons, List.cons_append, readLines, readLine_toLine he]
    dsimp only
    rw [ih hevents]
    rfl

theorem writeEvents_map_cut (events : List Event) :
    writeEvents (events.map Event.cut) = writeEvents events := by
  rw [writeEvents, List.flatMap_map]
  exact List.flatMap_congr fun e _ => by rw [Event.toLine, Event.toJson_cut, ← Event.toLine]

section

variable {text : List Char} {events : List Event} (hread : readEvents text = .ok events)
  (hyears : ∀ e ∈ events, 0 ≤ e.time.date.year ∧ e.time.date.year ≤ 9999)
  (hint : ∀ e ∈ events, e.isIntegral)
include hread hyears hint

/-- The events of a session can be written and read again. -/
theorem writable_of_readEvents : ∀ e ∈ events, e.Writable := fun e he =>
  ⟨isRead_of_readEvents hread e he, hint e he, (hyears e he).1, (hyears e he).2⟩

/-- **A session that is written is read back.** Its events are the same in the same order, with times
cut to the millisecond, and they are written the same again. -/
theorem readEvents_writeEvents :
    readEvents (writeEvents events) = .ok (events.map Event.cut) ∧
      writeEvents (events.map Event.cut) = writeEvents events := by
  have writable := writable_of_readEvents hread hyears hint
  refine ⟨?_, writeEvents_map_cut events⟩
  rw [readEvents, lines_writeEvents]
  exact readLines_toLine writable 1

end

/-- A leap second in another zone, a kind as an object, a member that nobody asks for, an event as an
array, and a number where the metadata should have a text. -/
def otherSpellings : String :=
  "\x7b\"timestamp\": \"2016-12-31T18:59:60.1234567-05:00\", \"kind\": \x7b\"tool_call\": null\x7d, "
    ++ "\"x\": [1.5], \"metadata\": \x7b\"toolName\": \"Task\", \"toolId\": \"\\u000a\"\x7d\x7d\n"
    ++ "[null, \"message\", -1, [], \x7b\"parentToolUseId\": \"\\n\", \"status\": 7\x7d]"

/-- The events of `otherSpellings`. -/
def spelledEvents : List Event :=
  [{ kind := .toolCall
     time := ⟨1483228799, 1123456700⟩
     metadata := { toolId := some "\n", toolName := some "Task" } },
    { kind := .message
      time := ⟨-1, 999000000⟩
      content := .array []
      metadata := { parentId := some "\n", extra := [("status", .int 7)] } }]

set_option maxRecDepth 20000 in
theorem readEvents_otherSpellings : readEvents otherSpellings.toList = .ok spelledEvents := by
  cbv

/-- What is written of `otherSpellings` is read back with a leap second that has its milliseconds. -/
theorem readEvents_writeEvents_other_spellings :
    readEvents otherSpellings.toList = .ok spelledEvents ∧
      (∀ e ∈ spelledEvents, 0 ≤ e.time.date.year ∧ e.time.date.year ≤ 9999) ∧
      (∀ e ∈ spelledEvents, e.isIntegral) ∧
      readEvents (writeEvents spelledEvents) = .ok (spelledEvents.map Event.cut) ∧
      writeEvents (spelledEvents.map Event.cut) = writeEvents spelledEvents ∧
      (spelledEvents.map Event.cut).map (·.time.nanos) = [1123000000, 999000000] ∧
      spelledEvents.map (·.timestamp) = ["2016-12-31T23:59:60.123Z", "1969-12-31T23:59:59.999Z"] := by
  have years : ∀ e ∈ spelledEvents, 0 ≤ e.time.date.year ∧ e.time.date.year ≤ 9999 := by decide
  have integral : ∀ e ∈ spelledEvents, e.isIntegral := by decide
  obtain ⟨again, same⟩ := readEvents_writeEvents readEvents_otherSpellings years integral
  exact ⟨readEvents_otherSpellings, years, integral, again, same, by decide, by cbv⟩

end Session

end AgentThreads
