import AgentThreads.Proofs.Outcomes
import AgentThreads.Proofs.Text.Lines
import AgentThreads.Session
import Mathlib

/-!
# Sessions line by line

What a line is read as depends on the line alone, without the blanks at its ends. So a session that is
cut between two lines is read as its first part and then its second, with the lines of the second
counted on from those of the first, and padding around the lines changes nothing.
-/

namespace AgentThreads.Session

open Text

/-! ### Lines that are read the same -/

/-- The blanks at the ends of a line do not count. -/
theorem readLine_congr {line other : List Char} (h : trim line = trim other) :
    readLine line = readLine other := by
  rw [readLine, readLine, h]

theorem readLines_congr {lines others : List (List Char)} (h : lines.map trim = others.map trim)
    (number : Nat) : readLines number lines = readLines number others := by
  induction lines generalizing others number with
  | nil => rw [List.map_eq_nil_iff.mp h.symm]
  | cons line lines ih =>
    cases others with
    | nil => cases h
    | cons other others =>
      obtain ⟨hline, hlines⟩ := List.cons.inj h
      simp only [readLines, readLine_congr hline, ih hlines]

/-! ### Lines after others -/

/-- The fault as it is reported when the line stands further down. -/
def LineFault.further (fault : LineFault) (lines : Nat) : LineFault :=
  { fault with line := fault.line + lines }

/-- Lines are read the same wherever they stand. -/
theorem readLines_add (number further : Nat) (lines : List (List Char)) :
    readLines (number + further) lines =
      (readLines number lines).mapError (·.further further) := by
  induction lines generalizing number with
  | nil => rfl
  | cons line lines ih =>
    have later := ih (number + 1)
    rw [Nat.add_right_comm] at later
    rw [readLines, readLines, later]
    cases readLine line with
    | error fault => rfl
    | ok event => cases readLines (number + 1) lines <;> rfl

/-- The lines of a second part are read after those of a first. -/
theorem readLines_append (number : Nat) (lines others : List (List Char)) :
    readLines number (lines ++ others) = (do
      let events ← readLines number lines
      (readLines (number + lines.length) others).map (events ++ ·)) := by
  induction lines generalizing number with
  | nil =>
    rw [List.nil_append, readLines, ok_bind, List.length_nil, Nat.add_zero]
    cases readLines number others <;> rfl
  | cons line lines ih =>
    rw [List.cons_append, readLines, readLines, ih, List.length_cons, Nat.add_comm lines.length,
      ← Nat.add_assoc]
    cases readLine line with
    | error fault => rfl
    | ok event =>
      cases readLines (number + 1) lines with
      | error fault => rfl
      | ok events =>
        dsimp only [map_ok, ok_bind]
        cases readLines (number + 1 + lines.length) others with
        | error fault => rfl
        | ok more => rw [map_ok, map_ok, map_ok, List.append_assoc]

/-- A blank line at the end holds nothing. -/
theorem readLines_concat_nil (number : Nat) (lines : List (List Char)) :
    readLines number (lines ++ [[]]) = readLines number lines := by
  rw [readLines_append]
  cases readLines number lines with
  | error fault => rfl
  | ok events =>
    have nothing : readLines (number + lines.length) [[]] = .ok [] := rfl
    rw [nothing, ok_bind, map_ok, List.append_nil]

/-- A text that begins a line behind another is read after it. Its lines are counted on from the line
feeds of the other. -/
theorem readEvents_append {a : List Char} (ha : EndsLine a) (b : List Char) :
    readEvents (a ++ b) = (do
      let events ← readEvents a
      ((readEvents b).mapError (·.further (a.count '\n'))).map (events ++ ·)) := by
  rcases ha with rfl | ⟨t, rfl⟩
  · have same : (readEvents b).mapError (·.further 0) = readEvents b := (readLines_add 1 0 _).symm
    have nothing : readEvents [] = .ok [] := rfl
    rw [List.nil_append, List.count_nil, same, nothing, ok_bind]
    cases readEvents b <;> rfl
  · have first : lines (t ++ ['\n']) = lines t ++ [[]] := lines_append_cons t []
    have both : lines (t ++ ['\n'] ++ b) = lines t ++ lines b := by
      rw [List.append_assoc, List.singleton_append, lines_append_cons]
    have count : (t ++ ['\n']).count '\n' = (lines t).length := by
      rw [length_lines, List.count_append, List.count_singleton_self]
    rw [readEvents, both, readLines_append, readEvents, first, readLines_concat_nil, count, readEvents,
      readLines_add]

/-! ### Sessions -/

section Texts

variable {path : Path} {text : String}

theorem ofText_eq_ok_iff {session : Session} : ofText path text = .ok session ↔
    ∃ events, readEvents text.toList = .ok events ∧ session = ⟨path, events⟩ := by
  rw [ofText]
  cases readEvents text.toList with
  | error fault => simp
  | ok events => simp [eq_comm]

theorem ofText_eq_error_iff {failure : Failure} : ofText path text = .error failure ↔
    ∃ fault, readEvents text.toList = .error fault ∧
      failure = .badLine path fault.line fault.fault := by
  rw [ofText]
  cases readEvents text.toList with
  | error fault => simp [eq_comm]
  | ok events => simp

end Texts

/-- **A session is read line by line.** If a text that ends a line fails, it fails the same whatever
follows it. If it does not, its events come before those of what follows, and if what follows fails at
a line, the whole fails for the same reason that many lines further down. Carriage returns before line
feeds and blanks around the lines change nothing. -/
theorem read_line_by_line (path : Path) :
    (∀ a b : String, EndsLine a.toList →
      (∀ failure, ofText path a = .error failure → ofText path (a ++ b) = .error failure) ∧
      (∀ events more, ofText path a = .ok ⟨path, events⟩ → ofText path b = .ok ⟨path, more⟩ →
        ofText path (a ++ b) = .ok ⟨path, events ++ more⟩) ∧
      (∀ events failure, ofText path a = .ok ⟨path, events⟩ → ofText path b = .error failure →
        ∃ line fault, failure = .badLine path line fault ∧ ofText path (a ++ b) =
          .error (.badLine path (line + a.toList.count '\n') fault))) ∧
      ∀ a b : String, Respaced a.toList b.toList → ofText path a = ofText path b := by
  refine ⟨fun a b ha => ?_, fun a b h => ?_⟩
  · have whole : readEvents (a ++ b).toList = _ :=
      (congrArg readEvents String.toList_append).trans (readEvents_append ha b.toList)
    refine ⟨fun failure hfailure => ?_, fun events more hevents hmore => ?_,
      fun events failure hevents hfailure => ?_⟩
    · obtain ⟨fault, hfault, rfl⟩ := ofText_eq_error_iff.mp hfailure
      refine ofText_eq_error_iff.mpr ⟨fault, ?_, rfl⟩
      rw [whole, hfault, error_bind]
    · obtain ⟨_, hread, ⟨⟩⟩ := ofText_eq_ok_iff.mp hevents
      obtain ⟨_, hread', ⟨⟩⟩ := ofText_eq_ok_iff.mp hmore
      refine ofText_eq_ok_iff.mpr ⟨_, ?_, rfl⟩
      rw [whole, hread, hread', ok_bind, mapError_ok, map_ok]
    · obtain ⟨_, hread, ⟨⟩⟩ := ofText_eq_ok_iff.mp hevents
      obtain ⟨fault, hfault, rfl⟩ := ofText_eq_error_iff.mp hfailure
      refine ⟨fault.line, fault.fault, rfl, ofText_eq_error_iff.mpr ⟨fault.further _, ?_, rfl⟩⟩
      rw [whole, hread, hfault, ok_bind, mapError_error, map_error]
  · have same : readEvents a.toList = readEvents b.toList := readLines_congr h.map_trim_lines 1
    rw [ofText, ofText, same]

/-- A message, and a line of blanks. -/
def oneMessage : String :=
  "\x7b\"kind\":\"message\",\"timestamp\":0\x7d\n \n"

/-- The same with a wide space before the first line and a carriage return in the last. -/
def oneMessageRespaced : String :=
  "\u2003\x7b\"kind\":\"message\",\"timestamp\":0\x7d\n \r\n"

/-- An empty line, and one that is not an event and does not end. -/
def lateFault : String :=
  "\n\x7b\"kind\":\"bogus\",\"timestamp\":0\x7d"

theorem respaced_oneMessage : Respaced oneMessage.toList oneMessageRespaced.toList := by
  have blank : IsPadding ['\u2003'] := by
    intro c hc
    rw [List.mem_singleton.mp hc]
    decide
  have before : oneMessage.toList = oneMessage.toList.dropLast ++ ['\n'] := by decide
  have after : oneMessageRespaced.toList =
      '\u2003' :: oneMessage.toList.dropLast ++ ['\r', '\n'] := by decide
  have first : Respaced oneMessage.toList ('\u2003' :: oneMessage.toList) :=
    .atStart oneMessage.toList (.inl rfl) blank
  rw [before] at first ⊢
  rw [after]
  exact first.trans (.carriageReturn ('\u2003' :: oneMessage.toList.dropLast) [])

/-- The second line of `lateFault` is the fourth when it stands after `oneMessage`, which is read the
same with other blanks. -/
theorem read_line_by_line_late_fault :
    let path := Path.ofString "s.jsonl"
    let message : Event := { kind := .message, time := ⟨0, 0⟩ }
    EndsLine oneMessage.toList ∧
      ofText path oneMessage = .ok ⟨path, [message]⟩ ∧
      ofText path lateFault = .error (.badLine path 2 (.unknownKind "bogus")) ∧
      ofText path (oneMessage ++ lateFault) = .error (.badLine path 4 (.unknownKind "bogus")) ∧
      Respaced oneMessage.toList oneMessageRespaced.toList ∧
      ofText path oneMessageRespaced = .ok ⟨path, [message]⟩ := by
  intro path message
  have ends : EndsLine oneMessage.toList := .inr ⟨oneMessage.toList.dropLast, by decide⟩
  have read : ofText path oneMessage = .ok ⟨path, [message]⟩ := by cbv
  have fault : ofText path lateFault = .error (.badLine path 2 (.unknownKind "bogus")) := by cbv
  obtain ⟨cut, same⟩ := read_line_by_line path
  obtain ⟨line, what, heq, whole⟩ := (cut oneMessage lateFault ends).2.2 _ _ read fault
  cases heq
  exact ⟨ends, read, fault, whole, respaced_oneMessage, (same _ _ respaced_oneMessage).symm.trans read⟩

end AgentThreads.Session
