import AgentThreads.Event.Reader
import AgentThreads.Failure
import AgentThreads.Text.Blank

/-!
# Sessions

A session is a text with an event on each line. Blank lines hold none, and blanks around an event do
not matter. The lines are counted from 1, the blank ones included.
-/

namespace AgentThreads

/-- A session: where it was found, and its events in order. -/
structure Session where
  /-- Where the session was found. -/
  path : Path
  /-- The events. -/
  events : List Event

namespace Session

/-- A line that holds no event although it is not blank. -/
structure LineFault where
  /-- The number of the line. -/
  line : Nat
  /-- What is wrong with it. -/
  fault : Event.Fault

/-- Reads a line; a blank one holds no event. -/
def readLine (line : List Char) : Except Event.Fault (Option Event) :=
  let s := Text.trim line
  if s.isEmpty then .ok none else (Event.read s).map some

/-- Reads lines of which the first has the number given. -/
def readLines : Nat → List (List Char) → Except LineFault (List Event)
  | _, [] => .ok []
  | n, line :: rest =>
    match readLine line with
    | .error fault => .error ⟨n, fault⟩
    | .ok event => (readLines (n + 1) rest).map (event.toList ++ ·)

/-- Reads the events of a text. -/
def readEvents (s : List Char) : Except LineFault (List Event) :=
  readLines 1 (Text.lines s)

/-- Reads a session that was found at a path. -/
def ofText (path : Path) (text : String) : Except Failure Session :=
  match readEvents text.toList with
  | .ok events => .ok ⟨path, events⟩
  | .error ⟨line, fault⟩ => .error (.badLine path line fault)

end Session

end AgentThreads
