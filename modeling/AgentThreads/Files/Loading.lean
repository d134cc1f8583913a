import AgentThreads.Files.Discovery
import AgentThreads.Session

/-!
# Loading sessions

A file is one session, whatever its name; a directory is the sessions of the session files below it.
Loading gives all of them or the first failure.
-/

namespace AgentThreads.Files

/-- The content of a file as a text, which must not be empty. -/
def readText (view : View) (path : Path) : Except Failure String :=
  match view.target path with
  | .error fault => .error (.unreadable path fault)
  | .ok (.file content) =>
    if content.isEmpty then .error (.emptyFile path)
    else match String.fromUTF8? content with
      | some text => .ok text
      | none => .error (.fileNotText path)
  | .ok _ => .error (.unreadable path .isDirectory)

/-- Reads the session in a file. -/
def readSession (view : View) (path : Path) : Except Failure Session := do
  Session.ofText path (← readText view path)

/-- Loads the sessions that a path leads to. -/
def load (view : View) (path : Path) : Except Failure (List Session) :=
  match view.target path with
  | .error fault => .error (.unreadable path fault)
  | .ok (.directory _) =>
    match discover view path with
    | [] => .error (.noSessionFiles path)
    | files => files.mapM (readSession view)
  | .ok _ => (readSession view path).map ([·])

end AgentThreads.Files
