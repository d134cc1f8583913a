import AgentThreads.Event.Fault
import AgentThreads.Files.Tree

/-!
# Failures

What can go wrong between the settings and the report, and how it is said.
-/

namespace AgentThreads

/-- Why there is no report. -/
inductive Failure where
  /-- A setting has a value that it cannot have. -/
  | invalidSetting (key value : String)
  /-- A path is not text and cannot be written as JSON. -/
  | pathNotText
  /-- There are no session files below a directory. -/
  | noSessionFiles (path : Path)
  /-- A session file has no content. -/
  | emptyFile (path : Path)
  /-- A session file is not text. -/
  | fileNotText (path : Path)
  /-- A file cannot be reached or read. -/
  | unreadable (path : Path) (fault : Files.Fault)
  /-- A line of a session is not an event. -/
  | badLine (path : Path) (line : Nat) (fault : Event.Fault)

/-- The failure in words. -/
def Failure.message : Failure → String
  | invalidSetting key value => "invalid config value for " ++ key ++ ": " ++ value
  | pathNotText => "serialization error: path contains invalid UTF-8 characters"
  | noSessionFiles path => "no session files found under " ++ path.display
  | emptyFile path => "event file is empty: " ++ path.display
  | fileNotText path => "event file is not valid UTF-8: " ++ path.display
  | unreadable path fault => "i/o error on " ++ path.display ++ ": " ++ fault.message
  | badLine path line fault =>
    "invalid json line in " ++ path.display ++ " at line " ++ toString line ++ ": " ++ fault.message

end AgentThreads
