import AgentThreads.Text.Utf8

/-!
# Paths

A path is a sequence of bytes: names separated by slashes. It need not be text.
-/

namespace AgentThreads

/-- The name of a directory entry. -/
abbrev Name := List UInt8

/-- A path. -/
structure Path where
  /-- The bytes as they were given. -/
  bytes : List UInt8
  deriving DecidableEq, Inhabited

namespace Path

/-- The byte that separates names. -/
def slash : UInt8 := '/'.toUInt8

/-- The name by which a directory names itself. -/
def here : Name := ['.'.toUInt8]

/-- The name by which a directory names the one above it. -/
def above : Name := ['.'.toUInt8, '.'.toUInt8]

/-- The path that a text stands for. -/
def ofString (s : String) : Path :=
  ⟨s.toByteArray.data.toList⟩

/-- The path as a text to look at. -/
def display (p : Path) : String :=
  Text.Utf8.display p.bytes

/-- The path as a text, if it is one. -/
def toText? (p : Path) : Option String :=
  Text.Utf8.toText? p.bytes

/-- The parts between the slashes, the empty ones included. -/
def components (p : Path) : List Name :=
  p.bytes.splitOn slash

/-- What follows the last slash. -/
def fileName (p : Path) : Name :=
  p.components.getLast?.getD []

/-- The greatest length of a path that the system takes, in bytes. -/
def maxLength : Nat := 4095

/-- The system does not take the path. -/
def isTooLong (p : Path) : Bool :=
  maxLength < p.bytes.length

/-- The path of an entry of the directory that the path names. -/
def join (p : Path) (name : Name) : Path :=
  if p.bytes.isEmpty || p.bytes.getLast? == some slash then ⟨p.bytes ++ name⟩
  else ⟨p.bytes ++ slash :: name⟩

/-- The path of what is reached from the directory that the path names. -/
def joinAll (p : Path) (names : List Name) : Path :=
  names.foldl join p

end Path

end AgentThreads
