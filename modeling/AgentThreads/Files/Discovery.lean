import AgentThreads.Files.Tree

/-!
# Finding session files

The session files below a directory, depth first and by the bytes of the names in each directory.
Links below the directory are neither followed nor listed. A directory is opened by its path, so one
with a path that is too long is passed over; a file is listed whatever the length of its path.
-/

namespace AgentThreads.Files

/-- The end of the name of a session file. -/
def sessionSuffix : Name := ".jsonl".toByteArray.data.toList

/-- The name is that of a session file: something comes before the suffix. -/
def isSessionName (name : Name) : Bool :=
  sessionSuffix.length < name.length && sessionSuffix.isSuffixOf name

/-- Where a regular file lies below a directory: the names on the way. -/
abbrev Location := List Name

mutual

/-- The regular files at or below a node. -/
def Node.files : Node → List Location
  | .file _ => [[]]
  | .link _ => []
  | .directory entries =>
    ((filesByEntry entries).mergeSort fun a b => decide (a.1 ≤ b.1)).flatMap
      fun (name, locations) => locations.map (name :: ·)

/-- The regular files at or below each entry. -/
def filesByEntry : List (Name × Node) → List (Name × List Location)
  | [] => []
  | (name, node) :: rest => (name, node.files) :: filesByEntry rest

end

/-- The session files below a node. -/
def Node.sessionFiles (node : Node) : List Location :=
  node.files.filter fun location => isSessionName (location.getLast?.getD [])

/-- The directory that holds a file can be opened by its path. The directories above it have shorter
paths. -/
def isReached (path : Path) (location : Location) : Bool :=
  !(path.joinAll location.dropLast).isTooLong

/-- The paths of the session files below the node that a path names. -/
def Node.sessionPaths (path : Path) (node : Node) : List Path :=
  (node.sessionFiles.filter (isReached path)).map path.joinAll

/-- The paths of the session files that a path leads to: the file that it names, or those below the
directory that it names. A link at the end of the path is followed to a directory only. -/
def discover (view : View) (path : Path) : List Path :=
  match view.entry path with
  | .ok (.file _) => if isSessionName path.fileName then [path] else []
  | .ok (.directory entries) => (Node.directory entries).sessionPaths path
  | .ok (.link _) =>
    match view.target path with
    | .ok (.directory entries) => (Node.directory entries).sessionPaths path
    | _ => []
  | .error _ => []

end AgentThreads.Files
