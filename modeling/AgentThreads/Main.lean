import AgentThreads.Command.Outcome

/-!
# The command line

Reads the arguments and the environment, takes a picture of what the path names, and prints the
outcome. The picture of a directory holds what there is below it and, for each session file, what
reading it gave. A file that cannot be read keeps its fault to itself.
-/

namespace AgentThreads.Main

/-- The fault with a number of the system, which some calls give with a minus sign. -/
def faultOfNumber (code : UInt32) (details : String) : Files.Fault :=
  match (min code (-code)).toNat with
  | 2 => .notFound
  | 20 => .notDirectory
  | 21 => .isDirectory
  | 36 => .nameTooLong
  | 40 => .tooManyLinks
  | number => .refused (details.capitalize ++ " (os error " ++ toString number ++ ")")

/-- The fault behind an error of the system. -/
def faultOf : IO.Error → Files.Fault
  | .noFileOrDirectory _ code details => faultOfNumber code details
  | .inappropriateType _ code details | .invalidArgument _ code details
  | .permissionDenied _ code details | .resourceExhausted _ code details =>
    faultOfNumber code details
  | .hardwareFault code details | .resourceBusy code details | .otherError code details =>
    faultOfNumber code details
  | error => .refused error.toString

/-- What there is where a path leads. -/
structure Picture where
  /-- What the path names. The files below a directory stand in it without their content. -/
  node : Files.Node
  /-- The session files below a directory by their paths: each as it was read, or its fault. -/
  files : List (Path × Except Files.Fault Files.Node)

/-- Reads a file. -/
def readFile (path : Path) : IO (Except Files.Fault Files.Node) := do
  let some text := path.toText? | return .error .notFound
  try return .ok (.file (← IO.FS.readBinFile text))
  catch error => return .error (faultOf error)

/-- What is listed in a directory: nothing if it cannot be opened. -/
def listed (entries : IO (Array IO.FS.DirEntry)) : IO (Array IO.FS.DirEntry) :=
  try entries catch _ => return #[]

/-- The entries of the directory that a path names, if it names one. -/
def entries? (path : Path) : IO (Option (Array IO.FS.DirEntry)) := do
  let some text := path.toText? | return none
  try
    let place ← IO.FS.realPath text
    if (← place.metadata).type == .dir then some <$> listed place.readDir else return none
  catch _ => return none

/-- What directory entries are, without the content of files. An entry that cannot be looked at
counts as a file, so that reading it says why. -/
partial def shapes (entries : Array IO.FS.DirEntry) : IO (List (Name × Files.Node)) :=
  entries.toList.mapM fun entry => do
    let type? ← try some <$> (·.type) <$> entry.path.symlinkMetadata catch _ => pure none
    let node ← match type? with
      | some .dir => .directory <$> (listed entry.path.readDir >>= shapes)
      | some .file | none => pure (.file .empty)
      | _ => pure (.link ⟨[]⟩)
    return (Command.bytes entry.fileName, node)

/-- What a path names. Each session file below a directory is read by its own path. -/
def picture (path : Path) : IO (Except Files.Fault Picture) := do
  match ← entries? path with
  | some entries =>
    let node := .directory (← shapes entries)
    let files ← (node.sessionPaths path).mapM fun file => return (file, ← readFile file)
    return .ok ⟨node, files⟩
  | none => return (← readFile path).map (⟨·, []⟩)

/-- The view of a picture, in which a path other than the one that it was taken of names one of its
session files. -/
def viewOf (path : Path) (found : Except Files.Fault Picture) : Files.View :=
  let look (p : Path) : Except Files.Fault Files.Node := do
    let picture ← found
    if p = path then return picture.node
    (picture.files.lookup p).getD (.error .notFound)
  ⟨look, look⟩

/-- The environment variables that are settings. -/
def readEnvironment : IO Settings.Environment := do
  let keys := [Settings.spawnToolKey, Settings.pollToolKey, Settings.thresholdKey]
  let values ← keys.mapM fun key => return (key, ← IO.getEnv key)
  return fun key => (values.lookup key).join

end AgentThreads.Main

open AgentThreads AgentThreads.Main in
/-- Runs the command on the arguments. -/
def main (args : List String) : IO UInt32 := do
  let intent := Command.Intent.ofArguments (args.map Command.bytes)
  let view ← match intent with
    | .report request => viewOf request.path <$> picture request.path
    | _ => pure (viewOf default (.error .notFound))
  let outcome := intent.run view (← readEnvironment)
  IO.print outcome.output
  unless outcome.errors.isEmpty do IO.eprintln outcome.errors
  return outcome.status.toUInt32
