import AgentThreads.Files.Path

/-!
# File trees

Directories, files and symbolic links, and what a path names among them. Paths are resolved name by
name from the directory at the root: `.` and the empty name stay, `..` goes to the directory above,
and a link is replaced by its target. Each name but the last has to lead to a directory.
-/

namespace AgentThreads.Files

/-- Why a path names nothing, or nothing of the kind that is needed. -/
inductive Fault where
  /-- There is no such entry. -/
  | notFound
  /-- What should be a directory is none. -/
  | notDirectory
  /-- What should be a file is a directory. -/
  | isDirectory
  /-- The path or a name in it is too long. -/
  | nameTooLong
  /-- There are too many links on the way. -/
  | tooManyLinks
  /-- The path has a zero byte. -/
  | zeroByte
  /-- The system refuses for another reason, which it gives. -/
  | refused (reason : String)
  deriving DecidableEq

/-- The fault in words. -/
def Fault.message : Fault → String
  | notFound => "No such file or directory (os error 2)"
  | notDirectory => "Not a directory (os error 20)"
  | isDirectory => "Is a directory (os error 21)"
  | nameTooLong => "File name too long (os error 36)"
  | tooManyLinks => "Too many levels of symbolic links (os error 40)"
  | zeroByte => "file name contained an unexpected NUL byte"
  | refused reason => reason

/-- What a directory entry is. -/
inductive Node where
  /-- A regular file. -/
  | file (content : ByteArray)
  /-- A directory with its entries, each name once. -/
  | directory (entries : List (Name × Node))
  /-- A symbolic link. -/
  | link (target : Path)

namespace Node

/-- The entry of a directory with a name. -/
def entry? (name : Name) : Node → Option Node
  | directory entries => entries.lookup name
  | _ => none

/-- The node at a place below a directory. -/
def find? (names : List Name) (node : Node) : Option Node :=
  names.foldlM (fun here name => entry? name here) node

/-- Puts a node at a place below a directory, together with the directories on the way. A directory
that is there already keeps its entries. -/
def place (new : Node) : List Name → Node → Node
  | [], directory entries =>
    match new with
    | directory [] => directory entries
    | new => new
  | [], _ => new
  | name :: names, directory entries =>
    let old := (entries.lookup name).getD (directory [])
    directory (entries.filter (·.1 != name) ++ [(name, place new names old)])
  | _, old => old

end Node

/-- The greatest length of a name, in bytes. -/
def maxName : Nat := 255

/-- The greatest number of links on the way. -/
def maxLinks : Nat := 40

/-- Goes on from a directory, given with those above it, along names. `links` links may still be
met. With `follow`, a link at the end is followed too. -/
def walk (root : Node) (follow : Bool) (links : Nat) (above : List Node) (here : Node)
    (names : List Name) : Except Fault Node :=
  match names with
  | [] => .ok here
  | name :: rest =>
    if name = [] ∨ name = Path.here then walk root follow links above here rest
    else if name = Path.above then
      match above with
      | [] => walk root follow links [] here rest
      | parent :: above => walk root follow links above parent rest
    else if maxName < name.length then .error .nameTooLong
    else match here.entry? name with
      | none => .error .notFound
      | some (.directory entries) =>
        walk root follow links (here :: above) (.directory entries) rest
      | some (.file content) =>
        if rest.isEmpty then .ok (.file content) else .error .notDirectory
      | some (.link target) =>
        if rest.isEmpty && !follow then .ok (.link target)
        else match links with
          | 0 => .error .tooManyLinks
          | links + 1 =>
            if target.bytes.head? = some Path.slash then
              walk root follow links [] root (target.components ++ rest)
            else walk root follow links above here (target.components ++ rest)
termination_by (links, names.length)

/-- What a path names from the directory at the root. -/
def lookUp (root : Node) (follow : Bool) (path : Path) : Except Fault Node :=
  if 0 ∈ path.bytes then .error .zeroByte
  else if path.bytes.isEmpty then .error .notFound
  else if path.isTooLong then .error .nameTooLong
  else walk root follow maxLinks [] root path.components

/-- What can be seen of the files that there are: what a path names. -/
structure View where
  /-- What a path names, a link at its end being followed. -/
  target : Path → Except Fault Node
  /-- What a path names, a link at its end being what it names. -/
  entry : Path → Except Fault Node

/-- The view from the directory at the root of a tree. -/
def Node.view (root : Node) : View :=
  ⟨lookUp root true, lookUp root false⟩

end AgentThreads.Files
