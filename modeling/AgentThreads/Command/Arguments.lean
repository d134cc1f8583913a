import AgentThreads.Files.Path
import AgentThreads.Settings

/-!
# Arguments

The command takes a path and flags, in any order. A flag may be given once. The value of a flag
follows it as the next argument or after an equals sign; the next argument is no value if it begins
with a hyphen, unless it is a hyphen alone. After `--` there are no flags. The arguments are read
from the left until one settles what is asked for.
-/

namespace AgentThreads.Command

/-- An argument: bytes that need not be text. -/
abbrev Argument := List UInt8

/-- A report that is asked for. -/
structure Request where
  /-- The path of the sessions. -/
  path : Path
  /-- Whether the report is raw. -/
  raw : Bool
  /-- The options that are given. -/
  overrides : Overrides

/-- What is asked for. -/
inductive Intent where
  /-- A report. -/
  | report (request : Request)
  /-- The version. -/
  | version
  /-- Help. -/
  | help
  /-- Nothing that makes sense. -/
  | misuse

/-- The flags that have a value. -/
inductive ValueFlag where
  /-- The spawn tool. -/
  | spawnTool
  /-- The poll tool. -/
  | pollTool
  /-- The threshold. -/
  | threshold

/-- The flags. -/
inductive Flag where
  /-- The report is raw. -/
  | raw
  /-- Ask for the version. -/
  | version
  /-- Ask for help. -/
  | help
  /-- A flag that has a value. -/
  | valued (flag : ValueFlag)

/-- The bytes of a text. -/
def bytes (s : String) : List UInt8 :=
  s.toByteArray.data.toList

/-- The flag of a name. Names are not abbreviated. -/
def Flag.ofName? (name : List UInt8) : Option Flag :=
  if name = bytes "raw" then some .raw
  else if name = bytes "version" then some .version
  else if name = bytes "help" then some .help
  else if name = bytes "spawn-tool" then some (.valued .spawnTool)
  else if name = bytes "poll-tool" then some (.valued .pollTool)
  else if name = bytes "threshold-ms" then some (.valued .threshold)
  else none

/-- What an argument is before `--`. -/
inductive Shape where
  /-- The mark after which there are no flags. -/
  | separator
  /-- A flag by its name, with its value if one follows an equals sign. -/
  | named (name : List UInt8) (value : Option (List UInt8))
  /-- A flag by its first letter, perhaps followed by others. -/
  | lettered (letter : UInt8)
  /-- Anything else. -/
  | plain

/-- A name and what follows its equals sign. -/
def splitValue (s : List UInt8) : List UInt8 × Option (List UInt8) :=
  let isEquals (b : UInt8) := b == '='.toUInt8
  match s.findIdx? isEquals with
  | some i => (s.take i, some (s.drop (i + 1)))
  | none => (s, none)

/-- What an argument is. -/
def Shape.of (arg : Argument) : Shape :=
  let hyphen := '-'.toUInt8
  match arg with
  | first :: second :: rest =>
    if first ≠ hyphen then .plain
    else if second ≠ hyphen then .lettered second
    else if rest.isEmpty then .separator
    else
      let (name, value) := splitValue rest
      .named name value
  | _ => .plain

/-- The argument can be the value of the flag before it. -/
def canBeValue (arg : Argument) : Bool :=
  match Shape.of arg with
  | .plain => true
  | _ => false

/-- What has been given. -/
structure Draft where
  /-- The path. -/
  path : Option Path := none
  /-- The flag for a raw report. -/
  raw : Bool := false
  /-- The flags that have a value. -/
  overrides : Overrides := {}

namespace Draft

/-- Enters the path, which is not empty and given once. -/
def setPath (d : Draft) (arg : Argument) : Option Draft :=
  if d.path.isNone && !arg.isEmpty then some { d with path := some ⟨arg⟩ } else none

/-- Enters the flag for a raw report, which is given once. -/
def setRaw (d : Draft) : Option Draft :=
  if d.raw then none else some { d with raw := true }

/-- Enters a flag that has a value and is given once. The value has to be text, and an unsigned
number for the threshold. -/
def setValue (d : Draft) (flag : ValueFlag) (value : List UInt8) : Option Draft := do
  let text ← Text.Utf8.toText? value
  match flag with
  | .spawnTool =>
    if d.overrides.spawnTool.isSome then none
    else some { d with overrides := { d.overrides with spawnTool := some text } }
  | .pollTool =>
    if d.overrides.pollTool.isSome then none
    else some { d with overrides := { d.overrides with pollTool := some text } }
  | .threshold =>
    if d.overrides.thresholdMs.isSome then none
    else
      let n ← Text.unsigned? text.toList
      some { d with overrides := { d.overrides with thresholdMs := some n } }

/-- What is asked for when no argument is left. -/
def finish (d : Draft) : Intent :=
  match d.path with
  | some path => .report ⟨path, d.raw, d.overrides⟩
  | none => .misuse

end Draft

/-- Reads the arguments after `--`. -/
def readPlain (d : Draft) (args : List Argument) : Intent :=
  match args.foldlM Draft.setPath d with
  | some d => d.finish
  | none => .misuse

/-- Reads the arguments. -/
def readArguments (d : Draft) : List Argument → Intent
  | [] => d.finish
  | arg :: rest =>
    let continueWith : Option Draft → Intent
      | some d => readArguments d rest
      | none => .misuse
    match Shape.of arg with
    | .separator => readPlain d rest
    | .lettered letter =>
      if letter = 'V'.toUInt8 then .version
      else if letter = 'h'.toUInt8 then .help
      else .misuse
    | .plain => continueWith (d.setPath arg)
    | .named name value =>
      match Flag.ofName? name, value with
      | some .raw, none => continueWith d.setRaw
      | some .version, none => .version
      | some .help, none => .help
      | some (.valued flag), some value => continueWith (d.setValue flag value)
      | some (.valued flag), none =>
        match rest with
        | value :: rest =>
          if canBeValue value then
            match d.setValue flag value with
            | some d => readArguments d rest
            | none => .misuse
          else .misuse
        | [] => .misuse
      | _, _ => .misuse

/-- What the arguments ask for. -/
def Intent.ofArguments (args : List Argument) : Intent :=
  readArguments {} args

end AgentThreads.Command
