import AgentThreads.Command.Arguments
import AgentThreads.Files.Loading
import AgentThreads.Report.Document
import AgentThreads.Report.Markdown

/-!
# The outcome of the command

What the command prints and its exit status: 0 with the whole report, 1 with a message and no
report, 2 if it is not used as it should be.
-/

namespace AgentThreads.Command

/-- What is left of a run. -/
structure Outcome where
  /-- The exit status. -/
  status : Nat
  /-- What is printed. -/
  output : String
  /-- What is said about a failure. -/
  errors : String

/-- A path names a directory. -/
def isDirectory (view : Files.View) (path : Path) : Bool :=
  match view.target path with
  | .ok (.directory _) => true
  | _ => false

/-- The raw report. One session is an object of its own unless its path names a directory. -/
def rawReport (view : Files.View) (path : Path) (sessions : List Session) (options : Options) :
    Except Failure String :=
  match sessions, isDirectory view path with
  | [session], false => .ok (session.rawJson options)
  | sessions, _ => Session.rawJsonOfAll sessions options

/-- The markdown reports of the sessions, with an empty line between two. -/
def markdownReport (sessions : List Session) (options : Options) : String :=
  "\n".intercalate (sessions.map (·.markdown options))

/-- The report that is asked for. -/
def reportFor (view : Files.View) (env : Settings.Environment) (request : Request) :
    Except Failure String := do
  let options ← Settings.resolve env request.overrides
  let sessions ← Files.load view request.path
  if request.raw then rawReport view request.path sessions options
  else return markdownReport sessions options

/-- The name of the command and its version. -/
def versionText : String := "agroup 0.1.0\n"

/-- What is said when the command is not used as it should be. -/
def misuseText : String :=
  "error: unexpected or missing arguments\n\nUsage: agroup [OPTIONS] <PATH>\n\n"
    ++ "For more information, try '--help'."

/-- What the command is for, its argument and its flags, in lines. -/
def helpLines : List String :=
  ["Group agent session events into subagent and parallel threads",
    "",
    "Usage: agroup [OPTIONS] <PATH>",
    "",
    "Arguments:",
    "  <PATH>  Session file (JSON Lines, one event per line) or a directory of *.jsonl session files",
    "",
    "Options:",
    "      --raw                          Output grouped JSON instead of markdown",
    "      --spawn-tool <SPAWN_TOOL>      Tool name that spawns a subagent (overrides "
      ++ Settings.spawnToolKey ++ ")",
    "      --poll-tool <POLL_TOOL>        Tool name that polls a background subagent (overrides "
      ++ Settings.pollToolKey ++ ")",
    "      --threshold-ms <THRESHOLD_MS>  Window in milliseconds for clustering parallel spawns "
      ++ "(overrides " ++ Settings.thresholdKey ++ ")",
    "  -h, --help                         Print help",
    "  -V, --version                      Print version"]

/-- Does what is asked for. -/
def Intent.run (view : Files.View) (env : Settings.Environment) : Intent → Outcome
  | .report request =>
    match reportFor view env request with
    | .ok text => ⟨0, text, ""⟩
    | .error failure => ⟨1, "", "error: " ++ failure.message⟩
  | .version => ⟨0, versionText, ""⟩
  | .help => ⟨0, Markdown.unlines helpLines, ""⟩
  | .misuse => ⟨2, "", misuseText⟩

/-- Runs the command. -/
def run (view : Files.View) (env : Settings.Environment) (args : List Argument) : Outcome :=
  (Intent.ofArguments args).run view env

end AgentThreads.Command
