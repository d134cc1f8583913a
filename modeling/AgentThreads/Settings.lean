import AgentThreads.Failure
import AgentThreads.Grouping.Options
import AgentThreads.Text.Blank
import AgentThreads.Text.Unsigned

/-!
# Settings

Each option of a grouping is settled by itself: by an override, else by its environment variable
unless that is blank, else by its default.
-/

namespace AgentThreads

/-- Options that are given and go before the environment. -/
structure Overrides where
  /-- The spawn tool. -/
  spawnTool : Option String := none
  /-- The poll tool. -/
  pollTool : Option String := none
  /-- The threshold, in milliseconds. -/
  thresholdMs : Option Nat := none

namespace Settings

/-- The environment: the variables that are set to a text. -/
abbrev Environment := String → Option String

/-- The variable for the spawn tool. -/
def spawnToolKey : String := "AGROUP_SPAWN_TOOL"

/-- The variable for the poll tool. -/
def pollToolKey : String := "AGROUP_POLL_TOOL"

/-- The variable for the threshold. -/
def thresholdKey : String := "AGROUP_PARALLEL_THRESHOLD_MS"

/-- The value of a variable, unless it is blank. -/
def valueOf? (env : Environment) (key : String) : Option String :=
  (env key).filter fun value => !Text.isAllBlank value.toList

/-- The threshold that a variable's value gives: an unsigned number with blanks around it. -/
def threshold (value : String) : Except Failure Nat :=
  match Text.unsigned? (Text.trim value.toList) with
  | some n => .ok n
  | none => .error (.invalidSetting thresholdKey value)

/-- The threshold from its override or its variable. A variable that is overridden is not read. -/
def resolveThreshold (env : Environment) (override : Option Nat) : Except Failure Nat :=
  match override, valueOf? env thresholdKey with
  | some n, _ => .ok n
  | none, some value => threshold value
  | none, none => .ok ({} : Options).thresholdMs

/-- The options of a grouping. -/
def resolve (env : Environment) (overrides : Overrides) : Except Failure Options := do
  let defaults : Options := {}
  let thresholdMs ← resolveThreshold env overrides.thresholdMs
  return {
    spawnTool := (overrides.spawnTool <|> valueOf? env spawnToolKey).getD defaults.spawnTool
    pollTool := (overrides.pollTool <|> valueOf? env pollToolKey).getD defaults.pollTool
    thresholdMs }

end Settings

end AgentThreads
