import AgentThreads.Grouping.Assembly

/-!
# The log of a grouping

What a grouping reports about itself: a warning for each spawn call that repeats an id, a trace of
each cluster, and at the end the counts.
-/

namespace AgentThreads

/-- A record of the log. -/
inductive LogRecord where
  /-- A spawn call repeats a tool id that an earlier one holds. -/
  | repeatedSpawn (toolId : String) (first position : Nat)
  /-- A cluster, by the tool id of its anchor and the number of its members. -/
  | cluster (anchor : String) (members : Nat)
  /-- The end of a grouping. -/
  | grouped (events results spawns clusters groups : Nat)
  deriving DecidableEq

namespace LogRecord

/-- How much a record matters. -/
inductive Level where
  /-- Something is odd. -/
  | warn
  /-- Something has been done. -/
  | debug
  /-- A detail. -/
  | trace
  deriving DecidableEq

/-- The name of a level. -/
def Level.name : Level → String
  | warn => "WARN"
  | debug => "DEBUG"
  | trace => "TRACE"

/-- The level of a record. -/
def level : LogRecord → Level
  | repeatedSpawn .. => .warn
  | cluster .. => .trace
  | grouped .. => .debug

/-- The message of a record. -/
def message : LogRecord → String
  | repeatedSpawn .. => "duplicate spawn tool id; keeping the first spawn"
  | cluster .. => "spawn cluster"
  | grouped .. => "grouped agent activity"

/-- The fields of a record. -/
def fields : LogRecord → List (String × Json)
  | repeatedSpawn toolId first position =>
    [("tool_id", .string toolId), ("first_position", .int first), ("position", .int position)]
  | cluster anchor members => [("anchor", .string anchor), ("members", .int members)]
  | grouped events results spawns clusters groups =>
    [("events", .int events), ("results", .int results), ("spawns", .int spawns),
      ("clusters", .int clusters), ("groups", .int groups)]

end LogRecord

/-- The log of a grouping. -/
def Assembly.log (a : Assembly) : List LogRecord :=
  a.repeats.map (fun r =>
      .repeatedSpawn r.later.toolId r.first.call.position r.later.call.position)
    ++ a.clusters.map (fun c => .cluster c.anchor.toolId c.members.length)
    ++ [.grouped a.cast.length a.results.length a.spawns.length a.clusters.length a.groups.length]

end AgentThreads
