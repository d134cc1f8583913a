/-!
# Options of a grouping

The two tools that a grouping knows by name, and how close together spawns have to be to count as
parallel.
-/

namespace AgentThreads

/-- What a grouping depends on besides the events. -/
structure Options where
  /-- The tool whose calls spawn subagents. -/
  spawnTool : String := "Task"
  /-- The tool whose calls ask how a background subagent is doing. -/
  pollTool : String := "TaskOutput"
  /-- The greatest distance, in milliseconds, of a spawn from the anchor of its cluster. -/
  thresholdMs : Nat := 2000

end AgentThreads
