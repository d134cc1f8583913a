import AgentThreads.Grouping.Spawn

/-!
# Roles

What each event is to the spawns of its session. An event has one role: a result is a result even
under a spawn, an event under a spawn is nested even if it polls, and a call that polls is a poll
even if it spawns.
-/

namespace AgentThreads

/-- What an event is to the spawns. -/
inductive Role where
  /-- A tool result. -/
  | result
  /-- An event that happened under a spawn. -/
  | nested (under : Spawn)
  /-- A call that asks about a background spawn. -/
  | poll (about : Spawn)
  /-- A spawn. -/
  | spawn (self : Spawn)
  /-- Any other event. -/
  | message

namespace Role

/-- The spawn under which an event happened: the one that its parent id names, unless that is the
event itself. -/
def nestedUnder? (spawns : List Spawn) (p : Placed) : Option Spawn := do
  let parent ← p.event.metadata.parentId?
  let s ← spawns.find? (·.toolId == parent)
  if s.call.position == p.position then none else some s

/-- The background spawn that a call of the poll tool asks about. -/
def pollOf? (pollTool : String) (spawns : List Spawn) (p : Placed) : Option Spawn :=
  if p.event.isCallOf pollTool then do
    let task ← p.event.metadata.taskId?
    spawns.find? fun s => s.call.event.metadata.runsInBackground && s.toolId == task
  else none

/-- The role of an event. -/
def ofPlaced (pollTool : String) (spawns : List Spawn) (p : Placed) : Role :=
  if p.event.isResult then .result
  else match nestedUnder? spawns p with
    | some s => .nested s
    | none =>
      match pollOf? pollTool spawns p with
      | some s => .poll s
      | none =>
        match spawns.find? (·.call.position == p.position) with
        | some s => .spawn s
        | none => .message

/-- The event is nested under the spawn with a tool id. -/
def isNestedUnder (toolId : String) : Role → Bool
  | nested s => s.toolId == toolId
  | _ => false

/-- The event polls the spawn with a tool id. -/
def isPollOf (toolId : String) : Role → Bool
  | poll s => s.toolId == toolId
  | _ => false

/-- The event is a spawn. -/
def isSpawn : Role → Bool
  | spawn _ => true
  | _ => false

/-- Events with their roles. -/
abbrev Cast := List (Placed × Role)

/-- Gives each event its role. -/
def assign (pollTool : String) (spawns : List Spawn) (events : List Placed) : Cast :=
  events.map fun p => (p, ofPlaced pollTool spawns p)

/-- The events nested under the spawn with a tool id. -/
def Cast.nestedUnder (cast : Cast) (toolId : String) : List Placed :=
  (cast.filter fun (_, role) => role.isNestedUnder toolId).map (·.1)

/-- The events that poll the spawn with a tool id. -/
def Cast.pollsOf (cast : Cast) (toolId : String) : List Placed :=
  (cast.filter fun (_, role) => role.isPollOf toolId).map (·.1)

end Role

end AgentThreads
