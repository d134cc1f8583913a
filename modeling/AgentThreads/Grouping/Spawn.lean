import AgentThreads.Grouping.Placed

/-!
# Spawns

A spawn call is a call of the spawn tool that has a tool id. The first call with an id holds it; a
later one with the same id repeats it. A call that holds its id is a spawn, unless its parent is
another such call: then it belongs to its parent's subagent.
-/

namespace AgentThreads

/-- A spawn call. -/
structure Spawn where
  /-- The call. -/
  call : Placed
  /-- Its tool id, which is not empty. -/
  toolId : String

/-- A spawn call whose tool id an earlier one holds. -/
structure Repeat where
  /-- The call that holds the id. -/
  first : Spawn
  /-- The call that repeats it. -/
  later : Spawn

/-- The spawn call that an event is, if it is one. -/
def Spawn.ofPlaced? (spawnTool : String) (p : Placed) : Option Spawn :=
  if p.event.isCallOf spawnTool then p.event.metadata.toolId?.map (⟨p, ·⟩) else none

/-- The spawn calls of a session, in order. -/
structure Roster where
  /-- The calls that hold their ids. -/
  holders : List Spawn := []
  /-- The calls that repeat an id. -/
  repeats : List Repeat := []

namespace Roster

/-- The call that holds a tool id. -/
def holder? (r : Roster) (toolId : String) : Option Spawn :=
  r.holders.find? (·.toolId == toolId)

/-- Enters a spawn call that comes after those entered. -/
def enter (r : Roster) (s : Spawn) : Roster :=
  match r.holder? s.toolId with
  | some first => { r with repeats := r.repeats ++ [⟨first, s⟩] }
  | none => { r with holders := r.holders ++ [s] }

/-- The roster of the spawn calls among events. -/
def ofPlaced (spawnTool : String) (events : List Placed) : Roster :=
  (events.filterMap (Spawn.ofPlaced? spawnTool)).foldl enter {}

/-- The call belongs to no other call: it has no parent, is its own parent, or its parent holds no
spawn call's id. -/
def isTopLevel (r : Roster) (s : Spawn) : Bool :=
  match s.call.event.metadata.parentId? with
  | none => true
  | some parent => parent == s.toolId || (r.holder? parent).isNone

/-- The spawns. -/
def spawns (r : Roster) : List Spawn :=
  r.holders.filter r.isTopLevel

end Roster

end AgentThreads
