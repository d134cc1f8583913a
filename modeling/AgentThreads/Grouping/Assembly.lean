import AgentThreads.Grouping.Cluster
import AgentThreads.Grouping.Group
import AgentThreads.Grouping.Options
import AgentThreads.Grouping.ResultIndex
import AgentThreads.Grouping.Role

/-!
# Assembling the groups

The groups of a session in the order of its events. A message stands at its own place, and so does a
spawn that is alone in its cluster. A larger cluster stands, with all its members, at the place of
the first of them that is no poll. Results, nested events and polls have no place of their own.
-/

namespace AgentThreads

/-- What the groups of a session are made from. -/
structure Assembly where
  /-- The events, each with its role. -/
  cast : Role.Cast
  /-- The spawns. -/
  spawns : List Spawn
  /-- The spawn calls that repeat an id. -/
  repeats : List Repeat
  /-- The clusters of the spawns. -/
  clusters : List Cluster
  /-- Where the results of calls are found. -/
  results : ResultIndex

namespace Assembly

/-- What the groups of events are made from, with an index of results. -/
def ofPlaced (events : List Placed) (results : ResultIndex) (options : Options) : Assembly :=
  let roster := Roster.ofPlaced options.spawnTool events
  let spawns := roster.spawns
  { cast := Role.assign options.pollTool spawns events
    spawns
    repeats := roster.repeats
    clusters := Cluster.ofSpawns options.thresholdMs spawns
    results }

/-- The entry of a spawn. -/
def entry (a : Assembly) (s : Spawn) : Entry :=
  let polls := a.cast.pollsOf s.toolId
  { spawn := s.call
    result := a.results.resultOf s.call.event
    nested := a.cast.nestedUnder s.toolId
    polls
    lastPollStatus := do
      let poll ← polls.getLast?
      let result ← a.results.resultOf poll.event
      result.event.metadata.status }

/-- The event is a spawn call that repeats an id. -/
def isRepeat (a : Assembly) (p : Placed) : Bool :=
  a.repeats.any (·.later.call.position == p.position)

/-- The event at a place is a spawn by its role: it is no poll. -/
def isSpawnAt (a : Assembly) (position : Nat) : Bool :=
  a.cast.any fun (p, role) => role.isSpawn && p.position == position

/-- The member of a cluster at whose place the cluster stands: the first that is no poll. -/
def leader? (a : Assembly) (c : Cluster) : Option Spawn :=
  c.members.find? fun s => a.isSpawnAt s.call.position

/-- The group of a cluster if it stands at the place of this spawn. -/
def clusterGroup? (a : Assembly) (s : Spawn) (c : Cluster) : Option Group :=
  if c.others.isEmpty then some (.subagent (a.entry s))
  else if (a.leader? c).any (·.call.position == s.call.position) then
    some (.parallel (c.members.map a.entry))
  else none

/-- The group that stands at the place of an event. -/
def groupAt? (a : Assembly) : Placed × Role → Option Group
  | (p, .message) => some (.message p (if a.isRepeat p then none else a.results.resultOf p.event))
  | (_, .spawn s) => (a.clusters.find? (·.contains s)).bind (a.clusterGroup? s)
  | _ => none

/-- The groups in the order of their places. -/
def groups (a : Assembly) : List Group :=
  a.cast.filterMap a.groupAt?

end Assembly

/-- A grouped session: its groups, and the index that gives the results of nested calls. -/
structure Grouping where
  /-- The groups. -/
  groups : List Group
  /-- The results. -/
  results : ResultIndex

/-- Groups the events of a session. -/
def Grouping.ofEvents (events : List Event) (options : Options) : Grouping :=
  let placed := Placed.ofEvents events
  let results := ResultIndex.ofPlaced placed
  ⟨(Assembly.ofPlaced placed results options).groups, results⟩

end AgentThreads
