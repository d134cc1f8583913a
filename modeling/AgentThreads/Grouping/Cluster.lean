import AgentThreads.Grouping.Spawn

/-!
# Clusters

Spawns that begin close together run in parallel. The first spawn that is in no cluster yet is the
anchor of a new one, and takes with it every later spawn that is in no cluster and whose distance
from the anchor is within the threshold. Distances between other members do not matter.
-/

namespace AgentThreads

/-- Spawns that run in parallel. -/
structure Cluster where
  /-- The first of them. -/
  anchor : Spawn
  /-- The others, in order. -/
  others : List Spawn

/-- The spawns begin within so many milliseconds of each other. -/
def Spawn.isNear (threshold : Nat) (a b : Spawn) : Bool :=
  Instant.millisBetween b.call.event.time a.call.event.time ≤ threshold

namespace Cluster

/-- The members in order. -/
def members (c : Cluster) : List Spawn :=
  c.anchor :: c.others

/-- A spawn is one of the members. -/
def contains (c : Cluster) (s : Spawn) : Bool :=
  c.members.any (·.call.position == s.call.position)

/-- The spawns that are not near an anchor. -/
def far (threshold : Nat) (anchor : Spawn) (spawns : List Spawn) : List Spawn :=
  spawns.filter fun s => !anchor.isNear threshold s

theorem length_far_le (threshold : Nat) (anchor : Spawn) (spawns : List Spawn) :
    (far threshold anchor spawns).length ≤ spawns.length :=
  List.length_filter_le ..

/-- The clusters of spawns, in the order of their anchors. -/
def ofSpawns (threshold : Nat) : List Spawn → List Cluster
  | [] => []
  | anchor :: later =>
    ⟨anchor, later.filter (anchor.isNear threshold)⟩
      :: ofSpawns threshold (far threshold anchor later)
termination_by spawns => spawns.length
decreasing_by exact Nat.lt_succ_of_le (length_far_le ..)

end Cluster

end AgentThreads
