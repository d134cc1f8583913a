import AgentThreads.Grouping.Placed

/-!
# The index of results

The tool results of a session by tool id. Of several results for an id the last one counts.
-/

namespace AgentThreads

/-- Tool results by tool id. -/
abbrev ResultIndex := Keyed Placed

namespace ResultIndex

/-- Enters an event if it is a result with a tool id. -/
def enter (index : ResultIndex) (p : Placed) : ResultIndex :=
  match p.event.isResult, p.event.metadata.toolId? with
  | true, some id => Keyed.insert id p index
  | _, _ => index

/-- The index of the results among events. -/
def ofPlaced (events : List Placed) : ResultIndex :=
  events.foldl enter []

/-- The result for a tool id. -/
def find? (index : ResultIndex) (toolId : String) : Option Placed :=
  Keyed.find? toolId index

/-- The result of a tool call. -/
def resultOf (index : ResultIndex) (e : Event) : Option Placed :=
  if e.isCall then e.metadata.toolId?.bind index.find? else none

end ResultIndex

end AgentThreads
