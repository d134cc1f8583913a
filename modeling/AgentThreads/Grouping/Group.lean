import AgentThreads.Grouping.Placed

/-!
# Groups

The parts of a grouped session: single events, subagents with all that belongs to them, and
subagents that run in parallel.
-/

namespace AgentThreads

/-- A subagent: its spawn and what belongs to it. -/
structure Entry where
  /-- The spawn. -/
  spawn : Placed
  /-- The result of the spawn. -/
  result : Option Placed
  /-- The events that happened under it, results excluded. -/
  nested : List Placed
  /-- The calls that ask about it. -/
  polls : List Placed
  /-- The status that the result of the last poll gives. -/
  lastPollStatus : Option String

/-- A part of a grouped session. -/
inductive Group where
  /-- An event by itself, and its result if it is a call. -/
  | message (event : Placed) (result : Option Placed)
  /-- A subagent by itself. -/
  | subagent (entry : Entry)
  /-- Subagents that run in parallel. -/
  | parallel (entries : List Entry)

/-- The events that an entry shows: the spawn, its result, the nested events and the polls. -/
def Entry.referenced (e : Entry) : List Placed :=
  e.spawn :: e.result.toList ++ e.nested ++ e.polls

namespace Group

/-- The event whose place is the place of the group. -/
def anchor? : Group → Option Placed
  | message event _ => some event
  | subagent entry => some entry.spawn
  | parallel entries => entries.head?.map (·.spawn)

/-- The events that a group shows. -/
def referenced : Group → List Placed
  | message event result => event :: result.toList
  | subagent entry => entry.referenced
  | parallel entries => entries.flatMap Entry.referenced

/-- The entries of a group. -/
def entries : Group → List Entry
  | message _ _ => []
  | subagent entry => [entry]
  | parallel entries => entries

end Group

end AgentThreads
