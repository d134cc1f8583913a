import AgentThreads.Grouping.Group

/-!
# Summary

How many groups of each form there are, and how many events stand in subagents.
-/

namespace AgentThreads

/-- The counts of a grouping. -/
structure Summary where
  /-- Events by themselves. -/
  messages : Nat := 0
  /-- Subagents by themselves. -/
  subagents : Nat := 0
  /-- Groups of parallel subagents. -/
  parallelGroups : Nat := 0
  /-- Subagents in such groups. -/
  parallelSubagents : Nat := 0
  /-- Nested events of all subagents. -/
  nestedEvents : Nat := 0
  /-- Polls of all subagents. -/
  pollingCalls : Nat := 0
  deriving DecidableEq

namespace Summary

/-- Counts what belongs to an entry. -/
def addEntry (s : Summary) (e : Entry) : Summary :=
  { s with
    nestedEvents := s.nestedEvents + e.nested.length
    pollingCalls := s.pollingCalls + e.polls.length }

/-- Counts a group. -/
def addGroup (s : Summary) : Group → Summary
  | .message _ _ => { s with messages := s.messages + 1 }
  | .subagent entry => { s with subagents := s.subagents + 1 }.addEntry entry
  | .parallel entries =>
    entries.foldl addEntry
      { s with
        parallelGroups := s.parallelGroups + 1
        parallelSubagents := s.parallelSubagents + entries.length }

/-- The counts of groups. -/
def ofGroups (groups : List Group) : Summary :=
  groups.foldl addGroup {}

end Summary

end AgentThreads
