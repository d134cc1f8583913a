import AgentThreads.Grouping.Assembly
import AgentThreads.Proofs.Event.RoundTrip

/-!
# Reading raw documents

What a raw document says, without the places that events had in their session: the parts of the
session in order, told apart by their `type`, and the results by tool id. An event in a document is
read as one on a line of its own would be.
-/

namespace AgentThreads

namespace Json

/-- The member of an object under a key. -/
def member? (key : String) : Json → Option Json
  | object members => Keyed.find? key members
  | _ => none

/-- The items of an array. -/
def items? : Json → Option (List Json)
  | array items => some items
  | _ => none

/-- The members of an object. -/
def members? : Json → Option (Keyed Json)
  | object members => some members
  | _ => none

end Json

/-- The event that a value stands for. -/
def Event.ofJson? (v : Json) : Option Event :=
  (Event.read v.compact).toOption

namespace Document

/-- A subagent in a document. -/
structure Subagent where
  /-- The spawn. -/
  spawn : Event
  /-- The result of the spawn. -/
  result : Option Event
  /-- The events that happened under it. -/
  nested : List Event
  /-- The calls that ask about it. -/
  polls : List Event
  /-- The status that the result of the last poll gives. -/
  lastPollStatus : Option String

/-- A part of a session in a document. -/
inductive Part where
  /-- An event by itself, and its result if it is a call. -/
  | message (event : Event) (result : Option Event)
  /-- A subagent by itself. -/
  | subagent (subagent : Subagent)
  /-- Subagents that run in parallel. -/
  | parallel (subagents : List Subagent)

end Document

/-- What a raw document says. -/
structure Document where
  /-- The parts of the session. -/
  parts : List Document.Part
  /-- The results by tool id. -/
  results : Keyed Event

namespace Document

/-! ### What a grouping says -/

section View

variable (view : Event → Event)

/-- What an entry says if each event is seen in a certain way. -/
def Subagent.ofEntry (e : Entry) : Subagent where
  spawn := view e.spawn.event
  result := e.result.map (view ·.event)
  nested := e.nested.map (view ·.event)
  polls := e.polls.map (view ·.event)
  lastPollStatus := e.lastPollStatus

/-- What a group says. -/
def Part.ofGroup : Group → Part
  | .message p result => message (view p.event) (result.map (view ·.event))
  | .subagent entry => subagent (.ofEntry view entry)
  | .parallel entries => parallel (entries.map (.ofEntry view))

/-- What a grouping says. -/
def ofGrouping (g : Grouping) : Document where
  parts := g.groups.map (Part.ofGroup view)
  results := g.results.map fun (id, p) => (id, view p.event)

end View

/-! ### What a value says -/

/-- A member that may be missing. -/
def optional? {α : Type} (read : Json → Option α) : Option Json → Option (Option α)
  | none => some none
  | some v => (read v).map some

/-- An array of events. -/
def events? (v : Json) : Option (List Event) := do
  (← v.items?).mapM Event.ofJson?

/-- A subagent. -/
def Subagent.ofJson? (v : Json) : Option Subagent := do
  let spawn ← Event.ofJson? (← v.member? "spawn")
  let result ← optional? Event.ofJson? (v.member? "result")
  let nested ← events? (← v.member? "nested")
  let polls ← events? (← v.member? "polls")
  let lastPollStatus ← optional? Json.asString? (v.member? "lastPollStatus")
  return ⟨spawn, result, nested, polls, lastPollStatus⟩

/-- A part of a session. -/
def Part.ofJson? (v : Json) : Option Part := do
  let type ← (← v.member? "type").asString?
  if type = "message" then
    let event ← Event.ofJson? (← v.member? "event")
    let result ← optional? Event.ofJson? (v.member? "result")
    return message event result
  else if type = "subagent" then
    return subagent (← Subagent.ofJson? v)
  else if type = "parallel_subagents" then
    let entries ← (← v.member? "entries").items?
    return parallel (← entries.mapM Subagent.ofJson?)
  else none

/-- A document. -/
def ofJson? (v : Json) : Option Document := do
  let groups ← (← v.member? "groups").items?
  let parts ← groups.mapM Part.ofJson?
  let members ← (← v.member? "results").members?
  let results ← members.mapM fun (id, v) => (Event.ofJson? v).map (id, ·)
  return ⟨parts, results⟩

/-- Reads the text of a raw document. -/
def read? (text : List Char) : Option Document := do
  ofJson? (← (Json.read text).toOption)

end Document

end AgentThreads
