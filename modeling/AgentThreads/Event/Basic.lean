import AgentThreads.Json.Basic
import AgentThreads.Time.Instant

/-!
# Events

What a session records: messages, tool calls and tool results, each with a time, a content and a bag
of metadata.
-/

namespace AgentThreads

/-- The fields of an event that say how it is tied to others. What is not one of them is kept in
`extra`. -/
structure Metadata where
  /-- The tool invocation that the event begins or answers. -/
  toolId : Option String := none
  /-- The tool that is called. -/
  toolName : Option String := none
  /-- The tool invocation under which the event happened. -/
  parentId : Option String := none
  /-- The tool invocation that a poll asks about. -/
  taskId : Option String := none
  /-- The call does not wait for its result. -/
  background : Option Bool := none
  /-- The state that a result reports. -/
  status : Option String := none
  /-- Everything else, by key. -/
  extra : Keyed Json := []

/-- A text that says something. -/
def nonEmpty (s : Option String) : Option String :=
  s.filter (· != "")

theorem nonEmpty_eq_some_iff {s : Option String} {text : String} :
    nonEmpty s = some text ↔ s = some text ∧ text ≠ "" := by
  rw [nonEmpty, Option.filter_eq_some_iff, bne_iff_ne]

namespace Metadata

/-- The tool id, unless it is empty. -/
def toolId? (m : Metadata) : Option String :=
  nonEmpty m.toolId

/-- The tool name, unless it is empty. -/
def toolName? (m : Metadata) : Option String :=
  nonEmpty m.toolName

/-- The parent's tool id, unless it is empty. -/
def parentId? (m : Metadata) : Option String :=
  nonEmpty m.parentId

/-- The task's tool id, unless it is empty. -/
def taskId? (m : Metadata) : Option String :=
  nonEmpty m.taskId

/-- The status, unless it is empty. -/
def status? (m : Metadata) : Option String :=
  nonEmpty m.status

/-- The call runs in the background. -/
def runsInBackground (m : Metadata) : Bool :=
  m.background.getD false

end Metadata

namespace Event

/-- The kinds of event. -/
inductive Kind where
  /-- A message. -/
  | message
  /-- A call of a tool. -/
  | toolCall
  /-- The result of a call. -/
  | toolResult
  deriving DecidableEq

/-- The name of a kind. -/
def Kind.name : Kind → String
  | message => "message"
  | toolCall => "tool_call"
  | toolResult => "tool_result"

/-- The kind of a name. -/
def Kind.ofName? (name : String) : Option Kind :=
  [message, toolCall, toolResult].find? (·.name == name)

end Event

/-- An event of a session. -/
structure Event where
  /-- A name for the event. -/
  id : Option String := none
  /-- What kind of event it is. -/
  kind : Event.Kind
  /-- When it happened. -/
  time : Instant
  /-- What it says. -/
  content : Json := .null
  /-- How it is tied to other events. -/
  metadata : Metadata := {}

namespace Event

/-- The event is a tool result. -/
def isResult (e : Event) : Bool :=
  e.kind == .toolResult

/-- The event is a tool call. -/
def isCall (e : Event) : Bool :=
  e.kind == .toolCall

/-- The event is a call of the named tool. A call without a name calls no tool. -/
def isCallOf (tool : String) (e : Event) : Bool :=
  e.isCall && e.metadata.toolName? == some tool

end Event

end AgentThreads
