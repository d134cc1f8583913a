import AgentThreads.Event.Basic

/-!
# Placed events

An event together with its place in the session. Events are told apart by their places, since a
session may hold the same event twice.
-/

namespace AgentThreads

/-- An event at its place. -/
structure Placed where
  /-- The place, counted from 0. -/
  position : Nat
  /-- The event. -/
  event : Event

/-- The events of a session at their places. -/
def Placed.ofEvents (events : List Event) : List Placed :=
  events.zipIdx.map fun (event, position) => ⟨position, event⟩

end AgentThreads
