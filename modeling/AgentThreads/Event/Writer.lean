import AgentThreads.Event.Metadata
import AgentThreads.Json.Printer
import AgentThreads.Time.Rfc3339

/-!
# Writing events

An event as a JSON object. A missing id and an empty content are left out.
-/

namespace AgentThreads.Event

/-- The time of an event as it is written. -/
def timestamp (e : Event) : String :=
  String.ofList (Rfc3339.write e.time)

/-- The object that stands for an event. -/
def toJson (e : Event) : Json :=
  .object <|
    Metadata.FieldType.text.member "id" e.id
      ++ [("kind", .string e.kind.name), ("timestamp", .string e.timestamp)]
      ++ (if e.content.isNull then [] else [("content", e.content)])
      ++ [("metadata", .object e.metadata.toMembers)]

/-- An event on one line of text. -/
def toLine (e : Event) : List Char :=
  e.toJson.compact

end AgentThreads.Event
