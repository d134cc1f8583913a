import AgentThreads.Event.Writer
import AgentThreads.Failure
import AgentThreads.Grouping.Assembly
import AgentThreads.Session

/-!
# Raw documents

A grouping as JSON: an object with the groups in order, each with its form under `type`, and the
results by tool id. Several sessions are an array of such objects, each with its path in front.
-/

namespace AgentThreads

/-- A member of an object for an event that may be missing. -/
def Placed.member (key : String) (p : Option Placed) : List (String × Json) :=
  (p.map fun p => (key, p.event.toJson)).toList

/-- Events as an array. -/
def Placed.toArray (events : List Placed) : Json :=
  .array (events.map (·.event.toJson))

/-- The members of the object that stands for an entry. -/
def Entry.toMembers (e : Entry) : List (String × Json) :=
  ("spawn", e.spawn.event.toJson) :: Placed.member "result" e.result
    ++ [("nested", Placed.toArray e.nested), ("polls", Placed.toArray e.polls)]
    ++ Metadata.FieldType.text.member "lastPollStatus" e.lastPollStatus

/-- The object that stands for a group. -/
def Group.toJson : Group → Json
  | message event result =>
    .object (("type", .string "message") :: ("event", event.event.toJson)
      :: Placed.member "result" result)
  | subagent entry => .object (("type", .string "subagent") :: entry.toMembers)
  | parallel entries =>
    .object [("type", .string "parallel_subagents"),
      ("entries", .array (entries.map fun e => .object e.toMembers))]

/-- The members of the object that stands for a grouping. -/
def Grouping.toMembers (g : Grouping) : List (String × Json) :=
  [("groups", .array (g.groups.map Group.toJson)),
    ("results", .object (g.results.map fun (id, p) => (id, p.event.toJson)))]

namespace Session

/-- The raw document of a session. -/
def rawJson (s : Session) (options : Options) : String :=
  String.ofList (Json.object (Grouping.ofEvents s.events options).toMembers).pretty

/-- The object that stands for a session among others. Its path has to be text. -/
def toJson (options : Options) (s : Session) : Except Failure Json :=
  match s.path.toText? with
  | some path =>
    .ok (.object (("path", .string path) :: (Grouping.ofEvents s.events options).toMembers))
  | none => .error .pathNotText

/-- The raw document of sessions. -/
def rawJsonOfAll (sessions : List Session) (options : Options) : Except Failure String := do
  let items ← sessions.mapM (toJson options)
  return String.ofList (Json.array items).pretty

end Session

end AgentThreads
