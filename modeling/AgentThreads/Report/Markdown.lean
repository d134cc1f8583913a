import AgentThreads.Event.Writer
import AgentThreads.Grouping.Assembly
import AgentThreads.Grouping.Summary
import AgentThreads.Report.Preview
import AgentThreads.Session

/-!
# Markdown reports

A grouping as an outline in markdown: the counts, then a section for each group with a line for each
thing that is known of it and a preview of its content.
-/

namespace AgentThreads.Markdown

/-- A text as code. -/
def code (s : String) : String :=
  "`" ++ s ++ "`"

/-- What an event is, in a few words. -/
def title (e : Event) : String :=
  match e.kind, e.metadata.toolName? with
  | .toolCall, some tool => "Tool Call " ++ code tool
  | .toolCall, none => "Tool Call"
  | .toolResult, _ => "Tool Result"
  | .message, _ => "Message"

/-- The status of a result, or a word for a result without one. -/
def statusOr (word : String) (result : Placed) : String :=
  result.event.metadata.status?.getD word

/-- The status of a result that may be missing. -/
def resultStatus (word : String) (result : Option Placed) : String :=
  (result.map (statusOr word)).getD "pending"

/-- When an event happened, its kind, and its tool id. -/
def eventLines (e : Event) : List String :=
  ("- Time: " ++ code e.timestamp ++ " (" ++ code e.kind.name ++ ")")
    :: (e.metadata.toolId?.map fun id => "- Tool Id: " ++ code id).toList

/-- The preview of an event between blank lines. -/
def previewLines (e : Event) : List String :=
  let preview := Preview.ofContent e.content
  if preview.isEmpty then [""] else ["", preview, ""]

/-- A nested event. -/
def nestedLine (results : ResultIndex) (p : Placed) : String :=
  let status := match results.resultOf p.event with
    | some result => " -> " ++ code (statusOr "done" result)
    | none => ""
  let preview := Preview.ofContent p.event.content
  "- " ++ code p.event.timestamp ++ " " ++ title p.event ++ status
    ++ (if preview.isEmpty then "" else ": " ++ preview)

/-- A poll, with the status that it was given. -/
def pollLine (results : ResultIndex) (p : Placed) : String :=
  "- " ++ code p.event.timestamp ++ " "
    ++ code (resultStatus "unknown" (results.resultOf p.event))

/-- Lines under a heading; no heading without lines. -/
def listLines (heading : String) (lines : List String) : List String :=
  if lines.isEmpty then [] else [heading, ""] ++ lines ++ [""]

/-- What is known of a subagent. Its lists have headings with the mark given. -/
def entryLines (results : ResultIndex) (mark : String) (e : Entry) : List String :=
  eventLines e.spawn.event
    ++ (if e.spawn.event.metadata.runsInBackground then ["- Background: `true`"] else [])
    ++ ["- Result: " ++ code (resultStatus "done" e.result)]
    ++ (e.lastPollStatus.map fun status => "- Last Poll Status: " ++ code status).toList
    ++ previewLines e.spawn.event
    ++ listLines (mark ++ " Nested Events") (e.nested.map (nestedLine results))
    ++ listLines (mark ++ " Polls") (e.polls.map (pollLine results))

/-- A subagent by its tool id. -/
def entryTitle (e : Entry) : String :=
  "Subagent " ++ code (e.spawn.event.metadata.toolId?.getD "unknown")

/-- The section of a group with its number. -/
def groupLines (results : ResultIndex) (number : Nat) : Group → List String
  | .message event result =>
    ["## " ++ toString number ++ ". " ++ title event.event, ""]
      ++ eventLines event.event
      ++ (result.map fun r => "- Result: " ++ code (statusOr "done" r)).toList
      ++ previewLines event.event
  | .subagent entry =>
    ["## " ++ toString number ++ ". " ++ entryTitle entry, ""] ++ entryLines results "###" entry
  | .parallel entries =>
    ["## " ++ toString number ++ ". Parallel Subagents (" ++ toString entries.length ++ ")", ""]
      ++ (entries.zipIdx 1).flatMap fun (entry, part) =>
        ["### " ++ toString number ++ "." ++ toString part ++ ". " ++ entryTitle entry, ""]
          ++ entryLines results "####" entry

/-- The head of a report: where the session was found, and the counts. -/
def headLines (path : Path) (eventCount : Nat) (g : Grouping) : List String :=
  let s := Summary.ofGroups g.groups
  let subagents := s.subagents + s.parallelSubagents
  ["# Agent Activity", "",
    "- Source: " ++ code path.display,
    "- Events: " ++ code (toString eventCount),
    "- Groups: " ++ code (toString g.groups.length) ++ " (messages: " ++ toString s.messages
      ++ ", subagents: " ++ toString s.subagents ++ ", parallel groups: "
      ++ toString s.parallelGroups ++ ")"]
    ++ (if subagents = 0 then []
        else ["- Subagents: " ++ code (toString subagents) ++ " (nested events: "
          ++ toString s.nestedEvents ++ ", polls: " ++ toString s.pollingCalls ++ ")"])
    ++ [""]

/-- The lines of a report. -/
def lines (path : Path) (eventCount : Nat) (g : Grouping) : List String :=
  headLines path eventCount g
    ++ if g.groups.isEmpty then ["_No agent activity found._"]
       else (g.groups.zipIdx 1).flatMap fun (group, number) => groupLines g.results number group

/-- Lines as a text: each is ended by a line feed. -/
def unlines (lines : List String) : String :=
  String.join (lines.map (· ++ "\n"))

/-- The report of a grouping. -/
def render (path : Path) (eventCount : Nat) (g : Grouping) : String :=
  unlines (lines path eventCount g)

end AgentThreads.Markdown

namespace AgentThreads

/-- The report of a session. -/
def Session.markdown (s : Session) (options : Options) : String :=
  Markdown.render s.path s.events.length (Grouping.ofEvents s.events options)

end AgentThreads
