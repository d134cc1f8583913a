import AgentThreads.Event.Fault
import AgentThreads.Event.Metadata
import AgentThreads.Json.Skipper

/-!
# Reading events

An event is an object with the fields `id`, `kind`, `timestamp`, `content` and `metadata`, or an
array of their values in this order. The kind and the time are needed. Unknown members of the object
are skipped. The text is read once from the left and the first fault is reported; that a field is
missing is seen when the event has been read.
-/

namespace AgentThreads.Event

open Json (skipSpace)

/-- A reader of a part of an event. -/
abbrev Scan (α : Type) := List Char → Except Fault (α × List Char)

/-- A step of reading JSON as a step of reading an event. -/
def json {α : Type} (x : Except Json.Fault α) : Except Fault α :=
  x.mapError .malformed

/-- The number of containers that may be open at once inside the event. -/
def innerDepth : Nat := Json.maxDepth - 1

/-- The fault of a value that is not of the type needed. A scalar is read first, so that a fault in
it is reported before. -/
def wrongType {α : Type} (needed : Needed) (s : List Char) : Except Fault α :=
  match skipSpace s with
  | [] => .error (.malformed .endInValue)
  | c :: s =>
    if c = '[' then .error (.wrongType .array needed)
    else if c = '\x7b' then .error (.wrongType .object needed)
    else do
      let (value, _) ← json (Json.scanValue 0 (c :: s))
      .error (.wrongType (.scalar value) needed)

/-- The value `null`. -/
def scanNull : List Char → Except Fault (List Char) := fun s =>
  match skipSpace s with
  | 'n' :: s => json (Json.scanWord ['u', 'l', 'l'] s)
  | s => wrongType .nothing s

/-- An id, which may be `null`. -/
def scanId : Scan (Option String) := fun s =>
  match skipSpace s with
  | 'n' :: s => (json (Json.scanWord ['u', 'l', 'l'] s)).map (none, ·)
  | '"' :: s => (json (Json.scanString s)).map fun (text, s) => (some text, s)
  | s => wrongType .text s

/-- The kind of a name that has been read. -/
def kindOf (name : String) : Except Fault Kind :=
  match Kind.ofName? name with
  | some kind => .ok kind
  | none => .error (.unknownKind name)

/-- A kind: its name, or an object with `null` under its name. -/
def scanKind : Scan Kind := fun s =>
  match skipSpace s with
  | [] => .error (.malformed .endInValue)
  | '"' :: s => do
    let (name, s) ← json (Json.scanString s)
    return (← kindOf name, s)
  | '\x7b' :: s =>
    match skipSpace s with
    | [] => .error (.malformed .endInObject)
    | '"' :: s => do
      let (name, s) ← json (Json.scanString s)
      let kind ← kindOf name
      let s ← scanNull (← json (Json.scanColon s))
      match skipSpace s with
      | [] => .error (.malformed .endInObject)
      | '\x7d' :: s => .ok (kind, s)
      | _ => .error (.malformed .noValue)
    | '\x7d' :: _ => .error (.malformed .noValue)
    | _ => .error (.malformed .keyNotString)
  | _ => .error (.malformed .noValue)

/-- The instant that a value stands for: a timestamp, or milliseconds as an integer of 64 bits with
a sign. -/
def instantOf : Json → Except Fault Instant
  | .int millis =>
    if millis < 9223372036854775808 then
      match Instant.ofMillis? millis with
      | some t => .ok t
      | none => .error (.millisOutOfRange millis)
    else .error .noTimestamp
  | .string text => (Rfc3339.read text.toList).mapError (.badTimestamp text)
  | _ => .error .noTimestamp

/-- A content. -/
def scanContent : Scan Json := fun s =>
  json (Json.scanValue innerDepth s)

/-- A time. -/
def scanTime : Scan Instant := fun s => do
  let (value, s) ← scanContent s
  return (← instantOf value, s)

/-- The metadata. -/
def scanMetadata : Scan Metadata := fun s =>
  match skipSpace s with
  | '\x7b' :: s => do
    let (members, s) ← json (Json.scanObject (Json.scanValue (innerDepth - 1)) s)
    return (Metadata.ofMembers members, s)
  | s => wrongType .object s

/-- The fields that have been read. -/
structure Draft where
  /-- The id, which may be `null`. -/
  id : Option (Option String) := none
  /-- The kind. -/
  kind : Option Kind := none
  /-- The time. -/
  time : Option Instant := none
  /-- The content. -/
  content : Option Json := none
  /-- The metadata. -/
  metadata : Option Metadata := none

namespace Draft

/-- The field has been read. -/
def has (d : Draft) : Field → Bool
  | .id => d.id.isSome
  | .kind => d.kind.isSome
  | .timestamp => d.time.isSome
  | .content => d.content.isSome
  | .metadata => d.metadata.isSome

/-- Reads the value of a field. -/
def scanField (d : Draft) : Field → Scan Draft
  | .id, s => (scanId s).map fun (id, s) => ({ d with id := some id }, s)
  | .kind, s => (scanKind s).map fun (kind, s) => ({ d with kind := some kind }, s)
  | .timestamp, s => (scanTime s).map fun (time, s) => ({ d with time := some time }, s)
  | .content, s => (scanContent s).map fun (content, s) => ({ d with content := some content }, s)
  | .metadata, s =>
    (scanMetadata s).map fun (metadata, s) => ({ d with metadata := some metadata }, s)

/-- Reads what follows a key. A field that has been read before is a fault at its key. -/
def scanMember (d : Draft) (key : String) : Scan Draft := fun s =>
  match Field.ofKey? key with
  | none => do
    let s ← json (Json.scanColon s)
    return (d, ← json (Json.skipValue s))
  | some field => do
    if d.has field then throw (.duplicateField field)
    d.scanField field (← json (Json.scanColon s))

/-- The event with the fields read. -/
def toEvent (d : Draft) : Except Fault Event :=
  match d.kind, d.time with
  | none, _ => .error (.missingField .kind)
  | _, none => .error (.missingField .timestamp)
  | some kind, some time =>
    .ok ⟨d.id.join, kind, time, d.content.getD .null, d.metadata.getD {}⟩

end Draft

/-- An event as an object, after the opening brace. -/
def scanObject : Scan Event := fun s => do
  let first ← json (Json.firstMember s)
  let (draft, s) ← Json.scanMembers .malformed Draft.scanMember s.length {} first
  return (← draft.toEvent, s)

/-- An item of an array, unless the array has been closed. -/
def scanItem? {α : Type} (scan : Scan α) : Json.Step → Except Fault (Option α × Json.Step)
  | .close rest => .ok (none, .close rest)
  | .item s => do
    let (x, s) ← scan s
    return (some x, ← json (Json.nextItem s))

/-- An item of an array. If the array has been closed, it has only the items counted. -/
def scanItem {α : Type} (count : Nat) (scan : Scan α) (step : Json.Step) :
    Except Fault (α × Json.Step) := do
  match ← scanItem? scan step with
  | (some x, step) => .ok (x, step)
  | (none, _) => .error (.tooFewItems count)

/-- The end of an array that holds no more items. -/
def scanClosed (s : List Char) : Except Json.Fault (List Char) :=
  match skipSpace s with
  | [] => .error .endInArray
  | ']' :: s => .ok s
  | ',' :: s =>
    match skipSpace s with
    | ']' :: _ => .error .trailingComma
    | _ => .error .trailingCharacters
  | _ => .error .trailingCharacters

/-- An event as an array, after the opening bracket. -/
def scanArray : Scan Event := fun s => do
  let (id, step) ← scanItem? scanId (← json (Json.firstItem s))
  let (kind, step) ← scanItem 1 scanKind step
  let (time, step) ← scanItem 2 scanTime step
  let (content, step) ← scanItem? scanContent step
  let event : Event := ⟨id.join, kind, time, content.getD .null, {}⟩
  match step with
  | .close rest => return (event, rest)
  | .item s =>
    let (metadata, s) ← scanMetadata s
    return ({ event with metadata }, ← json (scanClosed s))

/-- Reads a text that holds one event. -/
def read (s : List Char) : Except Fault Event := do
  let (event, rest) ←
    match skipSpace s with
    | '[' :: s => scanArray s
    | '\x7b' :: s => scanObject s
    | s => wrongType .event s
  json (Json.scanEnd rest)
  return event

end AgentThreads.Event
