import AgentThreads.Json.Printer
import AgentThreads.Json.Fault
import AgentThreads.Text.Quoted
import AgentThreads.Time.Rfc3339

/-!
# Faults of event texts

What can be wrong with a text that should hold an event, and how it is said.
-/

namespace AgentThreads.Event

/-- The fields of an event. -/
inductive Field where
  /-- The name of the event. -/
  | id
  /-- The kind. -/
  | kind
  /-- The time. -/
  | timestamp
  /-- The content. -/
  | content
  /-- The metadata. -/
  | metadata
  deriving DecidableEq

/-- The key of a field. -/
def Field.key : Field → String
  | id => "id"
  | kind => "kind"
  | timestamp => "timestamp"
  | content => "content"
  | metadata => "metadata"

/-- The field with a key. -/
def Field.ofKey? (key : String) : Option Field :=
  [id, kind, timestamp, content, metadata].find? (·.key == key)

/-- What stands where something else is needed. -/
inductive Found where
  /-- A value that holds no other value. -/
  | scalar (value : Json)
  /-- An array. -/
  | array
  /-- An object. -/
  | object

/-- What was found, in words. -/
def Found.describe : Found → String
  | scalar (.bool value) => "boolean `" ++ (if value then "true" else "false") ++ "`"
  | scalar (.int value) => "integer `" ++ String.ofList (Json.intChars value) ++ "`"
  | scalar (.double value) => "floating point `" ++ String.ofList value.toChars ++ "`"
  | scalar (.string value) => "string " ++ Text.Quoted.encode value
  | scalar _ => "null"
  | array => "sequence"
  | object => "map"

/-- What is needed. -/
inductive Needed where
  /-- A text. -/
  | text
  /-- An object. -/
  | object
  /-- The value `null`, which stands under the name of a kind. -/
  | nothing
  /-- An event. -/
  | event

/-- What is needed, in words. -/
def Needed.describe : Needed → String
  | text => "a string"
  | object => "a map"
  | nothing => "unit"
  | event => "struct ChatEvent"

/-- Why a text is not an event. -/
inductive Fault where
  /-- The text is not JSON. -/
  | malformed (fault : Json.Fault)
  /-- A value has the wrong type. -/
  | wrongType (found : Found) (needed : Needed)
  /-- A field is given twice. -/
  | duplicateField (field : Field)
  /-- A field is not given. -/
  | missingField (field : Field)
  /-- An array has too few items for an event. -/
  | tooFewItems (count : Nat)
  /-- There is no kind of this name. -/
  | unknownKind (name : String)
  /-- A time is neither a text nor an integer of 64 bits. -/
  | noTimestamp
  /-- A time in milliseconds is out of range. -/
  | millisOutOfRange (millis : Int)
  /-- A text is not a timestamp. -/
  | badTimestamp (text : String) (fault : Rfc3339.Fault)

/-- The fault in words. -/
def Fault.message : Fault → String
  | malformed fault => fault.message
  | wrongType found needed =>
    "invalid type: " ++ found.describe ++ ", expected " ++ needed.describe
  | duplicateField field => "duplicate field `" ++ field.key ++ "`"
  | missingField field => "missing field `" ++ field.key ++ "`"
  | tooFewItems count =>
    "invalid length " ++ toString count ++ ", expected struct ChatEvent with 5 elements"
  | unknownKind name =>
    "unknown variant `" ++ name ++ "`, expected one of `message`, `tool_call`, `tool_result`"
  | noTimestamp => "data did not match any variant of untagged enum RawTimestamp"
  | millisOutOfRange millis =>
    "timestamp out of range: " ++ String.ofList (Json.intChars millis)
  | badTimestamp text fault =>
    "invalid timestamp " ++ Text.Quoted.encode text ++ ": " ++ fault.message

end AgentThreads.Event
