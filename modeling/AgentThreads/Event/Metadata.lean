import AgentThreads.Event.Basic

/-!
# Metadata as an object

The object that stands for an event's metadata. A known key with a value of another type than it
should have is no fault: it is kept with the unknown keys.
-/

namespace AgentThreads.Metadata

/-- A type that the value of a field can have, among the JSON values. -/
structure FieldType (α : Type) where
  /-- The value that a JSON value is, if it is of the type. -/
  read? : Json → Option α
  /-- The JSON value for a value. -/
  write : α → Json
  /-- Only what is written for a value is read as it. -/
  read?_eq_some_iff {json : Json} {value : α} : read? json = some value ↔ json = write value

namespace FieldType

/-- Texts. -/
def text : FieldType String where
  read? := Json.asString?
  write := .string
  read?_eq_some_iff {json _} := by cases json <;> simp [Json.asString?]

/-- Truth values. -/
def truth : FieldType Bool where
  read? := Json.asBool?
  write := .bool
  read?_eq_some_iff {json _} := by cases json <;> simp [Json.asBool?]

@[simp] theorem text_write : text.write = Json.string := rfl

@[simp] theorem truth_write : truth.write = Json.bool := rfl

variable {α : Type} (type : FieldType α) (key : String)

/-- Takes the value under a key out of an object, if it is of the type. -/
def take (members : Keyed Json) : Option α × Keyed Json :=
  match (Keyed.find? key members).bind type.read? with
  | some value => (some value, Keyed.erase key members)
  | none => (none, members)

/-- The member of an object for a value that may be missing. -/
def member (value : Option α) : List (String × Json) :=
  (value.map fun value => (key, type.write value)).toList

end FieldType

open FieldType

/-- The metadata that an object stands for. -/
def ofMembers (members : Keyed Json) : Metadata :=
  let (toolId, members) := text.take "toolId" members
  let (toolName, members) := text.take "toolName" members
  let (parentId, members) := text.take "parentToolUseId" members
  let (taskId, members) := text.take "taskId" members
  let (background, members) := truth.take "runInBackground" members
  let (status, members) := text.take "status" members
  ⟨toolId, toolName, parentId, taskId, background, status, members⟩

/-- The members of the object that stands for the metadata: the known ones, then the others. -/
def toMembers (m : Metadata) : List (String × Json) :=
  text.member "toolId" m.toolId ++ text.member "toolName" m.toolName
    ++ text.member "parentToolUseId" m.parentId ++ text.member "taskId" m.taskId
    ++ truth.member "runInBackground" m.background ++ text.member "status" m.status ++ m.extra

end AgentThreads.Metadata
