import AgentThreads.Event.Metadata
import AgentThreads.Proofs.Keyed

/-!
# Metadata out of an object and back

Each field of the metadata takes its member out of the object, and what is left is kept. A field finds
its member whatever the fields before it have taken, since no two of them have one key. So the object
that stands for the metadata has the members of the one that the metadata came from, in another order.
-/

namespace AgentThreads.Metadata

namespace FieldType

variable {α : Type} (type : FieldType α) (key : String) {members : Keyed Json}

/-- What is taken is the value under the key, if it is of the type. -/
theorem take_fst (members : Keyed Json) :
    (type.take key members).1 = (Keyed.find? key members).bind type.read? := by
  unfold take
  split
  case h_1 found | h_2 found => exact found.symm

theorem bind_read?_eq_some_iff {found : Option Json} {value : α} :
    found.bind type.read? = some value ↔ found = some (type.write value) := by
  simp only [Option.bind_eq_some_iff, type.read?_eq_some_iff, exists_eq_right]

/-- What is under another key stays. -/
theorem find?_take_of_ne {other : String} (h : other ≠ key) (members : Keyed Json) :
    Keyed.find? other (type.take key members).2 = Keyed.find? other members := by
  unfold take
  split
  · exact Keyed.find?_erase_of_ne h members
  · rfl

theorem take_sublist (members : Keyed Json) : (type.take key members).2.Sublist members := by
  unfold take
  split
  · exact Keyed.erase_sublist key members
  · exact .refl _

/-- What is left has each key once. -/
theorem nodup_take (h : (Keyed.keys members).Nodup) :
    (Keyed.keys (type.take key members).2).Nodup :=
  h.sublist ((type.take_sublist key members).map Prod.fst)

/-- The value that was taken out and what is left are all that there was. -/
theorem take_perm (h : (Keyed.keys members).Nodup) :
    (type.member key (type.take key members).1 ++ (type.take key members).2).Perm members := by
  unfold take
  split
  · case h_1 found =>
    exact Keyed.perm_cons_erase h (type.bind_read?_eq_some_iff.mp found)
  · exact .refl _

/-- What makes up the object that is left makes up the whole one with the value in front. -/
theorem member_append_perm (h : (Keyed.keys members).Nodup) {part : List (String × Json)}
    (hpart : part.Perm (type.take key members).2) :
    (type.member key (type.take key members).1 ++ part).Perm members :=
  (hpart.append_left _).trans (type.take_perm key h)

end FieldType

open FieldType

/-! ### The fields -/

/-- The fields of the metadata that hold a text. -/
inductive TextField where
  /-- The tool invocation that the event begins or answers. -/
  | toolId
  /-- The tool that is called. -/
  | toolName
  /-- The tool invocation under which the event happened. -/
  | parentId
  /-- The tool invocation that a poll asks about. -/
  | taskId
  /-- The state that a result reports. -/
  | status

/-- The key of a field. -/
def TextField.key : TextField → String
  | toolId => "toolId"
  | toolName => "toolName"
  | parentId => "parentToolUseId"
  | taskId => "taskId"
  | status => "status"

/-- The text of a field, if it has one. -/
def TextField.text? (m : Metadata) : TextField → Option String
  | toolId => m.toolId
  | toolName => m.toolName
  | parentId => m.parentId
  | taskId => m.taskId
  | status => m.status

/-- The key of the field that holds a truth value. -/
def backgroundKey : String := "runInBackground"

/-- The members for the fields that have a value. -/
def known (m : Metadata) : Keyed Json :=
  text.member "toolId" m.toolId ++ text.member "toolName" m.toolName
    ++ text.member "parentToolUseId" m.parentId ++ text.member "taskId" m.taskId
    ++ truth.member "runInBackground" m.background ++ text.member "status" m.status

theorem toMembers_eq (m : Metadata) : m.toMembers = m.known ++ m.extra := rfl

/-- A field has the text under its key: the fields before it have taken nothing from there. -/
theorem text?_ofMembers (field : TextField) (members : Keyed Json) :
    field.text? (ofMembers members) = (Keyed.find? field.key members).bind text.read? := by
  cases field <;>
    simp (disch := decide) only [TextField.text?, TextField.key, ofMembers, take_fst,
      find?_take_of_ne]

theorem background_ofMembers (members : Keyed Json) :
    (ofMembers members).background = (Keyed.find? backgroundKey members).bind truth.read? := by
  simp (disch := decide) only [ofMembers, backgroundKey, take_fst, find?_take_of_ne]

/-- What is kept are members of the object, in their order. -/
theorem extra_sublist (members : Keyed Json) : (ofMembers members).extra.Sublist members :=
  (text.take_sublist "status" _).trans <| (truth.take_sublist "runInBackground" _).trans <|
    (text.take_sublist "taskId" _).trans <| (text.take_sublist "parentToolUseId" _).trans <|
      (text.take_sublist "toolName" _).trans <| text.take_sublist "toolId" members

/-- No member is lost, and none is added. -/
theorem toMembers_ofMembers_perm {members : Keyed Json} (h : (Keyed.keys members).Nodup) :
    (ofMembers members).toMembers.Perm members := by
  have h1 := text.nodup_take "toolId" h
  have h2 := text.nodup_take "toolName" h1
  have h3 := text.nodup_take "parentToolUseId" h2
  have h4 := text.nodup_take "taskId" h3
  have h5 := truth.nodup_take "runInBackground" h4
  simp only [ofMembers, toMembers, List.append_assoc]
  -- Each field leaves an object that the fields after it make up.
  refine text.member_append_perm "toolId" h ?_
  refine text.member_append_perm "toolName" h1 ?_
  refine text.member_append_perm "parentToolUseId" h2 ?_
  refine text.member_append_perm "taskId" h3 ?_
  refine truth.member_append_perm "runInBackground" h4 ?_
  exact text.take_perm "status" h5

/-- What is kept are the members under other keys than those of the fields that have a value. -/
theorem extra_ofMembers {members : Keyed Json} (h : Keyed.Sorted members) :
    (ofMembers members).extra =
      members.filter fun m => m.1 ∉ Keyed.keys (ofMembers members).known := by
  have written := toMembers_ofMembers_perm h.nodup_keys
  have apart := (Keyed.nodup_keys_iff_of_perm written).mpr h.nodup_keys
  rw [toMembers_eq, Keyed.keys, List.map_append, List.nodup_append'] at apart
  have taken : (ofMembers members).known.filter
      (fun m => decide (m.1 ∉ Keyed.keys (ofMembers members).known)) = [] := by
    refine List.filter_eq_nil_iff.mpr fun m hm => ?_
    have here : m.1 ∈ Keyed.keys (ofMembers members).known := List.mem_map_of_mem hm
    simp [here]
  have left : (ofMembers members).extra.filter
      (fun m => decide (m.1 ∉ Keyed.keys (ofMembers members).known)) =
        (ofMembers members).extra := by
    refine List.filter_eq_self.mpr fun m hm => ?_
    have there : m.1 ∉ Keyed.keys (ofMembers members).known := fun hknown =>
      apart.2.2 hknown (List.mem_map_of_mem hm)
    simp [there]
  have same := written.filter fun m => decide (m.1 ∉ Keyed.keys (ofMembers members).known)
  rw [toMembers_eq, List.filter_append, taken, left, List.nil_append] at same
  exact Keyed.Sorted.eq_of_perm (h.sublist (extra_sublist members)) (h.sublist List.filter_sublist)
    same

end AgentThreads.Metadata
