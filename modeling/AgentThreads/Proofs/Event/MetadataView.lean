import AgentThreads.Event.Reader
import AgentThreads.Proofs.Event.Metadata
import AgentThreads.Proofs.Json.Reading

/-!
# Metadata as a view of an object

The metadata shows some members of an object as fields and keeps the others. It loses nothing: a field
has a value just when the object has one of its type under the field's key, the members of the object
are written again, each once, and from what is written the same metadata arises.
-/

namespace AgentThreads.Metadata

variable {members : Keyed Json}

/-- What is written has each key of the object once, with its value, and no other key. -/
theorem mem_toMembers_iff (h : Keyed.Sorted members) {key : String} {value : Json} :
    (key, value) ∈ (ofMembers members).toMembers ↔ Keyed.find? key members = some value := by
  rw [(toMembers_ofMembers_perm h.nodup_keys).mem_iff, Keyed.find?_eq_some_iff_mem h.nodup_keys]

/-- The members that are written are those of the object, once they are in order. -/
theorem ofMembers_toMembers (h : Keyed.Sorted members) :
    Keyed.ofMembers (ofMembers members).toMembers = members :=
  h.ofMembers_eq (toMembers_ofMembers_perm h.nodup_keys)

/-- An object that is written is read as the metadata, whatever the order of its members, if the text
of each value is read as the value. -/
theorem scanMetadata_of_reads (h : Keyed.Sorted members)
    (hvalues : ∀ m ∈ members, Json.Reads (Json.scanValue (Event.innerDepth - 1)) m.2.compact m.2)
    {others : List (String × Json)} (hp : others.Perm members) (rest : List Char) :
    Event.scanMetadata ((Json.object others).compact ++ rest) = .ok (ofMembers members, rest) := by
  have taken := Json.scanObject_of_reads h hvalues hp rest
  rw [Json.compact, Json.intercalate_eq_listing, List.append_assoc, List.singleton_append,
    List.cons_append, Event.scanMetadata, Json.skipSpace_cons (by decide)]
  simp [taken, Event.json]

/-- **Metadata loses nothing of its object.** A field has a value if and only if the object has that
value under the field's key, and what is kept are the members under all other keys. What is written
has each key of the object once, with its value, and no other key, so the same metadata is read from
it: from the object that is written, and from its text if the text of each value is read as the
value. -/
theorem lossless_view (members : Keyed Json) (h : Keyed.Sorted members) :
    (∀ (field : TextField) (text : String), field.text? (ofMembers members) = some text ↔
        Keyed.find? field.key members = some (.string text)) ∧
      (∀ truth, (ofMembers members).background = some truth ↔
        Keyed.find? backgroundKey members = some (.bool truth)) ∧
      (ofMembers members).extra =
        members.filter (fun m => m.1 ∉ Keyed.keys (ofMembers members).known) ∧
      (Keyed.keys (ofMembers members).toMembers).Nodup ∧
      (∀ key value, (key, value) ∈ (ofMembers members).toMembers ↔
        Keyed.find? key members = some value) ∧
      ofMembers (Keyed.ofMembers (ofMembers members).toMembers) = ofMembers members ∧
      ((∀ m ∈ members, Json.Reads (Json.scanValue (Event.innerDepth - 1)) m.2.compact m.2) →
        ∀ rest, Event.scanMetadata ((Json.object (ofMembers members).toMembers).compact ++ rest) =
          .ok (ofMembers members, rest)) := by
  refine ⟨fun field text => ?_, fun truth => ?_, extra_ofMembers h, ?_,
    fun key value => mem_toMembers_iff h, ?_,
    fun hvalues => scanMetadata_of_reads h hvalues (toMembers_ofMembers_perm h.nodup_keys)⟩
  · rw [text?_ofMembers]
    exact FieldType.text.bind_read?_eq_some_iff
  · rw [background_ofMembers]
    exact FieldType.truth.bind_read?_eq_some_iff
  · have written := toMembers_ofMembers_perm h.nodup_keys
    exact (Keyed.nodup_keys_iff_of_perm written).mpr h.nodup_keys
  · rw [ofMembers_toMembers h]

/-- An object with a text, an empty text, values of wrong types and unknown keys. -/
def mixedMembers : Keyed Json :=
  [("exitCode", .int 0), ("parentToolUseId", .null), ("runInBackground", .string "true"),
    ("status", .string ""), ("toolId", .int 42), ("toolName", .string "Task"),
    ("toolname", .string "task")]

/-- Only two members of `mixedMembers` are fields; all of them are written and read again. -/
theorem lossless_view_wrong_types :
    Keyed.Sorted mixedMembers ∧
      ofMembers mixedMembers =
        { toolName := some "Task", status := some ""
          extra := [("exitCode", .int 0), ("parentToolUseId", .null),
            ("runInBackground", .string "true"), ("toolId", .int 42),
            ("toolname", .string "task")] } ∧
      ofMembers (Keyed.ofMembers (ofMembers mixedMembers).toMembers) = ofMembers mixedMembers ∧
      Event.scanMetadata (Json.object (ofMembers mixedMembers).toMembers).compact =
        .ok (ofMembers mixedMembers, []) := by
  have sorted : Keyed.Sorted mixedMembers := by decide
  have values : ∀ m ∈ mixedMembers,
      Json.Reads (Json.scanValue (Event.innerDepth - 1)) m.2.compact m.2 := by
    have scalars : ∀ m ∈ mixedMembers, m.2.isScalar ∧ m.2.hasWords ∧ m.2.isIntegral := by decide
    intro m hm
    obtain ⟨scalar, words, integral⟩ := scalars m hm
    exact (Json.isRead_of_isScalar scalar words _).reads_compact integral
  obtain ⟨-, -, -, -, -, again, text⟩ := lossless_view mixedMembers sorted
  have read := text values []
  rw [List.append_nil] at read
  exact ⟨sorted, rfl, again, read⟩

end AgentThreads.Metadata
