import AgentThreads.Event.Writer
import AgentThreads.Proofs.Event.MetadataView
import AgentThreads.Proofs.Event.Reading
import AgentThreads.Proofs.Event.Timestamps

/-!
# Written events

An event that was read, and that holds no number but integers, is read back when it is written: only
the digits of its time below the millisecond are lost. The order of its members does not matter, nor
does that of its metadata, so the event is also read back out of a document in which every object has
its keys in order.
-/

namespace AgentThreads.Event

/-! ### The members of a written event -/

/-- The event with its time cut to the millisecond. -/
def cut (e : Event) : Event :=
  { e with time := e.time.cut }

/-- No number in the content or in the metadata is a binary one. -/
def isIntegral (e : Event) : Bool :=
  e.content.isIntegral && e.metadata.extra.all (·.2.isIntegral)

/-- The value that is written for a field, if there is one; the members of the metadata are given. -/
def value? (e : Event) (metadata : List (String × Json)) : Field → Option Json
  | .id => e.id.map .string
  | .kind => some (.string e.kind.name)
  | .timestamp => some (.string e.timestamp)
  | .content => if e.content.isNull then none else some e.content
  | .metadata => some (.object metadata)

/-- The fields in the order in which they are written. -/
def fields : List Field := [.id, .kind, .timestamp, .content, .metadata]

/-- The members of the object that stands for the event. -/
def members (e : Event) (metadata : List (String × Json)) : List (String × Json) :=
  fields.filterMap fun f => (e.value? metadata f).map (f.key, ·)

theorem toJson_eq (e : Event) : e.toJson = .object (e.members e.metadata.toMembers) := by
  obtain ⟨id, kind, time, content, metadata⟩ := e
  by_cases h : content.isNull <;> cases id <;>
    simp [toJson, members, fields, value?, Metadata.FieldType.member, h, Field.key, timestamp]

theorem mem_fields (f : Field) : f ∈ fields := by
  cases f <;> decide

theorem mem_members_iff {e : Event} {metadata : List (String × Json)} {m : String × Json} :
    m ∈ e.members metadata ↔ ∃ f, e.value? metadata f = some m.2 ∧ f.key = m.1 := by
  rw [members, List.mem_filterMap]
  constructor
  · rintro ⟨f, -, h⟩
    obtain ⟨v, hv, rfl⟩ := Option.map_eq_some_iff.mp h
    exact ⟨f, hv, rfl⟩
  · rintro ⟨f, hv, hkey⟩
    exact ⟨f, mem_fields f, by rw [hv, hkey]; rfl⟩

/-- No two fields have one key. -/
theorem nodup_keys_members (e : Event) (metadata : List (String × Json)) :
    (Keyed.keys (e.members metadata)).Nodup := by
  have part (l : List Field) : (Keyed.keys (l.filterMap fun f =>
      (e.value? metadata f).map (f.key, ·))).Sublist (l.map Field.key) := by
    induction l with
    | nil => exact .slnil
    | cons f l ih =>
      cases hv : e.value? metadata f with
      | none => simpa [hv] using ih.cons f.key
      | some v => simpa [hv] using ih.cons_cons f.key
  have distinct : (fields.map Field.key).Nodup := by decide
  exact distinct.sublist (part fields)

theorem ofKey?_key (f : Field) : Field.ofKey? f.key = some f := by
  cases f <;> rfl

theorem key_inj {f g : Field} (h : f.key = g.key) : f = g := by
  have := congrArg Field.ofKey? h
  simpa [ofKey?_key] using this

theorem timestamp_cut (e : Event) : e.cut.timestamp = e.timestamp :=
  congrArg String.ofList (Rfc3339.write_cut e.time)

/-! ### Tests of the values in a written event -/

/-- What a test finds in the metadata is what it finds in the members that are kept. -/
theorem everywhere_of_mem_toMembers {test : Json → Bool} (htest : Json.Lenient test)
    {metadata : Metadata} (h : ∀ m ∈ metadata.extra, m.2.everywhere test) {m : String × Json}
    (hm : m ∈ metadata.toMembers) : m.2.everywhere test := by
  simp only [Metadata.toMembers, Metadata.FieldType.member, List.mem_append,
    Option.mem_toList, Option.map_eq_some_iff] at hm
  rcases hm with (((((⟨_, -, rfl⟩ | ⟨_, -, rfl⟩) | ⟨_, -, rfl⟩) | ⟨_, -, rfl⟩) | ⟨_, -, rfl⟩) |
    ⟨_, -, rfl⟩) | hm
  · exact htest.string _
  · exact htest.string _
  · exact htest.string _
  · exact htest.string _
  · exact htest.bool _
  · exact htest.string _
  · exact h m hm

/-- The members of metadata that was read are those of an object that was read. -/
theorem toMembers_perm {metadata : Metadata} (h : metadata.IsRead) :
    ∃ members, Json.AreRead (innerDepth - 1) members ∧ Metadata.ofMembers members = metadata ∧
      metadata.toMembers.Perm members := by
  obtain ⟨members, hread, rfl⟩ := h
  exact ⟨members, hread, rfl, Metadata.toMembers_ofMembers_perm hread.sorted.nodup_keys⟩

theorem nodup_keys_toMembers {metadata : Metadata} (h : metadata.IsRead) :
    (Keyed.keys metadata.toMembers).Nodup := by
  obtain ⟨members, hread, -, hp⟩ := toMembers_perm h
  exact (Keyed.nodup_keys_iff_of_perm hp).mpr hread.sorted.nodup_keys

/-- What a test finds in a written event is what it finds in the content and in the members of the
metadata that are kept. -/
theorem everywhere_toJson {test : Json → Bool} (htest : Json.Lenient test) {e : Event}
    (he : e.IsRead) (hcontent : e.content.everywhere test)
    (hextra : ∀ m ∈ e.metadata.extra, m.2.everywhere test) : e.toJson.everywhere test := by
  rw [toJson_eq]
  refine Json.everywhere_object.mpr ⟨htest.object _ (nodup_keys_members ..), fun m hm => ?_⟩
  obtain ⟨f, hf, -⟩ := mem_members_iff.mp hm
  cases f with
  | id =>
    obtain ⟨text, -, heq⟩ := Option.map_eq_some_iff.mp hf
    rw [← heq]
    exact htest.string text
  | kind =>
    rw [← Option.some_inj.mp hf]
    exact htest.string _
  | timestamp =>
    rw [← Option.some_inj.mp hf]
    exact htest.string _
  | content =>
    simp only [value?] at hf
    split at hf
    · cases hf
    · rwa [← Option.some_inj.mp hf]
  | metadata =>
    rw [← Option.some_inj.mp hf]
    exact Json.everywhere_object.mpr ⟨htest.object _ (nodup_keys_toMembers he.metadata),
      fun m hm => everywhere_of_mem_toMembers htest hextra hm⟩

/-! ### Drafts -/

/-- The value of a field, if its key has been seen. -/
def known {α : Type} (seen : List String) (f : Field) (x : α) : Option α :=
  if f.key ∈ seen then some x else none

section Known

variable {α : Type} {seen : List String} {f : Field}

theorem known_of_mem (h : f.key ∈ seen) (x : α) : known seen f x = some x :=
  if_pos h

theorem known_of_not_mem (h : f.key ∉ seen) (x : α) : known seen f x = none :=
  if_neg h

theorem known_cons_self (x : α) : known (f.key :: seen) f x = some x :=
  known_of_mem List.mem_cons_self x

theorem known_cons_of_ne {g : Field} (h : f ≠ g) (x : α) :
    known (g.key :: seen) f x = known seen f x := by
  have ne : f.key ≠ g.key := fun heq => h (key_inj heq)
  by_cases hmem : f.key ∈ seen
  · rw [known_of_mem hmem, known_of_mem (List.mem_cons_of_mem _ hmem)]
  · rw [known_of_not_mem hmem, known_of_not_mem (by simp [ne, hmem])]

end Known

/-- What is known of the event when the members under some keys have been read. -/
def draft (e : Event) (seen : List String) : Draft where
  id := known seen .id e.id
  kind := known seen .kind e.kind
  time := known seen .timestamp e.time
  content := known seen .content e.content
  metadata := known seen .metadata e.metadata

theorem draft_nil (e : Event) : e.draft [] = {} := by
  simp [draft, known_of_not_mem]

theorem has_draft (e : Event) {seen : List String} {f : Field} (h : f.key ∉ seen) :
    (e.draft seen).has f = false := by
  cases f <;> simp only [Draft.has, draft, known_of_not_mem h] <;> rfl

theorem eq_null_of_isNull {v : Json} (h : v.isNull) : v = .null := by
  cases v with
  | null => rfl
  | _ => cases h

/-- The event is known when all that is written of it has been read. -/
theorem toEvent_draft {e : Event} (metadata : List (String × Json)) {seen : List String}
    (h : ∀ f, (e.value? metadata f).isSome → f.key ∈ seen) : (e.draft seen).toEvent = .ok e := by
  have hid : (known seen .id e.id).join = e.id := by
    by_cases hmem : Field.id.key ∈ seen
    · rw [known_of_mem hmem]
      rfl
    · rw [known_of_not_mem hmem]
      cases hnone : e.id with
      | none => rfl
      | some text => exact absurd (h .id (by simp [value?, hnone])) hmem
  have hcontent : (known seen .content e.content).getD .null = e.content := by
    by_cases hmem : Field.content.key ∈ seen
    · rw [known_of_mem hmem]
      rfl
    · rw [known_of_not_mem hmem]
      by_cases hnull : e.content.isNull
      · rw [eq_null_of_isNull hnull]
        rfl
      · exact absurd (h .content (by simp [value?, hnull])) hmem
  simp only [Draft.toEvent, draft, known_of_mem (h .kind rfl), known_of_mem (h .timestamp rfl),
    known_of_mem (h .metadata rfl), hid, hcontent]
  rfl

/-! ### Reading the fields -/

/-- An event that is written so that it can be read again. -/
structure Writable (e : Event) : Prop where
  /-- The event was read. -/
  isRead : e.IsRead
  /-- It has no number but integers. -/
  isIntegral : e.isIntegral
  /-- The year is written without a sign. -/
  year_nonneg : 0 ≤ e.time.date.year
  /-- The year is written in four digits. -/
  year_le : e.time.date.year ≤ 9999

theorem Writable.isIntegral_content {e : Event} (h : e.Writable) : e.content.isIntegral :=
  (Bool.and_eq_true_iff.mp h.isIntegral).1

theorem Writable.isIntegral_extra {e : Event} (h : e.Writable) :
    ∀ m ∈ e.metadata.extra, m.2.isIntegral :=
  List.all_eq_true.mp (Bool.and_eq_true_iff.mp h.isIntegral).2

theorem kindOf_name (kind : Kind) : kindOf kind.name = .ok kind := by
  cases kind <;> rfl

theorem scanId_quote (text : String) (rest : List Char) :
    scanId (Json.quote text ++ rest) = .ok (some text, rest) := by
  rw [Json.quote_eq, List.cons_append, scanId, Json.skipSpace_cons (by decide)]
  simp [Json.scanString_unquoted, json]

theorem scanKind_quote (kind : Kind) (rest : List Char) :
    scanKind (Json.quote kind.name ++ rest) = .ok (kind, rest) := by
  rw [Json.quote_eq, List.cons_append, scanKind, Json.skipSpace_cons (by decide)]
  simp [Json.scanString_unquoted, json, kindOf_name]

theorem scanContent_compact {v : Json} (h : Json.IsRead innerDepth v) (hint : v.isIntegral)
    {rest : List Char} (hrest : Json.Stops rest) :
    scanContent (v.compact ++ rest) = .ok (v, rest) := by
  rw [scanContent, (h.reads_compact hint).scan hrest]
  rfl

section Fields

variable {e : Event} (he : e.Writable)
include he

theorem scanTime_compact {rest : List Char} (hrest : Json.Stops rest) :
    scanTime ((Json.string e.timestamp).compact ++ rest) = .ok (e.time.cut, rest) := by
  have text : instantOf (.string e.timestamp) = .ok e.time.cut :=
    instantOf_timestamp he.isRead.time he.year_nonneg he.year_le
  rw [scanTime, scanContent_compact (Json.isRead_of_isScalar rfl rfl _) rfl hrest, ok_bind]
  dsimp only
  rw [text]
  rfl

variable {metadata : List (String × Json)} (hp : metadata.Perm e.metadata.toMembers)
include hp

/-- The metadata is read whatever the order of its members. -/
theorem scanMetadata_compact (rest : List Char) :
    scanMetadata ((Json.object metadata).compact ++ rest) = .ok (e.metadata, rest) := by
  obtain ⟨members, hread, hmembers, order⟩ := toMembers_perm he.isRead.metadata
  have integral : ∀ m ∈ members, m.2.isIntegral := fun m hm =>
    everywhere_of_mem_toMembers Json.lenient_isIntegral he.isIntegral_extra (order.symm.subset hm)
  rw [← hmembers]
  exact Metadata.scanMetadata_of_reads hread.sorted
    (fun m hm => (hread.values m hm).reads_compact (integral m hm)) (hp.trans order) rest

/-- A field that is written is read. -/
theorem scanField_draft {f : Field} {v : Json} (h : e.value? metadata f = some v)
    (seen : List String) {rest : List Char} (hrest : Json.Stops rest) :
    (e.cut.draft seen).scanField f (v.compact ++ rest) = .ok (e.cut.draft (f.key :: seen), rest) := by
  cases f with
  | id =>
    obtain ⟨text, hid, rfl⟩ := Option.map_eq_some_iff.mp h
    have taken : scanId ((Json.string text).compact ++ rest) = .ok (some text, rest) :=
      scanId_quote text rest
    rw [Draft.scanField, taken]
    simp [draft, known_cons_self, known_cons_of_ne, cut, hid]
  | kind =>
    cases h
    have taken : scanKind ((Json.string e.kind.name).compact ++ rest) = .ok (e.kind, rest) :=
      scanKind_quote e.kind rest
    rw [Draft.scanField, taken]
    simp [draft, known_cons_self, known_cons_of_ne, cut]
  | timestamp =>
    cases h
    rw [Draft.scanField, scanTime_compact he hrest]
    simp [draft, known_cons_self, known_cons_of_ne, cut]
  | content =>
    simp only [value?] at h
    split at h
    · cases h
    · cases h
      rw [Draft.scanField, scanContent_compact he.isRead.content he.isIntegral_content hrest]
      simp [draft, known_cons_self, known_cons_of_ne, cut]
  | metadata =>
    cases h
    rw [Draft.scanField, scanMetadata_compact he hp]
    simp [draft, known_cons_self, known_cons_of_ne, cut]

/-- A member that is written is read. -/
theorem scanMember_draft {f : Field} {v : Json} (h : e.value? metadata f = some v)
    {seen : List String} (hnew : f.key ∉ seen) {rest : List Char} (hrest : Json.Stops rest) :
    (e.cut.draft seen).scanMember f.key (':' :: v.compact ++ rest) =
      .ok (e.cut.draft (f.key :: seen), rest) := by
  rw [Draft.scanMember, ofKey?_key]
  refine check_eq_ok_iff.mpr ⟨?_, ?_⟩
  · rw [has_draft _ hnew]
    exact Bool.false_ne_true
  · rw [List.cons_append, Json.scanColon, Json.skipSpace_cons (by decide)]
    exact scanField_draft he hp h seen hrest

/-- Members that are written are read, one after the other. -/
theorem readsMembers_draft {members : List (String × Json)}
    (h : ∀ m ∈ members, m ∈ e.members metadata) (hnodup : (Keyed.keys members).Nodup)
    (seen : List String) (hnew : ∀ key ∈ Keyed.keys members, key ∉ seen) :
    Json.ReadsMembers Draft.scanMember (Json.compactMembers members) (e.cut.draft seen)
      (e.cut.draft ((Keyed.keys members).reverse ++ seen)) := by
  induction members generalizing seen with
  | nil => exact .nil
  | cons m members ih =>
    obtain ⟨key, v⟩ := m
    obtain ⟨hm, hothers⟩ := List.forall_mem_cons.mp h
    obtain ⟨f, hf, rfl⟩ := mem_members_iff.mp hm
    rw [Keyed.keys_cons] at hnodup hnew
    obtain ⟨hapart, hdistinct⟩ := List.nodup_cons.mp hnodup
    obtain ⟨hfirst, hlater⟩ := List.forall_mem_cons.mp hnew
    have later := ih hothers hdistinct (f.key :: seen) fun key hkey hmem => by
      rcases List.mem_cons.mp hmem with rfl | hmem
      · exact hapart hkey
      · exact hlater key hkey hmem
    rw [Keyed.keys_cons, List.reverse_cons, List.append_assoc, List.singleton_append]
    exact .cons (scanMember_draft he hp hf hfirst) later

/-- An event is read back from its members, whatever their order. -/
theorem scanObject_perm {members : List (String × Json)} (hm : members.Perm (e.members metadata))
    (rest : List Char) :
    scanObject (Json.listing [] [] (Json.compactMembers members) ++ '\x7d' :: rest) =
      .ok (e.cut, rest) := by
  have nodup := (Keyed.nodup_keys_iff_of_perm hm).mpr (nodup_keys_members e metadata)
  have reads := readsMembers_draft he hp (fun m h => hm.subset h) nodup [] (by simp)
  rw [draft_nil] at reads
  obtain ⟨step, hfirst, hloop⟩ :=
    Json.scanMembers_length Fault.malformed Json.blanks_nil Json.blanks_nil reads rest
  have complete : (e.cut.draft ((Keyed.keys members).reverse ++ [])).toEvent = .ok e.cut := by
    refine toEvent_draft metadata fun f hf => ?_
    have written : (e.value? metadata f).isSome := by
      cases f with
      | id | content => exact hf
      | kind | timestamp | metadata => rfl
    obtain ⟨v, hv⟩ := Option.isSome_iff_exists.mp written
    have here : (f.key, v) ∈ members := hm.symm.subset (mem_members_iff.mpr ⟨f, hv, rfl⟩)
    rw [List.append_nil, List.mem_reverse]
    exact List.mem_map_of_mem here
  rw [scanObject, hfirst]
  refine bind_eq_ok_iff.mpr ⟨step, rfl, ?_⟩
  refine bind_eq_ok_iff.mpr ⟨_, hloop, ?_⟩
  refine bind_eq_ok_iff.mpr ⟨_, complete, rfl⟩

/-- **A written event is read back**, whatever the order of its members and of its metadata. Its time
loses the digits below the millisecond. -/
theorem read_compact {members : List (String × Json)} (hm : members.Perm (e.members metadata)) :
    read (Json.object members).compact = .ok e.cut := by
  have taken := scanObject_perm he hp hm []
  rw [Json.compact, Json.intercalate_eq_listing, read, List.cons_append,
    Json.skipSpace_cons (by decide)]
  exact bind_eq_ok_iff.mpr ⟨_, taken, rfl⟩

end Fields

/-- The line of an event is read as the event. -/
theorem read_toLine {e : Event} (he : e.Writable) : read e.toLine = .ok e.cut := by
  rw [toLine, toJson_eq]
  exact read_compact he (.refl _) (.refl _)

/-- The digits that are cut off are not written. -/
theorem toJson_cut (e : Event) : e.cut.toJson = e.toJson := by
  rw [toJson, timestamp_cut]
  rfl

/-! ### What is in a written event -/

theorem Writable.isIntegral_toJson {e : Event} (h : e.Writable) : e.toJson.isIntegral :=
  everywhere_toJson Json.lenient_isIntegral h.isRead h.isIntegral_content h.isIntegral_extra

section Read

variable {e : Event} (h : e.IsRead)
include h

/-- The values that the metadata keeps were read. -/
theorem IsRead.extra : ∀ m ∈ e.metadata.extra, Json.IsRead (innerDepth - 1) m.2 := by
  obtain ⟨members, hread, -, hp⟩ := toMembers_perm h.metadata
  exact fun m hm => hread.values m (hp.subset (List.mem_append_right _ hm))

theorem IsRead.hasWords_toJson : e.toJson.hasWords :=
  everywhere_toJson Json.lenient_hasWords h h.content.words fun m hm => (h.extra m hm).words

theorem IsRead.hasDistinctKeys_toJson : e.toJson.hasDistinctKeys :=
  everywhere_toJson Json.lenient_hasDistinctKeys h
    (Json.hasDistinctKeys_of_isSorted h.content.sorted)
    fun m hm => Json.hasDistinctKeys_of_isSorted (h.extra m hm).sorted

end Read

end AgentThreads.Event
