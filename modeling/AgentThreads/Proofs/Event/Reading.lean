import AgentThreads.Event.Reader
import AgentThreads.Proofs.Json.Reading
import AgentThreads.Proofs.Time.Timestamps
import AgentThreads.Session

/-!
# Events that were read

Whatever form an event has in the text, what comes of it has a time on the calendar and the clock, a
content that was read as JSON, and metadata that came out of an object that was read. A field that is
not in the text has a value of which the same is true.
-/

namespace AgentThreads

/-- Metadata as a reader gives it: it came out of an object that was read. -/
def Metadata.IsRead (m : Metadata) : Prop :=
  ∃ members, Json.AreRead (Event.innerDepth - 1) members ∧ ofMembers members = m

namespace Event

/-- An event as a reader gives it. -/
structure IsRead (e : Event) : Prop where
  /-- The time is on the calendar and the clock. -/
  time : e.time.Valid
  /-- The content was read. -/
  content : Json.IsRead innerDepth e.content
  /-- The metadata was read. -/
  metadata : e.metadata.IsRead

theorem isRead_null : Json.IsRead innerDepth .null :=
  Json.isRead_of_isScalar rfl rfl _

theorem isRead_noMetadata : Metadata.IsRead {} :=
  ⟨[], Json.areRead_nil _, rfl⟩

/-! ### Fields -/

theorem wrongType_ne_ok {α : Type} {needed : Needed} {s : List Char} {x : α} :
    wrongType needed s ≠ .ok x := by
  intro h
  unfold wrongType at h
  split at h
  · cases h
  split at h
  · cases h
  split at h
  · cases h
  · obtain ⟨_, -, h⟩ := bind_eq_ok_iff.mp h
    cases h

theorem valid_of_instantOf {v : Json} {t : Instant} (h : instantOf v = .ok t) : t.Valid := by
  unfold instantOf at h
  split at h
  · split at h
    · split at h
      · case h_1 millis _ _ ht =>
        cases h
        exact Instant.valid_of_ofMillis? ht
      · cases h
    · cases h
  · exact Rfc3339.valid_of_read (mapError_eq_ok_iff.mp h)
  · cases h

theorem valid_of_scanTime {s rest : List Char} {t : Instant} (h : scanTime s = .ok (t, rest)) :
    t.Valid := by
  obtain ⟨⟨v, s⟩, -, h⟩ := bind_eq_ok_iff.mp h
  obtain ⟨t', ht, h⟩ := bind_eq_ok_iff.mp h
  cases h
  exact valid_of_instantOf ht

theorem isRead_of_scanContent {s rest : List Char} {v : Json} (h : scanContent s = .ok (v, rest)) :
    Json.IsRead innerDepth v :=
  Json.isRead_of_scanValue (mapError_eq_ok_iff.mp h)

theorem isRead_of_scanMetadata {s rest : List Char} {m : Metadata}
    (h : scanMetadata s = .ok (m, rest)) : m.IsRead := by
  unfold scanMetadata at h
  split at h
  · obtain ⟨⟨members, s⟩, hmembers, h⟩ := bind_eq_ok_iff.mp h
    cases h
    exact ⟨members, Json.areRead_of_scanObject Json.isRead_of_scanValue
      (mapError_eq_ok_iff.mp hmembers), rfl⟩
  · exact absurd h wrongType_ne_ok

/-! ### Objects -/

/-- What has been read of an event. -/
structure Draft.IsRead (d : Draft) : Prop where
  time : ∀ t ∈ d.time, t.Valid
  content : ∀ v ∈ d.content, Json.IsRead innerDepth v
  metadata : ∀ m ∈ d.metadata, m.IsRead

namespace Draft

theorem isRead_empty : IsRead {} := by
  constructor <;> simp

theorem IsRead.scanField {d next : Draft} (hd : d.IsRead) {field : Field} {s rest : List Char}
    (h : d.scanField field s = .ok (next, rest)) : next.IsRead := by
  cases field with
  | id =>
    obtain ⟨⟨id, s⟩, -, heq⟩ := map_eq_ok_iff.mp h
    cases heq
    exact ⟨hd.time, hd.content, hd.metadata⟩
  | kind =>
    obtain ⟨⟨kind, s⟩, -, heq⟩ := map_eq_ok_iff.mp h
    cases heq
    exact ⟨hd.time, hd.content, hd.metadata⟩
  | timestamp =>
    obtain ⟨⟨t, s⟩, ht, heq⟩ := map_eq_ok_iff.mp h
    cases heq
    refine ⟨?_, hd.content, hd.metadata⟩
    simpa using valid_of_scanTime ht
  | content =>
    obtain ⟨⟨v, s⟩, hv, heq⟩ := map_eq_ok_iff.mp h
    cases heq
    refine ⟨hd.time, ?_, hd.metadata⟩
    simpa using isRead_of_scanContent hv
  | metadata =>
    obtain ⟨⟨m, s⟩, hm, heq⟩ := map_eq_ok_iff.mp h
    cases heq
    refine ⟨hd.time, hd.content, ?_⟩
    simpa using isRead_of_scanMetadata hm

/-- A member adds what was read, or nothing if it is skipped. -/
theorem IsRead.scanMember {d next : Draft} (hd : d.IsRead) {key : String} {s rest : List Char}
    (h : d.scanMember key s = .ok (next, rest)) : next.IsRead := by
  unfold Draft.scanMember at h
  split at h
  · obtain ⟨_, -, h⟩ := bind_eq_ok_iff.mp h
    obtain ⟨_, -, h⟩ := bind_eq_ok_iff.mp h
    cases h
    exact hd
  · obtain ⟨-, h⟩ := check_eq_ok_iff.mp h
    obtain ⟨_, -, h⟩ := bind_eq_ok_iff.mp h
    exact hd.scanField h

theorem IsRead.toEvent {d : Draft} (hd : d.IsRead) {e : Event} (h : d.toEvent = .ok e) :
    e.IsRead := by
  unfold Draft.toEvent at h
  split at h
  · cases h
  · cases h
  · case h_3 kind time _ htime =>
    cases h
    refine ⟨hd.time time htime, ?_, ?_⟩
    · cases hc : d.content with
      | none => exact isRead_null
      | some v => exact hd.content v hc
    · cases hm : d.metadata with
      | none => exact isRead_noMetadata
      | some m => exact hd.metadata m hm

end Draft

theorem isRead_of_scanObject {s rest : List Char} {e : Event}
    (h : scanObject s = .ok (e, rest)) : e.IsRead := by
  obtain ⟨first, -, h⟩ := bind_eq_ok_iff.mp h
  obtain ⟨⟨draft, s⟩, hdraft, h⟩ := bind_eq_ok_iff.mp h
  obtain ⟨e', he, h⟩ := bind_eq_ok_iff.mp h
  cases h
  have draft_isRead : draft.IsRead :=
    Json.invariant_of_scanMembers (fun hd hm => hd.scanMember hm) hdraft Draft.isRead_empty
  exact draft_isRead.toEvent he

/-! ### Arrays -/

theorem forall_of_scanItem? {α : Type} {scan : Scan α} {P : α → Prop}
    (hscan : ∀ {s x rest}, scan s = .ok (x, rest) → P x) {step next : Json.Step} {x : Option α}
    (h : scanItem? scan step = .ok (x, next)) : ∀ y ∈ x, P y := by
  cases step with
  | close rest =>
    cases h
    simp
  | item s =>
    obtain ⟨⟨y, s⟩, hy, h⟩ := bind_eq_ok_iff.mp h
    obtain ⟨next', -, h⟩ := bind_eq_ok_iff.mp h
    cases h
    simpa using hscan hy

theorem of_scanItem {α : Type} {count : Nat} {scan : Scan α} {P : α → Prop}
    (hscan : ∀ {s x rest}, scan s = .ok (x, rest) → P x) {step next : Json.Step} {x : α}
    (h : scanItem count scan step = .ok (x, next)) : P x := by
  obtain ⟨⟨y, s⟩, hy, h⟩ := bind_eq_ok_iff.mp h
  split at h
  · case h_1 heq =>
    cases heq
    cases h
    exact forall_of_scanItem? hscan hy x rfl
  · cases h

theorem isRead_of_scanArray {s rest : List Char} {e : Event}
    (h : scanArray s = .ok (e, rest)) : e.IsRead := by
  obtain ⟨first, -, h⟩ := bind_eq_ok_iff.mp h
  obtain ⟨⟨id, _⟩, -, h⟩ := bind_eq_ok_iff.mp h
  obtain ⟨⟨kind, _⟩, -, h⟩ := bind_eq_ok_iff.mp h
  obtain ⟨⟨time, _⟩, htime, h⟩ := bind_eq_ok_iff.mp h
  obtain ⟨⟨content, step⟩, hcontent, h⟩ := bind_eq_ok_iff.mp h
  have time_valid : time.Valid := of_scanItem valid_of_scanTime htime
  have content_isRead : Json.IsRead innerDepth (content.getD .null) := by
    cases content with
    | none => exact isRead_null
    | some v => exact forall_of_scanItem? isRead_of_scanContent hcontent v rfl
  cases step with
  | close rest =>
    cases h
    exact ⟨time_valid, content_isRead, isRead_noMetadata⟩
  | item s =>
    obtain ⟨⟨m, _⟩, hm, h⟩ := bind_eq_ok_iff.mp h
    obtain ⟨_, -, h⟩ := bind_eq_ok_iff.mp h
    cases h
    exact ⟨time_valid, content_isRead, isRead_of_scanMetadata hm⟩

/-! ### Texts -/

/-- What an event is read as has what readers see to. -/
theorem isRead_of_read {s : List Char} {e : Event} (h : read s = .ok e) : e.IsRead := by
  have alone {scan : Scan Event} {t : List Char}
      (hscan : ∀ {e' rest}, scan t = .ok (e', rest) → e'.IsRead)
      (h : (do let x ← scan t; json (Json.scanEnd x.2); return x.1) = .ok e) : e.IsRead := by
    obtain ⟨x, he, h⟩ := bind_eq_ok_iff.mp h
    obtain ⟨_, -, h⟩ := bind_eq_ok_iff.mp h
    cases h
    exact hscan he
  unfold read at h
  dsimp only at h
  split at h
  · exact alone isRead_of_scanArray h
  · exact alone isRead_of_scanObject h
  · exact alone (fun he => absurd he wrongType_ne_ok) h

end Event

namespace Session

theorem isRead_of_readLine {line : List Char} {event : Option Event}
    (h : readLine line = .ok event) : ∀ e ∈ event, e.IsRead := by
  unfold readLine at h
  dsimp only at h
  split at h
  · cases h
    simp
  · obtain ⟨e, he, rfl⟩ := map_eq_ok_iff.mp h
    simpa using Event.isRead_of_read he

theorem isRead_of_readLines {lines : List (List Char)} {number : Nat} {events : List Event}
    (h : readLines number lines = .ok events) : ∀ e ∈ events, e.IsRead := by
  induction lines generalizing number events with
  | nil =>
    cases h
    simp
  | cons line rest ih =>
    unfold readLines at h
    split at h
    · cases h
    · case h_2 event hline =>
      obtain ⟨others, hothers, rfl⟩ := map_eq_ok_iff.mp h
      intro e he
      rcases List.mem_append.mp he with he | he
      · exact isRead_of_readLine hline e (Option.mem_toList.mp he)
      · exact ih hothers e he

/-- The events of a session were read. -/
theorem isRead_of_readEvents {s : List Char} {events : List Event}
    (h : readEvents s = .ok events) : ∀ e ∈ events, e.IsRead :=
  isRead_of_readLines h

end Session

end AgentThreads
