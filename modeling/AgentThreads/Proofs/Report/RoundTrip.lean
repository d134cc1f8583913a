import AgentThreads.Proofs.Grouping.Pairing
import AgentThreads.Proofs.Report.Reading
import AgentThreads.Proofs.Session.RoundTrip
import AgentThreads.Report.Document

/-!
# Written raw documents

The raw document of a session that was read says all that the grouping says: read again, it gives the
same groups with the same events, whose times are cut to the millisecond, and the same results. In the
text no object has a key twice, so nothing in it hides behind something else.
-/

namespace AgentThreads

open Json (gathered byKey)

/-! ### Members -/

theorem Keyed.find?_toList_map {α : Type} (k key : String) (o : Option α) (f : α → Json) :
    Keyed.find? k (o.map fun x => (key, f x)).toList = if k = key then o.map f else none := by
  cases o with
  | none => simp [find?_nil]
  | some x => simp [find?_cons, find?_nil]

theorem Json.find?_gatheredMembers (gather : Json.Gather) (k : String)
    (members : List (String × Json)) :
    Keyed.find? k (Json.gatheredMembers gather members) =
      (Keyed.find? k members).map (gathered gather) := by
  induction members with
  | nil => rfl
  | cons m rest ih =>
    obtain ⟨key, v⟩ := m
    rw [Json.gatheredMembers, Keyed.find?_cons, Keyed.find?_cons, ih]
    split <;> rfl

theorem Json.keys_gatheredMembers (gather : Json.Gather) (members : List (String × Json)) :
    Keyed.keys (Json.gatheredMembers gather members) = Keyed.keys members := by
  rw [Json.gatheredMembers_eq_map, Keyed.keys, List.map_map]
  rfl

/-- In an object that was read each member has the value that was written. -/
theorem Json.member?_gathered {members : List (String × Json)} (h : (Keyed.keys members).Nodup)
    (k : String) : (gathered byKey (.object members)).member? k =
      (Keyed.find? k members).map (gathered byKey) := by
  have nodup : (Keyed.keys (Json.gatheredMembers byKey members)).Nodup := by
    rwa [Json.keys_gatheredMembers]
  rw [← Json.find?_gatheredMembers]
  exact (Keyed.find?_eq_of_perm (Keyed.ofMembers_perm nodup).symm nodup k).symm

theorem Json.items?_gathered (items : List Json) :
    (gathered byKey (.array items)).items? = some (items.map (gathered byKey)) :=
  congrArg some (Json.gatheredItems_eq_map byKey items)

theorem mapM_map_eq_some {α β γ : Type} {f : α → β} {read : β → Option γ} {g : α → γ} {l : List α}
    (h : ∀ x ∈ l, read (f x) = some (g x)) : (l.map f).mapM read = some (l.map g) := by
  induction l with
  | nil => rfl
  | cons x l ih =>
    obtain ⟨hx, hl⟩ := List.forall_mem_cons.mp h
    rw [List.map_cons, List.mapM_cons, hx, ih hl]
    rfl

/-! ### Events -/

namespace Event

/-- The members of an event as they are in a document that was read, each taken by itself. -/
theorem gatheredMembers_members {e : Event} (he : e.IsRead) (metadata : List (String × Json)) :
    Json.gatheredMembers byKey (e.members metadata) =
      e.members (Keyed.ofMembers (Json.gatheredMembers byKey metadata)) := by
  have value (f : Field) : (e.value? metadata f).map (gathered byKey) =
      e.value? (Keyed.ofMembers (Json.gatheredMembers byKey metadata)) f := by
    cases f with
    | id => exact (Option.map_map ..).trans rfl
    | kind | timestamp | metadata => rfl
    | content =>
      simp only [value?]
      split
      · rfl
      · exact congrArg some (Json.gathered_byKey he.content.sorted)
  rw [Json.gatheredMembers_eq_map, members, List.map_filterMap]
  refine List.filterMap_congr fun f _ => ?_
  rw [← value f, Option.map_map, Option.map_map]
  rfl

/-- An event is read out of a document. -/
theorem ofJson?_gathered {e : Event} (he : e.Writable) :
    ofJson? (gathered byKey e.toJson) = some e.cut := by
  have metadata : (Keyed.ofMembers (Json.gatheredMembers byKey e.metadata.toMembers)).Perm
      e.metadata.toMembers := by
    obtain ⟨members, hread, -, hp⟩ := toMembers_perm he.isRead.metadata
    rw [Json.gatheredMembers_eq_self fun m hm =>
      Json.gathered_byKey (hread.values m (hp.subset hm)).sorted]
    exact Keyed.ofMembers_perm (nodup_keys_toMembers he.isRead.metadata)
  have members := Keyed.ofMembers_perm (nodup_keys_members e
    (Keyed.ofMembers (Json.gatheredMembers byKey e.metadata.toMembers)))
  have read := read_compact he metadata members
  have taken : gathered byKey e.toJson = .object (Keyed.ofMembers (e.members
      (Keyed.ofMembers (Json.gatheredMembers byKey e.metadata.toMembers)))) := by
    rw [toJson_eq, gathered, gatheredMembers_members he.isRead]
    rfl
  rw [ofJson?, taken, read]
  rfl

end Event

namespace Document

theorem optional?_gathered {result : Option Placed} (h : ∀ p ∈ result, p.event.Writable) :
    optional? Event.ofJson? (result.map (gathered byKey ∘ (·.event.toJson))) =
      some (result.map (·.event.cut)) := by
  cases result with
  | none => rfl
  | some p =>
    rw [Option.map_some, optional?, Function.comp, Event.ofJson?_gathered (h p rfl)]
    rfl

theorem events?_gathered {events : List Placed} (h : ∀ p ∈ events, p.event.Writable) :
    events? (gathered byKey (Placed.toArray events)) = some (events.map (·.event.cut)) := by
  rw [events?, Placed.toArray, Json.items?_gathered, List.map_map]
  exact mapM_map_eq_some fun p hp => Event.ofJson?_gathered (h p hp)

/-! ### Entries -/

/-- The members of an entry, in an object that may have a type in front. -/
def tagged (type : Option String) (e : Entry) : List (String × Json) :=
  Metadata.FieldType.text.member "type" type ++ e.toMembers

theorem nodup_keys_tagged (type : Option String) (e : Entry) :
    (Keyed.keys (tagged type e)).Nodup := by
  obtain ⟨spawn, result, nested, polls, lastPollStatus⟩ := e
  cases type <;> cases result <;> cases lastPollStatus <;>
    simp [tagged, Entry.toMembers, Keyed.keys, Metadata.FieldType.member, Placed.member]

/-- Each member of an entry is found under its key. -/
theorem find?_tagged (type : Option String) (e : Entry) :
    Keyed.find? "spawn" (tagged type e) = some e.spawn.event.toJson ∧
      Keyed.find? "result" (tagged type e) = e.result.map (·.event.toJson) ∧
      Keyed.find? "nested" (tagged type e) = some (Placed.toArray e.nested) ∧
      Keyed.find? "polls" (tagged type e) = some (Placed.toArray e.polls) ∧
      Keyed.find? "lastPollStatus" (tagged type e) = e.lastPollStatus.map .string := by
  simp only [tagged, Entry.toMembers, Metadata.FieldType.member, Placed.member, Keyed.find?_append,
    Keyed.find?_toList_map, Keyed.find?_cons, Keyed.find?_nil]
  refine ⟨?_, ?_, ?_, ?_, ?_⟩ <;> simp

/-- An entry is read out of a document. -/
theorem ofJson?_tagged {e : Entry} (he : ∀ p ∈ e.referenced, p.event.Writable)
    (type : Option String) : Subagent.ofJson? (gathered byKey (.object (tagged type e))) =
      some (.ofEntry Event.cut e) := by
  simp only [Entry.referenced, List.forall_mem_cons, List.forall_mem_append, Option.mem_toList,
    List.cons_append] at he
  obtain ⟨hspawn, ⟨hresult, hnested⟩, hpolls⟩ := he
  have member (k : String) := Json.member?_gathered (nodup_keys_tagged type e) k
  obtain ⟨spawn, result, nested, polls, lastPollStatus⟩ := find?_tagged type e
  have results := optional?_gathered hresult
  have statuses : optional? Json.asString? (e.lastPollStatus.map (gathered byKey ∘ .string)) =
      some e.lastPollStatus := by
    cases e.lastPollStatus <;> rfl
  simp only [Subagent.ofJson?, member, spawn, result, nested, polls, lastPollStatus,
    Option.map_map, Option.map_some, results, statuses, Option.bind_eq_bind, Option.bind_some,
    Event.ofJson?_gathered hspawn, events?_gathered hnested, events?_gathered hpolls]
  rfl

/-! ### Groups -/

theorem nodup_keys_message (p : Placed) (result : Option Placed) :
    (Keyed.keys (("type", Json.string "message") :: ("event", p.event.toJson)
      :: Placed.member "result" result)).Nodup := by
  cases result <;> simp [Keyed.keys, Placed.member]

theorem nodup_keys_parallel (entries : List Entry) :
    (Keyed.keys [("type", Json.string "parallel_subagents"),
      ("entries", .array (entries.map fun e => .object e.toMembers))]).Nodup := by
  simp [Keyed.keys]

theorem ofJson?_message {p : Placed} {result : Option Placed} (hp : p.event.Writable)
    (hresult : ∀ r ∈ result, r.event.Writable) :
    Part.ofJson? (gathered byKey (Group.message p result).toJson) =
      some (.message p.event.cut (result.map (·.event.cut))) := by
  have member (k : String) := Json.member?_gathered (nodup_keys_message p result) k
  have results := optional?_gathered hresult
  simp only [Placed.member, Keyed.find?_cons, Keyed.find?_toList_map] at member
  simp only [Part.ofJson?, Group.toJson, Placed.member, member]
  simp [Json.asString?, gathered, Event.ofJson?_gathered hp, results]

/-- A group is read out of a document. -/
theorem ofJson?_group {g : Group} (hg : ∀ p ∈ g.referenced, p.event.Writable) :
    Part.ofJson? (gathered byKey g.toJson) = some (.ofGroup Event.cut g) := by
  cases g with
  | message p result =>
    obtain ⟨hp, hresult⟩ := List.forall_mem_cons.mp hg
    exact ofJson?_message hp fun r hr => hresult r (Option.mem_toList.mpr hr)
  | subagent e =>
    have whole := ofJson?_tagged hg (some "subagent")
    have type : (gathered byKey (.object (tagged (some "subagent") e))).member? "type" =
        some (.string "subagent") :=
      Json.member?_gathered (nodup_keys_tagged (some "subagent") e) "type"
    have same : (Group.subagent e).toJson = .object (tagged (some "subagent") e) := rfl
    rw [same, Part.ofJson?, type]
    simp [Json.asString?, whole, Part.ofGroup]
  | parallel entries =>
    have nodup := nodup_keys_parallel entries
    have type : (gathered byKey (Group.parallel entries).toJson).member? "type" =
        some (.string "parallel_subagents") := Json.member?_gathered nodup "type"
    have items : (gathered byKey (Group.parallel entries).toJson).member? "entries" =
        some (gathered byKey (.array (entries.map fun e => .object e.toMembers))) :=
      Json.member?_gathered nodup "entries"
    have whole : (entries.map (gathered byKey ∘ fun e => .object e.toMembers)).mapM
        Subagent.ofJson? = some (entries.map (.ofEntry Event.cut)) :=
      mapM_map_eq_some fun e he => ofJson?_tagged
        (fun p hp => hg p (List.mem_flatMap.mpr ⟨e, he, hp⟩)) none
    rw [Part.ofJson?, type, items]
    simp [Json.asString?, Json.items?_gathered, whole, Part.ofGroup]

/-! ### Documents -/

theorem nodup_keys_grouping (g : Grouping) : (Keyed.keys g.toMembers).Nodup := by
  simp [Keyed.keys, Grouping.toMembers]

/-- A document is read. -/
theorem ofJson?_grouping {g : Grouping}
    (hgroups : ∀ p ∈ g.groups.flatMap Group.referenced, p.event.Writable)
    (hresults : ∀ m ∈ g.results, m.2.event.Writable) (hsorted : Keyed.Sorted g.results) :
    ofJson? (gathered byKey (.object g.toMembers)) = some (ofGrouping Event.cut g) := by
  have nodup := nodup_keys_grouping g
  have groups : (gathered byKey (.object g.toMembers)).member? "groups" =
      some (gathered byKey (.array (g.groups.map Group.toJson))) :=
    Json.member?_gathered nodup "groups"
  have results : (gathered byKey (.object g.toMembers)).member? "results" =
      some (gathered byKey (.object (g.results.map fun m => (m.1, m.2.event.toJson)))) :=
    Json.member?_gathered nodup "results"
  have parts : (g.groups.map (gathered byKey ∘ Group.toJson)).mapM Part.ofJson? =
      some (g.groups.map (.ofGroup Event.cut)) :=
    mapM_map_eq_some fun group hg => ofJson?_group fun p hp =>
      hgroups p (List.mem_flatMap.mpr ⟨group, hg, hp⟩)
  have placed : gathered byKey (.object (g.results.map fun m => (m.1, m.2.event.toJson))) =
      .object (g.results.map fun m => (m.1, gathered byKey m.2.event.toJson)) := by
    have sorted := hsorted.map_values fun p => gathered byKey p.event.toJson
    rw [gathered, Json.gatheredMembers_eq_map, List.map_map]
    exact congrArg Json.object (sorted.ofMembers_eq (.refl _))
  have index : (g.results.map fun m => (m.1, gathered byKey m.2.event.toJson)).mapM
      (fun m => (Event.ofJson? m.2).map (m.1, ·)) =
        some (g.results.map fun m => (m.1, m.2.event.cut)) :=
    mapM_map_eq_some fun m hm => by
      rw [Event.ofJson?_gathered (hresults m hm)]
      rfl
  rw [placed] at results
  rw [ofJson?, groups, results]
  simp [Json.items?_gathered, Json.members?, parts, index, ofGrouping]

/-! ### Tests of the values in a document -/

section Tests

variable {test : Json → Bool} (htest : Json.Lenient test)
include htest

theorem everywhere_toArray {events : List Placed}
    (h : ∀ p ∈ events, p.event.toJson.everywhere test) :
    (Placed.toArray events).everywhere test := by
  refine Json.everywhere_array.mpr ⟨htest.array _, fun v hv => ?_⟩
  obtain ⟨p, hp, rfl⟩ := List.mem_map.mp hv
  exact h p hp

/-- What a test finds in an entry is what it finds in its events. -/
theorem everywhere_tagged {e : Entry} (h : ∀ p ∈ e.referenced, p.event.toJson.everywhere test)
    (type : Option String) : (Json.object (tagged type e)).everywhere test := by
  simp only [Entry.referenced, List.forall_mem_cons, List.forall_mem_append, Option.mem_toList,
    List.cons_append] at h
  obtain ⟨hspawn, ⟨hresult, hnested⟩, hpolls⟩ := h
  refine Json.everywhere_object.mpr ⟨htest.object _ (nodup_keys_tagged type e), fun m hm => ?_⟩
  simp only [tagged, Entry.toMembers, Metadata.FieldType.member, Placed.member, List.mem_append,
    List.mem_cons, Option.mem_toList, Option.map_eq_some_iff, List.not_mem_nil, or_false] at hm
  rcases hm with ⟨_, -, rfl⟩ | ((rfl | ⟨r, hr, rfl⟩) | rfl | rfl) | ⟨_, -, rfl⟩
  · exact htest.string _
  · exact hspawn
  · exact hresult r hr
  · exact everywhere_toArray htest hnested
  · exact everywhere_toArray htest hpolls
  · exact htest.string _

/-- What a test finds in a group is what it finds in its events. -/
theorem everywhere_group {g : Group} (h : ∀ p ∈ g.referenced, p.event.toJson.everywhere test) :
    g.toJson.everywhere test := by
  cases g with
  | message p result =>
    refine Json.everywhere_object.mpr ⟨htest.object _ (nodup_keys_message p result), fun m hm => ?_⟩
    obtain ⟨hp, hresult⟩ := List.forall_mem_cons.mp h
    simp only [Placed.member, List.mem_cons, Option.mem_toList, Option.map_eq_some_iff] at hm
    rcases hm with rfl | rfl | ⟨r, hr, rfl⟩
    · exact htest.string _
    · exact hp
    · exact hresult r (Option.mem_toList.mpr hr)
  | subagent e => exact everywhere_tagged htest h (some "subagent")
  | parallel entries =>
    refine Json.everywhere_object.mpr ⟨htest.object _ (nodup_keys_parallel entries), fun m hm => ?_⟩
    simp only [List.mem_cons, List.not_mem_nil, or_false] at hm
    rcases hm with rfl | rfl
    · exact htest.string _
    · refine Json.everywhere_array.mpr ⟨htest.array _, fun v hv => ?_⟩
      obtain ⟨e, he, rfl⟩ := List.mem_map.mp hv
      exact everywhere_tagged htest (fun p hp => h p (List.mem_flatMap.mpr ⟨e, he, hp⟩)) none

/-- What a test finds in a document is what it finds in the events of the groups and in the
results. -/
theorem everywhere_grouping {g : Grouping} (hsorted : Keyed.Sorted g.results)
    (hgroups : ∀ p ∈ g.groups.flatMap Group.referenced, p.event.toJson.everywhere test)
    (hresults : ∀ m ∈ g.results, m.2.event.toJson.everywhere test) :
    (Json.object g.toMembers).everywhere test := by
  refine Json.everywhere_object.mpr ⟨htest.object _ (nodup_keys_grouping g), fun m hm => ?_⟩
  simp only [Grouping.toMembers, List.mem_cons, List.not_mem_nil, or_false] at hm
  rcases hm with rfl | rfl
  · refine Json.everywhere_array.mpr ⟨htest.array _, fun v hv => ?_⟩
    obtain ⟨group, hg, rfl⟩ := List.mem_map.mp hv
    exact everywhere_group htest fun p hp => hgroups p (List.mem_flatMap.mpr ⟨group, hg, hp⟩)
  · have nodup := (hsorted.map_values fun p => p.event.toJson).nodup_keys
    refine Json.everywhere_object.mpr ⟨htest.object _ nodup, fun m hm => ?_⟩
    obtain ⟨entry, he, rfl⟩ := List.mem_map.mp hm
    exact hresults entry he

end Tests

end Document

namespace Grouping

variable (events : List Event) (options : Options)

/-- What the groups of a session refer to are events of the session. -/
theorem event_mem_of_mem_referenced {p : Placed}
    (hp : p ∈ (ofEvents events options).groups.flatMap Group.referenced) : p.event ∈ events := by
  have placed := Assembly.mem_of_mem_referenced (Placed.inOrder_ofEvents events) options hp
  exact List.mem_of_getElem? (Placed.mem_ofEvents_iff.mp placed)

/-- The results of a session are events of the session. -/
theorem event_mem_of_mem_results {m : String × Placed}
    (hm : m ∈ (ofEvents events options).results) : m.2.event ∈ events :=
  List.mem_of_getElem? (Placed.mem_ofEvents_iff.mp (ResultIndex.mem_of_mem_ofPlaced hm))

/-- What a test finds in the document of a session is what it finds in the events. -/
theorem everywhere_toMembers {test : Json → Bool} (htest : Json.Lenient test)
    (h : ∀ e ∈ events, e.toJson.everywhere test) :
    (Json.object (ofEvents events options).toMembers).everywhere test :=
  Document.everywhere_grouping htest (ResultIndex.sorted_ofPlaced _)
    (fun _ hp => h _ (event_mem_of_mem_referenced events options hp))
    (fun _ hm => h _ (event_mem_of_mem_results events options hm))

end Grouping

namespace Session

/-- **A raw document says all that the grouping says.** Its text ends in one line feed and is one
object, in which no object has a key twice. Read again, it gives the groups of the session in order,
with their events, and the results by tool id, all with times cut to the millisecond. -/
theorem read_rawJson {text : List Char} {s : Session} (hread : readEvents text = .ok s.events)
    (hyears : ∀ e ∈ s.events, 0 ≤ e.time.date.year ∧ e.time.date.year ≤ 9999)
    (hint : ∀ e ∈ s.events, e.isIntegral) (options : Options)
    (hdepth : (Json.object (Grouping.ofEvents s.events options).toMembers).depth ≤ 127) :
    (∃ body, (s.rawJson options).toList = body ++ ['\n'] ∧ body.getLast? = some '\x7d') ∧
      (∃ members, Json.readAsWritten (s.rawJson options).toList = .ok (.object members) ∧
        (Json.object members).hasDistinctKeys) ∧
      Document.read? (s.rawJson options).toList =
        some (.ofGrouping Event.cut (Grouping.ofEvents s.events options)) := by
  have writable := writable_of_readEvents hread hyears hint
  have words := Grouping.everywhere_toMembers s.events options Json.lenient_hasWords
    fun e he => (writable e he).isRead.hasWords_toJson
  have integral := Grouping.everywhere_toMembers s.events options Json.lenient_isIntegral
    fun e he => (writable e he).isIntegral_toJson
  have distinct := Grouping.everywhere_toMembers s.events options Json.lenient_hasDistinctKeys
    fun e he => (writable e he).isRead.hasDistinctKeys_toJson
  rw [rawJson, String.toList_ofList]
  refine ⟨⟨_, rfl, ?_⟩, ⟨_, Json.readAsWritten_pretty words integral hdepth, distinct⟩, ?_⟩
  · rw [Json.prettyAt, Json.block_eq_listing, ← List.cons_append, List.getLast?_concat]
  · rw [Document.read?, Json.read_pretty words integral hdepth]
    exact Document.ofJson?_grouping
      (fun p hp => writable _ (Grouping.event_mem_of_mem_referenced s.events options hp))
      (fun m hm => writable _ (Grouping.event_mem_of_mem_results s.events options hm))
      (ResultIndex.sorted_ofPlaced _)

/-- What the document of `otherSpellings` says: the message happened under the subagent. -/
def spelledDocument : Document where
  parts :=
    [.subagent
      { spawn :=
          { kind := .toolCall
            time := ⟨1483228799, 1123000000⟩
            metadata := { toolId := some "\n", toolName := some "Task" } }
        result := none
        nested :=
          [{ kind := .message
             time := ⟨-1, 999000000⟩
             content := .array []
             metadata := { parentId := some "\n", extra := [("status", .int 7)] } }]
        polls := []
        lastPollStatus := none }]
  results := []

/-- The document of `otherSpellings` is read back. -/
theorem read_rawJson_other_spellings :
    readEvents otherSpellings.toList = .ok spelledEvents ∧
      (∀ e ∈ spelledEvents, 0 ≤ e.time.date.year ∧ e.time.date.year ≤ 9999) ∧
      (∀ e ∈ spelledEvents, e.isIntegral) ∧
      (Json.object (Grouping.ofEvents spelledEvents {}).toMembers).depth ≤ 127 ∧
      Document.read? ((⟨.ofString "s", spelledEvents⟩ : Session).rawJson {}).toList =
        some spelledDocument := by
  have years : ∀ e ∈ spelledEvents, 0 ≤ e.time.date.year ∧ e.time.date.year ≤ 9999 := by decide
  have integral : ∀ e ∈ spelledEvents, e.isIntegral := by decide
  have depth : (Json.object (Grouping.ofEvents spelledEvents {}).toMembers).depth ≤ 127 := by cbv
  have parts : Document.ofGrouping Event.cut (Grouping.ofEvents spelledEvents {}) =
      spelledDocument := by cbv
  have read := read_rawJson (s := ⟨.ofString "s", spelledEvents⟩) readEvents_otherSpellings years
    integral {} depth
  exact ⟨readEvents_otherSpellings, years, integral, depth, read.2.2.trans (congrArg some parts)⟩

end Session

end AgentThreads
