import AgentThreads.Proofs.Grouping.Pairing
import AgentThreads.Proofs.Grouping.Shifting

/-!
# The index of results

An index lists the tool ids that results carry, each once and in increasing order of their bytes, and
each with the last result that carries it. A search finds what is listed and nothing else. Events that
are put behind others overrule them: an id is looked up among the later events, and among the earlier
ones only if none of the later carries it.
-/

namespace AgentThreads

namespace ResultIndex

/-- A result carries a tool id if the text of the id is there and is not empty. -/
theorem answers_iff_toolId {toolId : String} {p : Placed} :
    answers toolId p ↔
      toolId ≠ "" ∧ p.event.isResult ∧ p.event.metadata.toolId = some toolId := by
  rw [answers_iff, Metadata.toolId?, nonEmpty_eq_some_iff]
  constructor
  · rintro ⟨hresult, hid, hne⟩
    exact ⟨hne, hresult, hid⟩
  · rintro ⟨hne, hresult, hid⟩
    exact ⟨hresult, hid, hne⟩

/-- The tool ids that the results among events carry. -/
theorem exists_answers_ofEvents_iff {events : List Event} {toolId : String} :
    (∃ p ∈ Placed.ofEvents events, answers toolId p) ↔
      toolId ≠ "" ∧ ∃ e ∈ events, e.isResult ∧ e.metadata.toolId = some toolId := by
  simp only [answers_iff_toolId]
  constructor
  · rintro ⟨p, hp, hne, he⟩
    exact ⟨hne, p.event, List.mem_of_getElem? (Placed.mem_ofEvents_iff.mp hp), he⟩
  · rintro ⟨hne, e, he, hid⟩
    obtain ⟨place, hplace⟩ := List.mem_iff_getElem?.mp he
    exact ⟨⟨place, e⟩, Placed.mem_ofEvents_iff.mpr hplace, hne, hid⟩

/-- What an index lists is what a search finds. -/
theorem mem_ofPlaced_iff {events : List Placed} {toolId : String} {r : Placed} :
    (toolId, r) ∈ ofPlaced events ↔ (ofPlaced events).find? toolId = some r :=
  (Keyed.find?_eq_some_iff_mem (sorted_ofPlaced events).nodup_keys).symm

/-- An index lists the ids that results carry. -/
theorem mem_keys_ofPlaced_iff {events : List Placed} {toolId : String} :
    toolId ∈ Keyed.keys (ofPlaced events) ↔ ∃ p ∈ events, answers toolId p := by
  have listed : toolId ∈ Keyed.keys (ofPlaced events) ↔
      ((ofPlaced events).find? toolId).isSome := by
    rw [Option.isSome_iff_exists, Keyed.keys, List.mem_map]
    constructor
    · rintro ⟨⟨_, r⟩, hr, rfl⟩
      exact ⟨r, mem_ofPlaced_iff.mp hr⟩
    · rintro ⟨r, hr⟩
      exact ⟨(toolId, r), mem_ofPlaced_iff.mpr hr, rfl⟩
  rw [listed, find?_ofPlaced, List.find?_isSome]
  simp only [List.mem_reverse]

/-- An index lists each id that a result carries once. -/
theorem count_keys_ofPlaced (events : List Placed) (toolId : String) :
    (Keyed.keys (ofPlaced events)).count toolId =
      if ∃ p ∈ events, answers toolId p then 1 else 0 := by
  rw [(sorted_ofPlaced events).nodup_keys.count]
  simp only [mem_keys_ofPlaced_iff]

/-- Later events overrule earlier ones. -/
theorem find?_append (earlier later : List Placed) (toolId : String) :
    (ofPlaced (earlier ++ later)).find? toolId =
      ((ofPlaced later).find? toolId).or ((ofPlaced earlier).find? toolId) := by
  rw [find?_ofPlaced, find?_ofPlaced, find?_ofPlaced, List.reverse_append, List.find?_append]

/-- A search among events that are moved on finds what it found, moved on. -/
theorem find?_shift (places : Nat) (events : List Placed) (toolId : String) :
    (ofPlaced (events.map (Placed.shift places))).find? toolId =
      ((ofPlaced events).find? toolId).map (Placed.shift places) := by
  rw [find?_ofPlaced, find?_ofPlaced, ← List.map_reverse, List.find?_map]
  rfl

/-- **The index of results**: the tool ids stand in increasing order of their bytes, each that a result
carries once and no other, and with the last result that carries it; a search finds just these. In a
session that goes on, an id is looked up among the later events first, and only if it is absent there
among the earlier ones. -/
theorem lists_last_results (events : List Event) :
    let placed := Placed.ofEvents events
    let index := ofPlaced placed
    (index.Pairwise fun a b => Keyed.keyBytes a.1 < Keyed.keyBytes b.1) ∧
      (∀ id, (Keyed.keys index).count id =
        if id ≠ "" ∧ ∃ e ∈ events, e.isResult ∧ e.metadata.toolId = some id then 1 else 0) ∧
      (∀ id r, (id, r) ∈ index ↔ IsLast placed id r) ∧
      (∀ id r, index.find? id = some r ↔ IsLast placed id r) ∧
      ∀ later id, (ofPlaced (Placed.ofEvents (events ++ later))).find? id =
        (((ofPlaced (Placed.ofEvents later)).find? id).map (Placed.shift events.length)).or
          (index.find? id) := by
  intro placed index
  have found : ∀ id r, index.find? id = some r ↔ IsLast placed id r :=
    fun _ _ => find?_eq_some_iff_isLast (Placed.inOrder_ofEvents events)
  refine ⟨sorted_ofPlaced placed, fun id => ?_, fun id r => mem_ofPlaced_iff.trans (found id r),
    found, fun later id => ?_⟩
  · rw [count_keys_ofPlaced]
    simp only [placed, exists_answers_ofEvents_iff]
  · rw [Placed.ofEvents_append, find?_append, find?_shift]

/-- Two results for one id, one without an id, and a call: the ids are listed in order. -/
example :
    let event (kind : Event.Kind) (id : String) : Event :=
      { kind, time := ⟨0, 0⟩, metadata := { toolId := some id } }
    let events := [event .toolResult "b", event .toolResult "", event .toolCall "c",
      event .toolResult "a", event .toolResult "b"]
    (ofPlaced (Placed.ofEvents events)).map (fun m => (m.1, m.2.position)) =
      [("a", 3), ("b", 4)] := by
  decide +kernel

end ResultIndex

end AgentThreads
