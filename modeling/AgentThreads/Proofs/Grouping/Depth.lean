import AgentThreads.Proofs.Grouping.Contents

/-!
# Spawn calls inside others

Subagents are shown one level deep. A spawn call that is inside no other is a spawn and has an entry.
One that is inside such a call is nested in its entry. But a call that is inside a nested one has no
entry to stand in, and stands as a message; and so does each call of a circle. Discovery leaves out
what is inside any spawn call, and nesting looks only at those that are left, so the two agree for one
level and no further.
-/

namespace AgentThreads

/-- The spawn call is inside another one, the first with the id that its parent id names. -/
structure Spawn.IsInside (tool : String) (events : List Placed) (s t : Spawn) : Prop where
  /-- The other one is the first with its id. -/
  isFirst : t.IsFirst tool events
  /-- The parent id names it. -/
  parent : s.call.event.metadata.parentId? = some t.toolId
  /-- A call that names itself is not inside itself. -/
  ne : t ≠ s

section Calls

variable {tool : String} {events : List Placed} (ho : Placed.InOrder events) {s t : Spawn}
include ho

/-- A spawn call is inside one other at most. -/
theorem Spawn.IsInside.eq {u : Spawn} (ht : s.IsInside tool events t)
    (hu : s.IsInside tool events u) : t = u := by
  refine ht.isFirst.eq hu.isFirst ho ?_
  exact Option.some_inj.mp (ht.parent.symm.trans hu.parent)

/-- The spawns are the first spawn calls with their ids that are inside no other. -/
theorem Roster.mem_spawns_iff : s ∈ (ofPlaced tool events).spawns ↔
    s.IsFirst tool events ∧ ∀ t, ¬s.IsInside tool events t := by
  rw [spawns, List.mem_filter, mem_holders_iff ho]
  refine and_congr_right fun hs => ?_
  unfold isTopLevel
  constructor
  · rintro htop t ⟨ht, hparent, hne⟩
    simp only [hparent, Bool.or_eq_true, beq_iff_eq, Option.isNone_iff_eq_none] at htop
    rcases htop with hid | hnone
    · exact hne (ht.eq hs ho hid)
    · rw [(holder?_eq_some_iff ho).mpr ⟨ht, rfl⟩] at hnone
      cases hnone
  · intro outside
    split
    · rfl
    · case h_2 parent hparent =>
      rw [Bool.or_eq_true, beq_iff_eq, Option.isNone_iff_eq_none]
      refine or_iff_not_imp_left.mpr fun hne => Option.eq_none_iff_forall_ne_some.mpr fun t ht => ?_
      obtain ⟨hfirst, rfl⟩ := (holder?_eq_some_iff ho).mp ht
      exact outside t ⟨hfirst, hparent, fun heq => hne (by rw [heq])⟩

end Calls

namespace Assembly

/-! ### One place for each event -/

namespace Fits

variable {options : Options} {events : List Placed} {a : Assembly} (h : a.Fits options events)
include h

/-- Where no spawn polls, an event that is no result stands once as a message, as a spawn, nested, or
as a poll. -/
theorem countP_places
    (free : ∀ s ∈ a.spawns, Role.pollOf? options.pollTool a.spawns s.call = none) {p : Placed}
    (hp : p ∈ events) (hres : p.event.isResult = false) :
    (a.groups.filterMap Group.message?).countP (·.position == p.position) +
      ((a.groups.flatMap Group.entries).countP (·.spawn.position == p.position) +
        (((a.groups.flatMap Group.entries).flatMap (·.nested)).countP (·.position == p.position) +
          ((a.groups.flatMap Group.entries).flatMap (·.polls)).countP (·.position == p.position))) =
      1 := by
  have once : (a.groups.flatMap Group.carried).countP (·.position == p.position) = 1 := by
    have mem := List.mem_map_of_mem (f := Placed.position)
      (List.mem_filter.mpr ⟨hp, by simp [hres]⟩ : p ∈ events.filter fun p => !p.event.isResult)
    rw [(h.carried_perm free).countP_eq, (h.inOrder.sublist List.filter_sublist).countP_position,
      if_pos mem]
  rw [(Group.flatMap_carried_perm a.groups).countP_eq] at once
  simp only [List.countP_append, List.countP_map] at once
  exact once

end Fits

/-! ### Places by depth -/

section Depth

variable {events : List Placed} (ho : Placed.InOrder events) (results : ResultIndex)
  {options : Options} (hne : options.spawnTool ≠ options.pollTool) {s t : Spawn}
  (hs : s.IsFirst options.spawnTool events) (hst : s.IsInside options.spawnTool events t)
include ho hne hs hst

/-- What is inside a spawn is nested in its entry. -/
theorem exists_entry_of_isInside (ht : t ∈ (ofPlaced events results options).spawns) :
    ∃ e ∈ (ofPlaced events results options).groups.flatMap Group.entries,
      e.spawn = t.call ∧ s.call ∈ e.nested := by
  have h := fits_ofPlaced ho results options
  obtain ⟨hmem, hcall⟩ := Spawn.mem_callsAmong_iff.mp hs.mem
  have hresult := Event.isResult_eq_false_of_isCallOf (Spawn.ofPlaced?_eq_some_iff.mp hcall).1
  have apart : t.call.position ≠ s.call.position := fun heq =>
    hst.ne (Spawn.eq_of_position_eq ho hst.isFirst.mem hs.mem heq)
  refine ⟨(ofPlaced events results options).entry t, ?_, rfl, ?_⟩
  · rw [h.flatMap_entries]
    exact List.mem_map_of_mem ((h.shown_perm (h.free_of_ne hne)).mem_iff.mpr ht)
  · rw [h.nested_entry ht, List.mem_filter]
    exact ⟨hmem, by simp [hresult, hst.parent, apart]⟩

/-- What is inside a call that is no spawn is a message. -/
theorem mem_messages_of_isInside (ht : t ∉ (ofPlaced events results options).spawns) :
    s.call ∈ (ofPlaced events results options).groups.filterMap Group.message? := by
  have h := fits_ofPlaced ho results options
  obtain ⟨hmem, hcall⟩ := Spawn.mem_callsAmong_iff.mp hs.mem
  have callOf := (Spawn.ofPlaced?_eq_some_iff.mp hcall).1
  rw [h.filterMap_message?, Role.Cast.mem_playing_iff]
  refine ⟨.message, h.mem_cast_iff.mpr ⟨hmem, Role.ofPlaced_eq_message_iff.mpr ?_⟩, rfl⟩
  refine ⟨Event.isResult_eq_false_of_isCallOf callOf, ?_, ?_, ?_⟩
  · -- It is inside one call only, and this one is no spawn.
    refine Option.eq_none_iff_forall_ne_some.mpr fun u hu => ht ?_
    obtain ⟨hus, hparent, hpos⟩ := h.discovered.nestedUnder?_eq_some_iff.mp hu
    have first := ((Roster.mem_spawns_iff ho).mp hus).1
    have inside : s.IsInside options.spawnTool events u :=
      ⟨first, hparent, fun heq => hpos (by rw [heq])⟩
    rwa [hst.eq ho inside]
  · unfold Role.pollOf?
    exact if_neg fun hpoll => hne (Event.eq_of_isCallOf callOf hpoll)
  · refine Option.eq_none_iff_forall_ne_some.mpr fun u hu => ?_
    obtain ⟨hus, hucall⟩ := (h.discovered.find?_position_iff ho hmem).mp hu
    obtain ⟨first, outside⟩ := (Roster.mem_spawns_iff ho).mp hus
    obtain rfl := Spawn.eq_of_position_eq ho first.mem hs.mem (by rw [hucall])
    exact outside t hst

end Depth

/-- **Spawn calls by depth**: if the two tools differ, the first spawn call with an id is the spawn of
one entry if it is inside no other; it is nested in the entry of the call that it is inside if that one
is inside no other; and otherwise it is the event of one message. It stands in no other of these
places. -/
theorem first_calls_by_depth (events : List Event) (results : ResultIndex) (options : Options)
    (hne : options.spawnTool ≠ options.pollTool) :
    let tool := options.spawnTool
    let placed := Placed.ofEvents events
    let groups := (ofPlaced placed results options).groups
    let entries := groups.flatMap Group.entries
    ∀ s : Spawn, s.IsFirst tool placed →
      let asSpawn := entries.countP (·.spawn.position == s.call.position)
      let asNested := (entries.flatMap (·.nested)).countP (·.position == s.call.position)
      let asMessage := (groups.filterMap Group.message?).countP (·.position == s.call.position)
      (asSpawn = 1 ∧ asNested = 0 ∧ asMessage = 0 ∧ ∀ t, ¬s.IsInside tool placed t) ∨
      (asSpawn = 0 ∧ asNested = 1 ∧ asMessage = 0 ∧
        ∃ t, s.IsInside tool placed t ∧ (∀ u, ¬t.IsInside tool placed u) ∧
          ∃ e ∈ entries, e.spawn = t.call ∧ s.call ∈ e.nested) ∨
      (asSpawn = 0 ∧ asNested = 0 ∧ asMessage = 1 ∧
        ∃ t u, s.IsInside tool placed t ∧ t.IsInside tool placed u) := by
  intro tool placed groups entries s hs asSpawn asNested asMessage
  have ho : Placed.InOrder placed := Placed.inOrder_ofEvents events
  have h := fits_ofPlaced ho results options
  have free := h.free_of_ne hne
  obtain ⟨hmem, hcall⟩ := Spawn.mem_callsAmong_iff.mp hs.mem
  have hresult := Event.isResult_eq_false_of_isCallOf (Spawn.ofPlaced?_eq_some_iff.mp hcall).1
  have places : asMessage + (asSpawn + (asNested +
      (entries.flatMap (·.polls)).countP (·.position == s.call.position))) = 1 :=
    h.countP_places free hmem hresult
  by_cases inside : ∃ t, s.IsInside tool placed t
  · obtain ⟨t, hst⟩ := inside
    by_cases deeper : ∃ u, t.IsInside tool placed u
    · obtain ⟨u, htu⟩ := deeper
      have ht : t ∉ (ofPlaced placed results options).spawns := fun ht =>
        ((Roster.mem_spawns_iff ho).mp ht).2 u htu
      have mem := mem_messages_of_isInside ho results hne hs hst ht
      have pos : 0 < asMessage := List.countP_pos_iff.mpr ⟨_, mem, beq_self_eq_true _⟩
      exact .inr (.inr ⟨by omega, by omega, by omega, t, u, hst, htu⟩)
    · have outside : ∀ u, ¬t.IsInside tool placed u := not_exists.mp deeper
      have ht := (Roster.mem_spawns_iff ho).mpr ⟨hst.isFirst, outside⟩
      obtain ⟨e, he, hspawn, hnested⟩ := exists_entry_of_isInside ho results hne hs hst ht
      have mem : s.call ∈ entries.flatMap (·.nested) := List.mem_flatMap.mpr ⟨e, he, hnested⟩
      have pos : 0 < asNested := List.countP_pos_iff.mpr ⟨_, mem, beq_self_eq_true _⟩
      exact .inr (.inl ⟨by omega, by omega, by omega, t, hst, outside, e, he, hspawn, hnested⟩)
  · have outside : ∀ t, ¬s.IsInside tool placed t := not_exists.mp inside
    have hspawn := (Roster.mem_spawns_iff ho).mpr ⟨hs, outside⟩
    have one : asSpawn = 1 :=
      (h.countP_entries_eq_one_iff hspawn).mpr ((h.shown_perm free).mem_iff.mpr hspawn)
    exact .inl ⟨one, by omega, by omega, outside⟩

/-- Three spawn calls, of which two are inside each other and the last is inside none: the first is a
message, and so it is neither a spawn nor nested. -/
theorem first_calls_by_depth_circle :
    let call (id parent : String) : Event :=
      { kind := .toolCall, time := ⟨0, 0⟩,
        metadata := { toolId := some id, toolName := some "Task", parentId := some parent } }
    let events := [call "a" "b", call "b" "a", call "c" ""]
    let placed := Placed.ofEvents events
    let first : Spawn := ⟨⟨0, call "a" "b"⟩, "a"⟩
    let groups := (ofPlaced placed [] {}).groups
    "Task" ≠ "TaskOutput" ∧ first.IsFirst "Task" placed ∧
      (groups.flatMap Group.entries).countP (·.spawn.position == 0) = 0 ∧
      ((groups.flatMap Group.entries).flatMap (·.nested)).countP (·.position == 0) = 0 ∧
      (groups.filterMap Group.message?).countP (·.position == 0) = 1 ∧
      ∃ t u, first.IsInside "Task" placed t ∧ t.IsInside "Task" placed u := by
  intro call events placed first groups
  have isCall : Spawn.ofPlaced? "Task" first.call = some first :=
    Spawn.ofPlaced?_eq_some_iff.mpr ⟨by decide, by decide, rfl⟩
  have isFirst : first.IsFirst "Task" placed :=
    ⟨Spawn.mem_callsAmong_iff.mpr ⟨Placed.mem_ofEvents_iff.mpr rfl, isCall⟩, by decide +kernel⟩
  have message : (groups.filterMap Group.message?).countP (·.position == 0) = 1 := by
    decide +kernel
  rcases first_calls_by_depth events [] {} (by decide) first isFirst with
    ⟨-, -, none, -⟩ | ⟨-, -, none, -⟩ | ⟨noSpawn, notNested, -, inside⟩
  · exact absurd (none.symm.trans message) (by decide)
  · exact absurd (none.symm.trans message) (by decide)
  · exact ⟨by decide, isFirst, noSpawn, notNested, message, inside⟩

/-- Of three spawn calls of which each is inside the one before, the last is a message: it is no
spawn, and nested nowhere. -/
theorem first_call_two_levels_deep :
    let call (id parent : String) : Event :=
      { kind := .toolCall, time := ⟨0, 0⟩,
        metadata := { toolId := some id, toolName := some "Task", parentId := some parent } }
    let placed := Placed.ofEvents [call "a" "", call "b" "a", call "c" "b"]
    let last : Spawn := ⟨⟨2, call "c" "b"⟩, "c"⟩
    let groups := (ofPlaced placed [] {}).groups
    let entries := groups.flatMap Group.entries
    "Task" ≠ "TaskOutput" ∧ last.IsFirst "Task" placed ∧
      ¬(∃ e ∈ entries, e.spawn.position = 2 ∨ ∃ p ∈ e.nested, p.position = 2) ∧
      ∃ p ∈ groups.filterMap Group.message?, p.position = 2 := by
  intro call placed last groups entries
  have isCall : Spawn.ofPlaced? "Task" last.call = some last :=
    Spawn.ofPlaced?_eq_some_iff.mpr ⟨by decide, by decide, rfl⟩
  have isFirst : last.IsFirst "Task" placed :=
    ⟨Spawn.mem_callsAmong_iff.mpr ⟨Placed.mem_ofEvents_iff.mpr rfl, isCall⟩, by decide +kernel⟩
  exact ⟨by decide, isFirst, by decide +kernel, by decide +kernel⟩

end Assembly

end AgentThreads
