import AgentThreads.Proofs.Grouping.Casting

/-!
# Spawns and repeats

Which events discovery takes for spawns and which for repeats, said of the events alone. Whether an id
is new is asked as the calls come, but whether a parent is a spawn call is asked of all of them. So a
parent counts wherever it stands, and also if it is no spawn itself: of calls whose parents form a
circle none is a spawn. A spawn that names its own id as its parent is nested nowhere.
-/

namespace AgentThreads

/-- The event is a call of the tool and carries the id, which is not empty. -/
structure Event.IsCallWith (tool id : String) (e : Event) : Prop where
  /-- It calls the tool. -/
  isCallOf : e.isCallOf tool
  /-- It carries the id. -/
  toolId : e.metadata.toolId = some id
  /-- The id is not empty. -/
  ne : id ≠ ""

section Calls

variable {tool : String} {events : List Placed} {s : Spawn}

/-! ### First calls -/

theorem Event.isCallWith_iff {id : String} {e : Event} :
    e.IsCallWith tool id ↔ e.isCallOf tool ∧ e.metadata.toolId? = some id := by
  rw [Metadata.toolId?, nonEmpty_eq_some_iff]
  exact ⟨fun h => ⟨h.isCallOf, h.toolId, h.ne⟩, fun ⟨hcall, hid, hne⟩ => ⟨hcall, hid, hne⟩⟩

namespace Spawn

theorem mem_callsAmong_iff_isCallWith :
    s ∈ callsAmong tool events ↔ s.call ∈ events ∧ s.call.event.IsCallWith tool s.toolId := by
  rw [mem_callsAmong_iff, ofPlaced?_eq_some_iff, Event.isCallWith_iff, eq_self_iff_true, and_true]

/-- The first spawn call with an id is the one that no other stands before. -/
theorem isFirst_iff : s.IsFirst tool events ↔
    s.call ∈ events ∧ s.call.event.IsCallWith tool s.toolId ∧
      ∀ q ∈ events, q.position < s.call.position → ¬q.event.IsCallWith tool s.toolId := by
  constructor
  · intro h
    obtain ⟨hmem, hcall⟩ := mem_callsAmong_iff_isCallWith.mp h.mem
    refine ⟨hmem, hcall, fun q hq hlt again => ?_⟩
    have le := h.le ⟨q, s.toolId⟩ (mem_callsAmong_iff_isCallWith.mpr ⟨hq, again⟩) rfl
    exact absurd hlt (Nat.not_lt.mpr le)
  · rintro ⟨hmem, hcall, first⟩
    refine ⟨mem_callsAmong_iff_isCallWith.mpr ⟨hmem, hcall⟩, fun t ht hid => ?_⟩
    obtain ⟨htmem, htcall⟩ := mem_callsAmong_iff_isCallWith.mp ht
    exact Nat.not_lt.mp fun hlt => first t.call htmem hlt (hid ▸ htcall)

end Spawn

/-! ### The roster -/

namespace Roster

/-- A call is at the top if its parent id is absent, its own, or the id of no spawn call. -/
theorem isTopLevel_iff : (ofPlaced tool events).isTopLevel s ↔
    ∀ parent, s.call.event.metadata.parentId = some parent →
      parent = s.toolId ∨ ∀ q ∈ events, ¬q.event.IsCallWith tool parent := by
  unfold isTopLevel
  split
  · case h_1 hnone =>
    -- An empty parent id counts as absent, and no spawn call carries it.
    refine iff_of_true rfl fun parent hparent => .inr fun q _ hcall => ?_
    exact Option.eq_none_iff_forall_ne_some.mp hnone parent
      (nonEmpty_eq_some_iff.mpr ⟨hparent, hcall.ne⟩)
  · case h_2 parent hparent =>
    obtain ⟨hparent, -⟩ := nonEmpty_eq_some_iff.mp hparent
    rw [Bool.or_eq_true, beq_iff_eq, Option.isNone_iff_eq_none, holder?_eq_none_iff, hparent]
    simp only [Option.some_inj, forall_eq', Event.isCallWith_iff, not_and, ne_eq]

variable (ho : Placed.InOrder events)
include ho

theorem mem_spawns_iff_isCallWith : s ∈ (ofPlaced tool events).spawns ↔
    s.call ∈ events ∧ s.call.event.IsCallWith tool s.toolId ∧
      (∀ q ∈ events, q.position < s.call.position → ¬q.event.IsCallWith tool s.toolId) ∧
      ∀ parent, s.call.event.metadata.parentId = some parent →
        parent = s.toolId ∨ ∀ q ∈ events, ¬q.event.IsCallWith tool parent := by
  rw [spawns, List.mem_filter, mem_holders_iff ho, isTopLevel_iff, Spawn.isFirst_iff, and_assoc,
    and_assoc]

/-- An event repeats an id if it carries the id of an earlier spawn call. -/
theorem exists_repeat_iff {p : Placed} :
    (∃ x ∈ (ofPlaced tool events).repeats, x.later.call = p) ↔
      p ∈ events ∧ ∃ id, p.event.IsCallWith tool id ∧
        ∃ q ∈ events, q.position < p.position ∧ q.event.IsCallWith tool id := by
  constructor
  · rintro ⟨x, hx, rfl⟩
    obtain ⟨hlater, t, ht, hid, hlt⟩ := (mem_later_iff ho).mp (List.mem_map_of_mem hx)
    obtain ⟨hmem, hcall⟩ := Spawn.mem_callsAmong_iff_isCallWith.mp hlater
    obtain ⟨htmem, htcall⟩ := Spawn.mem_callsAmong_iff_isCallWith.mp ht
    exact ⟨hmem, x.later.toolId, hcall, t.call, htmem, hlt, hid ▸ htcall⟩
  · rintro ⟨hp, id, hcall, q, hq, hlt, hqcall⟩
    have later : (⟨p, id⟩ : Spawn) ∈ (ofPlaced tool events).repeats.map (·.later) :=
      (mem_later_iff ho).mpr ⟨Spawn.mem_callsAmong_iff_isCallWith.mpr ⟨hp, hcall⟩,
        ⟨q, id⟩, Spawn.mem_callsAmong_iff_isCallWith.mpr ⟨hq, hqcall⟩, rfl, hlt⟩
    obtain ⟨x, hx, heq⟩ := List.mem_map.mp later
    exact ⟨x, hx, by rw [heq]⟩

end Roster

end Calls

/-- **Discovery**: the spawns stand as their events do. They are the calls of the tool with an id that
no earlier one carries and with a parent id that is absent, their own, or carried by no such call. The
repeats are the calls with an id that an earlier one carries. No two spawns have the same id, and none
is nested. -/
theorem Roster.spawns_and_repeats (tool : String) (events : List Event) :
    let placed := Placed.ofEvents events
    let roster := ofPlaced tool placed
    Placed.InOrder (roster.spawns.map (·.call)) ∧
      (∀ s, s ∈ roster.spawns ↔
        s.call ∈ placed ∧ s.call.event.IsCallWith tool s.toolId ∧
          (∀ q ∈ placed, q.position < s.call.position → ¬q.event.IsCallWith tool s.toolId) ∧
          ∀ parent, s.call.event.metadata.parentId = some parent →
            parent = s.toolId ∨ ∀ q ∈ placed, ¬q.event.IsCallWith tool parent) ∧
      (∀ p, (∃ x ∈ roster.repeats, x.later.call = p) ↔
        p ∈ placed ∧ ∃ id, p.event.IsCallWith tool id ∧
          ∃ q ∈ placed, q.position < p.position ∧ q.event.IsCallWith tool id) ∧
      (roster.spawns.map (·.toolId)).Nodup ∧
      ∀ s ∈ roster.spawns, Role.nestedUnder? roster.spawns s.call = none := by
  intro placed roster
  have ho : Placed.InOrder placed := Placed.inOrder_ofEvents events
  have discovered : Spawn.Discovered tool placed roster.spawns := discovered tool placed
  exact ⟨discovered.inOrder ho, fun s => mem_spawns_iff_isCallWith ho,
    fun p => exists_repeat_iff ho, discovered.ids, fun s hs => discovered.nestedUnder?_call hs⟩

/-- Two calls inside each other, one that is its own parent, one that repeats it, and one whose parent
is no spawn call: the third and the last are spawns, and the fourth is a repeat. -/
example :
    let call (id parent : String) : Event :=
      { kind := .toolCall, time := ⟨0, 0⟩,
        metadata := { toolId := some id, toolName := some "Task", parentId := some parent } }
    let events := [call "a" "b", call "b" "a", call "c" "c", call "c" "", call "d" "e"]
    let roster := Roster.ofPlaced "Task" (Placed.ofEvents events)
    roster.spawns.map (·.call.position) = [2, 4] ∧
      roster.repeats.map (·.later.call.position) = [3] := by
  decide +kernel

end AgentThreads
