import AgentThreads.Proofs.Grouping.Interleaving
import AgentThreads.Proofs.Grouping.Pairing

/-!
# Contents of entries

What stands in the entry of a spawn, said of the events of the session alone. Its nested events are
those that name it as their parent. Its polls are the calls of the poll tool that name it as their
task and are under no spawn, if it runs in the background. Results are neither, and the spawn itself
is not nested in its own entry, even if it names itself.
-/

namespace AgentThreads

/-- The event is under a spawn: its parent id names one, other than the event itself. -/
def Placed.isUnder (spawns : List Spawn) (p : Placed) : Bool :=
  spawns.any fun s =>
    p.event.metadata.parentId? == some s.toolId && s.call.position != p.position

namespace Spawn.Discovered

variable {tool pollTool : String} {events : List Placed} {spawns : List Spawn} {p : Placed}
  {s : Spawn}

/-- No spawn has an event nested under it that is under none. -/
theorem nestedUnder?_eq_none_iff (h : Discovered tool events spawns) :
    Role.nestedUnder? spawns p = none ↔ p.isUnder spawns = false := by
  simp only [Option.eq_none_iff_forall_ne_some, ne_eq, h.nestedUnder?_eq_some_iff, Placed.isUnder,
    List.any_eq_false, Bool.and_eq_true, beq_iff_eq, bne_iff_ne, not_and]

/-- Which events have the role of being nested under a spawn. -/
theorem isNestedUnder_ofPlaced_iff (h : Discovered tool events spawns) (hs : s ∈ spawns) :
    (Role.ofPlaced pollTool spawns p).isNestedUnder s.toolId ↔
      p.event.isResult = false ∧ p.event.metadata.parentId? = some s.toolId ∧
        s.call.position ≠ p.position := by
  constructor
  · intro hnested
    cases hrole : Role.ofPlaced pollTool spawns p with
    | nested t =>
      obtain ⟨hres, hunder⟩ := Role.ofPlaced_eq_nested_iff.mp hrole
      obtain ⟨ht, hparent, hpos⟩ := h.nestedUnder?_eq_some_iff.mp hunder
      have hid : t.toolId = s.toolId := by simpa [hrole, Role.isNestedUnder] using hnested
      obtain rfl := List.inj_on_of_nodup_map h.ids ht hs hid
      exact ⟨hres, hparent, hpos⟩
    | result | poll | spawn | message => simp [hrole, Role.isNestedUnder] at hnested
  · rintro ⟨hres, hparent, hpos⟩
    have hunder := h.nestedUnder?_eq_some_iff.mpr ⟨hs, hparent, hpos⟩
    rw [Role.ofPlaced_eq_nested_iff.mpr ⟨hres, hunder⟩]
    simp [Role.isNestedUnder]

/-- Which events have the role of polling a spawn. -/
theorem isPollOf_ofPlaced_iff (h : Discovered tool events spawns) (hs : s ∈ spawns) :
    (Role.ofPlaced pollTool spawns p).isPollOf s.toolId ↔
      s.call.event.metadata.runsInBackground ∧ p.event.isCallOf pollTool ∧
        p.event.metadata.taskId? = some s.toolId ∧ p.isUnder spawns = false := by
  constructor
  · intro hpolls
    cases hrole : Role.ofPlaced pollTool spawns p with
    | poll t =>
      obtain ⟨-, hunder, hpoll⟩ := Role.ofPlaced_eq_poll_iff.mp hrole
      obtain ⟨hcall, ht, hback, htask⟩ := h.pollOf?_eq_some_iff.mp hpoll
      have hid : t.toolId = s.toolId := by simpa [hrole, Role.isPollOf] using hpolls
      obtain rfl := List.inj_on_of_nodup_map h.ids ht hs hid
      exact ⟨hback, hcall, htask, h.nestedUnder?_eq_none_iff.mp hunder⟩
    | result | nested | spawn | message => simp [hrole, Role.isPollOf] at hpolls
  · rintro ⟨hback, hcall, htask, hunder⟩
    have hpoll := h.pollOf?_eq_some_iff.mpr ⟨hcall, hs, hback, htask⟩
    have hrole := Role.ofPlaced_eq_poll_iff.mpr
      ⟨Event.isResult_eq_false_of_isCallOf hcall, h.nestedUnder?_eq_none_iff.mpr hunder, hpoll⟩
    rw [hrole]
    simp [Role.isPollOf]

end Spawn.Discovered

namespace Assembly.Fits

variable {options : Options} {events : List Placed} {a : Assembly} (h : a.Fits options events)
include h

/-- The nested events of an entry are those under its spawn. -/
theorem nested_entry {s : Spawn} (hs : s ∈ a.spawns) :
    (a.entry s).nested = events.filter fun p =>
      !p.event.isResult && p.event.metadata.parentId? == some s.toolId &&
        s.call.position != p.position := by
  change a.cast.nestedUnder s.toolId = _
  rw [Role.Cast.nestedUnder_eq, h.cast, Role.playing_assign]
  apply List.filter_congr
  intro p _
  rw [Bool.eq_iff_iff, h.discovered.isNestedUnder_ofPlaced_iff hs]
  simp [and_assoc]

/-- The polls of an entry are the calls that ask about its spawn and are under none, if it runs in the
background. -/
theorem polls_entry {s : Spawn} (hs : s ∈ a.spawns) :
    (a.entry s).polls =
      if s.call.event.metadata.runsInBackground then
        events.filter fun p =>
          p.event.isCallOf options.pollTool && p.event.metadata.taskId? == some s.toolId &&
            !p.isUnder a.spawns
      else [] := by
  change a.cast.pollsOf s.toolId = _
  rw [Role.Cast.pollsOf_eq, h.cast, Role.playing_assign]
  split
  · case isTrue hback =>
    apply List.filter_congr
    intro p _
    rw [Bool.eq_iff_iff, h.discovered.isPollOf_ofPlaced_iff hs]
    simp [hback, and_assoc]
  · case isFalse hback =>
    apply List.filter_eq_nil_iff.mpr
    intro p _ hpolls
    exact hback ((h.discovered.isPollOf_ofPlaced_iff hs).mp hpolls).1

end Assembly.Fits

/-- A call has the result that the index holds for its tool id. -/
theorem ResultIndex.resultOf_call {tool : String} {e : Event} (h : e.isCallOf tool)
    (results : ResultIndex) : results.resultOf e = e.metadata.toolId?.bind results.find? := by
  have hcall : e.isCall := (Bool.and_eq_true_iff.mp h).1
  rw [resultOf, if_pos hcall]

/-- **Contents of entries**: an entry belongs to a spawn. Its nested events are, in the order of the
session, the events other than the spawn that are no results and name it as their parent; its polls
are the calls of the poll tool that name it as their task and are under no spawn, or none if it does
not run in the background. The last poll status is that of the result which the index holds for the
last poll. -/
theorem Assembly.entry_contents (events : List Event) (results : ResultIndex) (options : Options) :
    let placed := Placed.ofEvents events
    let a := ofPlaced placed results options
    ∀ e ∈ a.groups.flatMap Group.entries, ∃ s ∈ a.spawns,
      e.spawn = s.call ∧ s.call.event.metadata.toolId? = some s.toolId ∧
      (e.nested = placed.filter fun p =>
        !p.event.isResult && p.event.metadata.parentId? == some s.toolId &&
          s.call.position != p.position) ∧
      (e.polls = if s.call.event.metadata.runsInBackground then
          placed.filter fun p =>
            p.event.isCallOf options.pollTool && p.event.metadata.taskId? == some s.toolId &&
              !p.isUnder a.spawns
        else []) ∧
      e.lastPollStatus = (do
        let poll ← e.polls.getLast?
        let id ← poll.event.metadata.toolId?
        let result ← results.find? id
        result.event.metadata.status) := by
  intro placed a e he
  have h : a.Fits options placed := fits_ofPlaced (Placed.inOrder_ofEvents events) results options
  obtain ⟨s, hs, rfl⟩ := h.exists_spawn_of_entry he
  have hid := (Spawn.ofPlaced?_eq_some_iff.mp (h.discovered.call s hs)).2.1
  refine ⟨s, hs, rfl, hid, h.nested_entry hs, h.polls_entry hs, ?_⟩
  change (a.entry s).polls.getLast?.bind _ = (a.entry s).polls.getLast?.bind _
  apply Option.bind_congr
  intro poll hpoll
  -- A poll is a call, so its result is looked up by its tool id.
  have hrole := ((h.mem_polls_iff hs).mp (List.mem_of_getLast? hpoll)).2
  have hcall := (h.discovered.pollOf?_eq_some_iff.mp (Role.ofPlaced_eq_poll_iff.mp hrole).2.2).1
  change (results.resultOf poll.event).bind _ = _
  rw [ResultIndex.resultOf_call hcall, Option.bind_assoc]
  rfl

/-- A call that asks about a spawn is nested if it is under another one, and a spawn that names itself
is not nested in its own entry. -/
theorem Assembly.entry_contents_asked_from_another :
    let call (tool id parent task : String) : Event :=
      { kind := .toolCall, time := ⟨0, 0⟩,
        metadata :=
          { toolId := some id, toolName := some tool, parentId := some parent, taskId := some task,
            background := some true } }
    let result : Event :=
      { kind := .toolResult, time := ⟨0, 0⟩,
        metadata := { toolId := some "p", parentId := some "b", status := some "done" } }
    let events := [call "TaskOutput" "p" "" "a", call "Task" "a" "a" "", call "Task" "b" "" "",
      call "TaskOutput" "q" "b" "a", result]
    let placed := Placed.ofEvents events
    let a := ofPlaced placed (ResultIndex.ofPlaced placed) {}
    (∃ e ∈ a.groups.flatMap Group.entries, ∃ s ∈ a.spawns, e.spawn = s.call ∧
      e.nested = placed.filter fun p =>
        !p.event.isResult && p.event.metadata.parentId? == some s.toolId &&
          s.call.position != p.position) ∧
      (a.groups.flatMap Group.entries).map (fun e => e.spawn.position) = [1, 2] ∧
      (a.groups.flatMap Group.entries).map (fun e => e.nested.map (·.position)) = [[], [3]] ∧
      (a.groups.flatMap Group.entries).map (fun e => e.polls.map (·.position)) = [[0], []] ∧
      (a.groups.flatMap Group.entries).map (·.lastPollStatus) = [some "done", none] := by
  intro call result events placed a
  have first : (a.groups.flatMap Group.entries).head?.isSome := by decide +kernel
  obtain ⟨e, he⟩ := Option.isSome_iff_exists.mp first
  have he := List.mem_of_mem_head? he
  obtain ⟨s, hs, hspawn, -, hnested, -⟩ :=
    entry_contents events (ResultIndex.ofPlaced placed) {} e he
  exact ⟨⟨e, he, s, hs, hspawn, hnested⟩, by decide +kernel, by decide +kernel, by decide +kernel,
    by decide +kernel⟩

end AgentThreads
