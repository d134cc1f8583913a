import AgentThreads.Proofs.Report.Headings

/-!
# Repeated calls in a report

A spawn call that repeats the id of an earlier one has no result: the result belongs to the earlier
call. The groups keep to this. The call is a message without a result, or is nested in an entry, or
is a poll. But the lines of nested events and of polls are written with whatever result the index
finds for an id, so there a repeated call is shown with the result of the earlier one, if there is
any.
-/

namespace AgentThreads

/-! ### Calls without results -/

/-- The index has no result for a call if no result among the events carries its id. -/
theorem ResultIndex.resultOf_eq_none_iff {events : List Placed} {e : Event} {id : String}
    (hcall : e.isCall) (hid : e.metadata.toolId? = some id) :
    (ofPlaced events).resultOf e = none ↔
      ∀ r ∈ events, r.event.isResult → r.event.metadata.toolId? ≠ e.metadata.toolId? := by
  rw [resultOf, if_pos hcall, hid, Option.bind_some, find?_ofPlaced, List.find?_eq_none]
  simp only [List.mem_reverse, answers_iff, not_and, ne_eq]

/-- The line of a nested event tells that it has a result. -/
theorem Markdown.nestedLine_eq_iff {results : ResultIndex} {p : Placed} :
    nestedLine results p = nestedLine [] p ↔ results.resultOf p.event = none := by
  have bare : ResultIndex.resultOf [] p.event = none := by
    unfold ResultIndex.resultOf
    split
    · cases p.event.metadata.toolId? <;> rfl
    · rfl
  rw [nestedLine_eq, nestedLine_eq, String.append_left_inj, nestedStart, nestedStart, bare,
    String.append_right_inj]
  cases results.resultOf p.event with
  | none => simp
  | some r => simp [String.ext_iff]

/-- No place of a report gives the call a result. -/
structure Grouping.Unpaired (g : Grouping) (p : Placed) : Prop where
  /-- It is the event of no message with a result. -/
  message : ∀ r, Group.message p (some r) ∉ g.groups
  /-- It is the spawn of no entry. -/
  spawn : ∀ e ∈ g.groups.flatMap Group.entries, e.spawn ≠ p
  /-- Where it is nested in an entry, its line is that of a session without results. -/
  nested : ∀ e ∈ g.groups.flatMap Group.entries, p ∈ e.nested →
    Markdown.nestedLine g.results p = Markdown.nestedLine [] p
  /-- Where it is a poll, the poll has no result. -/
  poll : ∀ e ∈ g.groups.flatMap Group.entries, p ∈ e.polls → g.results.resultOf p.event = none

/-! ### Repeated calls -/

section Repeats

variable {events : List Placed} (ho : Placed.InOrder events) (options : Options) {p : Placed}
  (hp : p ∈ events) (hrepeat : p.repeatsCall options.spawnTool events)
include ho hp hrepeat

theorem Assembly.message_not_mem_of_repeatsCall (r : Placed) :
    Group.message p (some r) ∉ (ofSession events options).groups := by
  intro hg
  obtain ⟨-, hpaired⟩ := (fits_ofSession ho options).eq_paired_of_message hg
  exact ((paired_eq_some_iff ho options hp).mp hpaired.symm).2.1 hrepeat

theorem Assembly.spawn_ne_of_repeatsCall {e : Entry}
    (he : e ∈ (ofSession events options).groups.flatMap Group.entries) : e.spawn ≠ p := by
  intro heq
  obtain ⟨s, hs, rfl⟩ := (fits_ofSession ho options).exists_spawn_of_entry he
  have first := isRepeat_call ho (ResultIndex.ofPlaced events) options hs
  change s.call = p at heq
  rw [heq, isRepeat_eq_repeatsCall ho _ options hp, hrepeat] at first
  cases first

end Repeats

/-- A repeated call is a call with a tool id. -/
theorem Placed.call_of_repeatsCall {tool : String} {events : List Placed} {p : Placed}
    (h : p.repeatsCall tool events) : p.event.isCall ∧ ∃ id, p.event.metadata.toolId? = some id := by
  obtain ⟨s, hs, -⟩ := repeatsCall_iff.mp h
  obtain ⟨hcall, hid, -⟩ := Spawn.ofPlaced?_eq_some_iff.mp hs
  exact ⟨(Bool.and_eq_true_iff.mp hcall).1, s.toolId, hid⟩

/-- A repeated call has no result in a report if and only if no entry that lists it finds one for its
id. -/
theorem Grouping.unpaired_iff_of_repeatsCall {events : List Event} {options : Options} {p : Placed}
    (hp : p ∈ Placed.ofEvents events)
    (h : p.repeatsCall options.spawnTool (Placed.ofEvents events)) :
    (ofEvents events options).Unpaired p ↔
      ∀ e ∈ (ofEvents events options).groups.flatMap Group.entries, p ∈ e.nested ++ e.polls →
        ∀ r ∈ Placed.ofEvents events, r.event.isResult →
          r.event.metadata.toolId? ≠ p.event.metadata.toolId? := by
  have ho : Placed.InOrder (Placed.ofEvents events) := Placed.inOrder_ofEvents events
  obtain ⟨hcall, id, hid⟩ := Placed.call_of_repeatsCall h
  have none : (ofEvents events options).results.resultOf p.event = none ↔
      ∀ r ∈ Placed.ofEvents events, r.event.isResult →
        r.event.metadata.toolId? ≠ p.event.metadata.toolId? :=
    ResultIndex.resultOf_eq_none_iff hcall hid
  simp only [← none]
  constructor
  · intro unpaired e he hmem
    rcases List.mem_append.mp hmem with hnested | hpoll
    · exact Markdown.nestedLine_eq_iff.mp (unpaired.nested e he hnested)
    · exact unpaired.poll e he hpoll
  · intro apart
    exact
      { message := Assembly.message_not_mem_of_repeatsCall ho options hp h
        spawn := fun _ => Assembly.spawn_ne_of_repeatsCall ho options hp h
        nested := fun e he hmem =>
          Markdown.nestedLine_eq_iff.mpr (apart e he (List.mem_append_left _ hmem))
        poll := fun e he hmem => apart e he (List.mem_append_right _ hmem) }

/-- **Repeated calls**: a spawn call that repeats the id of an earlier one is the event of no message
with a result and the spawn of no entry. No place of the report gives it a result if and only if no
repeated call with the id of a result is nested in an entry or is a poll. -/
theorem Grouping.repeats_unpaired_iff (events : List Event) (options : Options) :
    let placed := Placed.ofEvents events
    let g := ofEvents events options
    (∀ p ∈ placed, p.repeatsCall options.spawnTool placed →
      (∀ r, Group.message p (some r) ∉ g.groups) ∧
        ∀ e ∈ g.groups.flatMap Group.entries, e.spawn ≠ p) ∧
    ((∀ p ∈ placed, p.repeatsCall options.spawnTool placed → g.Unpaired p) ↔
      ∀ e ∈ g.groups.flatMap Group.entries, ∀ p ∈ e.nested ++ e.polls,
        p.repeatsCall options.spawnTool placed →
          ∀ r ∈ placed, r.event.isResult →
            r.event.metadata.toolId? ≠ p.event.metadata.toolId?) := by
  intro placed g
  have ho : Placed.InOrder placed := Placed.inOrder_ofEvents events
  refine ⟨fun p hp h => ⟨Assembly.message_not_mem_of_repeatsCall ho options hp h,
    fun _ => Assembly.spawn_ne_of_repeatsCall ho options hp h⟩, fun unpaired e he p hmem h => ?_,
    fun apart p hp h => (unpaired_iff_of_repeatsCall hp h).mpr fun e he hmem => apart e he p hmem h⟩
  have hp : p ∈ placed := by
    obtain ⟨group, hg, he⟩ := List.mem_flatMap.mp he
    refine Assembly.mem_of_mem_referenced ho options (List.mem_flatMap.mpr
      ⟨group, hg, Group.referenced_of_mem_entries he ?_⟩)
    rw [Entry.referenced, List.append_assoc]
    exact List.mem_append_right _ hmem
  exact (unpaired_iff_of_repeatsCall hp h).mp (unpaired p hp h) e he hmem

/-- A spawn call with a result, and a call under it that repeats its id: the line of the second call
has the status of the first one's result. -/
theorem Grouping.repeat_shown_as_paired :
    let call (parent : Option String) : Event :=
      { kind := .toolCall, time := ⟨0, 0⟩,
        metadata := { toolId := some "a", toolName := some "Task", parentId := parent } }
    let result : Event :=
      { kind := .toolResult, time := ⟨0, 0⟩,
        metadata := { toolId := some "a", status := some "completed" } }
    let events := [call none, result, call (some "a")]
    let later : Placed := ⟨2, call (some "a")⟩
    later.repeatsCall "Task" (Placed.ofEvents events) ∧
      Markdown.nestedLine (ofEvents events {}).results later =
        "- `1970-01-01T00:00:00.000Z` Tool Call `Task` -> `completed`" ∧
      ¬(ofEvents events {}).Unpaired later := by
  intro call result events later
  have entries : (ofEvents events {}).groups.flatMap Group.entries =
      [⟨⟨0, call none⟩, some ⟨1, result⟩, [later], [], none⟩] := by
    cbv
  refine ⟨by decide +kernel, by decide +kernel, fun unpaired => ?_⟩
  have same := unpaired.nested _ (entries ▸ List.mem_singleton_self _) (List.mem_singleton_self later)
  exact absurd same (by decide +kernel)

end AgentThreads
