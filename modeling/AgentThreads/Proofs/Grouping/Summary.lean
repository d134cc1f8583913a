import AgentThreads.Grouping.Summary
import AgentThreads.Proofs.Grouping.Coverage
import AgentThreads.Proofs.Grouping.StreamOrder

/-!
# What a summary adds up to

A group adds to the counts of a summary one for itself, and one for each event that it carries. So the
counts of a session add up to the number of its groups, and, if no spawn polls, to the number of its
events that are no results. A parallel group is counted for two subagents or more.
-/

namespace AgentThreads

namespace Summary

/-- The groups that are counted. -/
def groups (s : Summary) : Nat :=
  s.messages + s.subagents + s.parallelGroups

/-- The groups that are counted and are no messages. -/
def clusters (s : Summary) : Nat :=
  s.subagents + s.parallelGroups

/-- The events that are counted. -/
def events (s : Summary) : Nat :=
  s.messages + s.subagents + s.parallelSubagents + s.nestedEvents + s.pollingCalls

/-! ### What a group adds -/

/-- Entries add their nested events and their polls, and nothing else. -/
theorem foldl_addEntry (s : Summary) (entries : List Entry) :
    entries.foldl addEntry s =
      { s with
        nestedEvents := s.nestedEvents + (entries.flatMap (·.nested)).length
        pollingCalls := s.pollingCalls + (entries.flatMap (·.polls)).length } := by
  induction entries generalizing s with
  | nil => rfl
  | cons e entries ih =>
    rw [List.foldl_cons, ih, addEntry]
    simp only [List.flatMap_cons, List.length_append, Nat.add_assoc]

/-- What entries carry, by what carries it. -/
theorem length_flatMap_carried (entries : List Entry) :
    (entries.flatMap Entry.carried).length = entries.length +
      ((entries.flatMap (·.nested)).length + (entries.flatMap (·.polls)).length) := by
  induction entries with
  | nil => rfl
  | cons e entries ih =>
    simp only [List.flatMap_cons, List.length_append, ih, Entry.carried, List.cons_append,
      List.length_cons]
    omega

theorem groups_addGroup (s : Summary) (g : Group) : (s.addGroup g).groups = s.groups + 1 := by
  cases g with
  | message event result =>
    simp only [addGroup, groups]
    omega
  | subagent entry =>
    simp only [addGroup, addEntry, groups]
    omega
  | parallel entries =>
    rw [addGroup, foldl_addEntry]
    rfl

theorem clusters_addGroup (s : Summary) (g : Group) :
    (s.addGroup g).clusters = s.clusters + ([g].filter (!·.message?.isSome)).length := by
  cases g with
  | message event result => rfl
  | subagent entry => exact Nat.add_right_comm ..
  | parallel entries =>
    rw [addGroup, foldl_addEntry]
    rfl

/-- A group adds the events that it carries. -/
theorem events_addGroup (s : Summary) (g : Group) :
    (s.addGroup g).events = s.events + g.carried.length := by
  cases g with
  | message event result =>
    simp only [addGroup, events, Group.carried, List.length_singleton]
    omega
  | subagent entry =>
    simp only [addGroup, addEntry, events, Group.carried, Entry.carried, List.cons_append,
      List.length_cons, List.length_append]
    omega
  | parallel entries =>
    rw [addGroup, foldl_addEntry, Group.carried, length_flatMap_carried]
    simp only [events]
    omega

/-- A parallel group of two entries or more is counted for two subagents or more. -/
theorem two_mul_parallelGroups_addGroup {s : Summary}
    (h : 2 * s.parallelGroups ≤ s.parallelSubagents) {g : Group}
    (hg : ∀ entries, g = .parallel entries → 2 ≤ entries.length) :
    2 * (s.addGroup g).parallelGroups ≤ (s.addGroup g).parallelSubagents := by
  cases g with
  | message event result => exact h
  | subagent entry => exact h
  | parallel entries =>
    have several := hg entries rfl
    rw [addGroup, foldl_addEntry]
    dsimp only
    omega

/-! ### What groups add up to -/

/-- If each group adds the elements of a list to a count, groups add those of all their lists. -/
theorem foldl_addGroup {β : Type} {count : Summary → Nat} {counted : Group → List β}
    (step : ∀ s g, count (s.addGroup g) = count s + (counted g).length) (s : Summary)
    (groups : List Group) :
    count (groups.foldl addGroup s) = count s + (groups.flatMap counted).length := by
  induction groups generalizing s with
  | nil => rfl
  | cons g groups ih =>
    rw [List.foldl_cons, ih, step, List.flatMap_cons, List.length_append, Nat.add_assoc]

theorem groups_ofGroups (groups : List Group) : (ofGroups groups).groups = groups.length := by
  have step (s : Summary) (g : Group) : (s.addGroup g).groups = s.groups + [g].length :=
    groups_addGroup s g
  have count := foldl_addGroup step {} groups
  rwa [List.flatMap_singleton', show ({} : Summary).groups = 0 from rfl, Nat.zero_add] at count

theorem clusters_ofGroups (groups : List Group) :
    (ofGroups groups).clusters = (groups.filter (!·.message?.isSome)).length := by
  have count := foldl_addGroup clusters_addGroup {} groups
  rwa [← List.filter_flatMap, List.flatMap_singleton', show ({} : Summary).clusters = 0 from rfl,
    Nat.zero_add] at count

theorem events_ofGroups (groups : List Group) :
    (ofGroups groups).events = (groups.flatMap Group.carried).length := by
  have count := foldl_addGroup events_addGroup {} groups
  rwa [show ({} : Summary).events = 0 from rfl, Nat.zero_add] at count

theorem two_mul_parallelGroups_le {groups : List Group}
    (h : ∀ entries, Group.parallel entries ∈ groups → 2 ≤ entries.length) :
    2 * (ofGroups groups).parallelGroups ≤ (ofGroups groups).parallelSubagents :=
  List.foldlRecOn (motive := fun s => 2 * s.parallelGroups ≤ s.parallelSubagents) groups addGroup
    (Nat.le_refl 0) fun _ hs _ hg =>
      two_mul_parallelGroups_addGroup hs fun entries heq => h entries (heq ▸ hg)

end Summary

/-- The events of a session that pass a test, at their places or not. -/
theorem Placed.length_filter_ofEvents (test : Event → Bool) (events : List Event) :
    ((ofEvents events).filter fun p => test p.event).length = events.countP test := by
  conv_rhs => rw [← map_event_ofEvents events, List.countP_map]
  exact List.countP_eq_length_filter.symm

/-- **The summary of a grouping**: the messages, subagents and parallel groups that it counts are the
groups, and each parallel group is counted for two subagents or more. If the two tools differ, the
messages, spawns, nested events and polls that it counts are the events that are no results, and the
subagents and parallel groups are the clusters of the spawns. -/
theorem Assembly.summary_adds_up (events : List Event) (results : ResultIndex) (options : Options) :
    let placed := Placed.ofEvents events
    let groups := (ofPlaced placed results options).groups
    let s := Summary.ofGroups groups
    groups.length = s.messages + s.subagents + s.parallelGroups ∧
      2 * s.parallelGroups ≤ s.parallelSubagents ∧
      (options.spawnTool ≠ options.pollTool →
        s.messages + s.subagents + s.parallelSubagents + s.nestedEvents + s.pollingCalls =
            events.countP (!·.isResult) ∧
          s.subagents + s.parallelGroups = (Cluster.ofSpawns options.thresholdMs
            (Roster.ofPlaced options.spawnTool placed).spawns).length) := by
  intro placed groups s
  have h : (ofPlaced placed results options).Fits options placed :=
    fits_ofPlaced (Placed.inOrder_ofEvents events) results options
  refine ⟨(Summary.groups_ofGroups groups).symm,
    Summary.two_mul_parallelGroups_le fun _ => h.two_le_length_of_parallel, fun hne => ⟨?_, ?_⟩⟩
  · have free := h.free_of_ne hne
    calc s.events = (groups.flatMap Group.carried).length := Summary.events_ofGroups groups
      _ = (placed.filter fun p => !p.event.isResult).length := (h.carried_perm free).length_eq
      _ = events.countP (!·.isResult) := Placed.length_filter_ofEvents (!·.isResult) events
  · have standing := (h.standing_perm (h.free_of_ne hne)).length_eq
    calc s.clusters = (groups.filter (!·.message?.isSome)).length := Summary.clusters_ofGroups groups
      _ = (ofPlaced placed results options).clusters.length := by
        rw [h.filter_not_message, List.length_map, standing]

/-- Two spawns that are each other's parents and no group's, two that run in parallel, one of them with
an event under it and the other with a poll, and a result. -/
theorem Assembly.summary_adds_up_cyclic :
    let event (kind : Event.Kind) (tool id parent task : String) : Event :=
      { kind, time := ⟨0, 0⟩,
        metadata :=
          { toolId := some id, toolName := some tool, parentId := some parent, taskId := some task,
            background := some true } }
    let events := [event .toolCall "Task" "a" "b" "", event .toolCall "Task" "b" "a" "",
      event .toolCall "Task" "c" "" "", event .toolCall "Task" "d" "d" "",
      event .toolCall "Read" "e" "c" "", event .toolCall "TaskOutput" "f" "" "d",
      event .toolResult "" "f" "" ""]
    let s := Summary.ofGroups (ofPlaced (Placed.ofEvents events) [] {}).groups
    "Task" ≠ "TaskOutput" ∧ s = ⟨2, 0, 1, 2, 1, 1⟩ ∧
      s.messages + s.subagents + s.parallelSubagents + s.nestedEvents + s.pollingCalls = 6 := by
  intro event events s
  exact ⟨by decide, by decide +kernel,
    ((summary_adds_up events [] {}).2.2 (by decide)).1.trans (by decide)⟩

end AgentThreads
