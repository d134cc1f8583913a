import AgentThreads.Proofs.Grouping.Emission

/-!
# Stream order

If no spawn polls, the leader of a cluster is its anchor, the earliest of its members. So every
group stands at the place of its anchor, and the groups stand as their anchors do. The entries of a
parallel group are those of a cluster, in the order of its members, of which there are two or more.
-/

namespace AgentThreads

namespace Assembly.Fits

variable {options : Options} {events : List Placed} {a : Assembly} (h : a.Fits options events)
include h

/-! ### Parallel groups -/

/-- A parallel group is the group of a cluster of several spawns. -/
theorem exists_cluster_of_parallel {entries : List Entry} (hg : Group.parallel entries ∈ a.groups) :
    ∃ c ∈ a.clusters, c.others ≠ [] ∧ entries = c.members.map a.entry := by
  obtain ⟨⟨p, role⟩, hx, hat⟩ := List.mem_filterMap.mp hg
  cases role with
  | spawn s =>
    rw [h.groupAt?_spawn hx, Option.map_eq_some_iff] at hat
    obtain ⟨c, hc, hgroup⟩ := hat
    refine ⟨c, ((h.clusterAt?_eq_some_iff hx).mp hc).1, ?_⟩
    unfold groupOf at hgroup
    split at hgroup
    · cases hgroup
    · case isFalse hothers =>
      cases hgroup
      exact ⟨by simpa [List.isEmpty_iff] using hothers, rfl⟩
  | result | nested | poll | message => simp [groupAt?] at hat

/-- The spawns of a parallel group stand in order. -/
theorem inOrder_of_parallel {entries : List Entry} (hg : Group.parallel entries ∈ a.groups) :
    Placed.InOrder (entries.map (·.spawn)) := by
  obtain ⟨c, hc, -, rfl⟩ := h.exists_cluster_of_parallel hg
  have calls : (c.members.map a.entry).map (·.spawn) = c.members.map (·.call) := by
    rw [List.map_map]
    rfl
  rw [calls]
  exact (h.discovered.inOrder h.inOrder).sublist ((h.members_sublist hc).map _)

theorem two_le_length_of_parallel {entries : List Entry}
    (hg : Group.parallel entries ∈ a.groups) : 2 ≤ entries.length := by
  obtain ⟨c, -, hothers, rfl⟩ := h.exists_cluster_of_parallel hg
  have := List.length_pos_iff.mpr hothers
  simp only [List.length_map, Cluster.members, List.length_cons]
  omega

/-! ### Anchors -/

variable (free : ∀ s ∈ a.spawns, Role.pollOf? options.pollTool a.spawns s.call = none)
include free

/-- Where no spawn polls, a cluster is led by its anchor. -/
theorem leader?_eq_anchor {c : Cluster} (hc : c ∈ a.clusters) : a.leader? c = some c.anchor := by
  have hs := (h.members_sublist hc).subset c.anchor_mem_members
  exact List.find?_cons_of_pos ((h.isSpawnAt_iff hs).mpr (free _ hs))

/-- Where no spawn polls, the group of a cluster stands at the place of its anchor. -/
theorem groupAt?_eq_some_iff {p : Placed} {s : Spawn} (hx : (p, Role.spawn s) ∈ a.cast)
    {g : Group} :
    a.groupAt? (p, .spawn s) = some g ↔ ∃ c ∈ a.clusters, c.anchor = s ∧ a.groupOf c = g := by
  simp only [h.groupAt?_spawn hx, Option.map_eq_some_iff, h.clusterAt?_eq_some_iff hx]
  constructor
  · rintro ⟨c, ⟨hc, hlead⟩, hg⟩
    have hanchor := (h.leader?_eq_anchor free hc).symm.trans hlead
    exact ⟨c, hc, Option.some_inj.mp hanchor, hg⟩
  · rintro ⟨c, hc, rfl, hg⟩
    exact ⟨c, ⟨hc, h.leader?_eq_anchor free hc⟩, hg⟩

/-- Where no spawn polls, a group stands at the place of its anchor. -/
theorem anchor?_of_groupAt? {x : Placed × Role} (hx : x ∈ a.cast) {g : Group}
    (hg : a.groupAt? x = some g) : g.anchor? = some x.1 := by
  obtain ⟨p, role⟩ := x
  cases role with
  | message =>
    obtain rfl := Option.some_inj.mp hg
    rfl
  | spawn s =>
    obtain ⟨c, -, hanchor, rfl⟩ := (h.groupAt?_eq_some_iff free hx).mp hg
    rw [anchor?_groupOf, hanchor, (h.mem_cast_spawn_iff.mp hx).2.1]
  | result | nested | poll => cases hg

/-- Where no spawn polls, the groups stand as their anchors do. -/
theorem map_anchor?_groups : ∃ anchors : List Placed,
    a.groups.map Group.anchor? = anchors.map some ∧ anchors.Sublist events := by
  refine ⟨(a.cast.filter fun x => (a.groupAt? x).isSome).map (·.1), ?_, ?_⟩
  · have hsome : ∀ x ∈ a.cast, (a.groupAt? x).map Group.anchor? =
        (Option.guard (fun x => (a.groupAt? x).isSome) x).map fun x => some x.1 := by
      intro x hx
      cases hg : a.groupAt? x with
      | none => simp [Option.guard, hg]
      | some g => simp [Option.guard, hg, h.anchor?_of_groupAt? free hx hg]
    rw [groups, List.map_filterMap, List.filterMap_congr hsome, ← List.map_filterMap,
      List.filterMap_eq_filter, List.map_map]
    rfl
  · rw [← h.map_fst_cast]
    exact List.filter_sublist.map _

end Assembly.Fits

/-- **Stream order**: if the two tools differ, the groups stand as their anchors do, which are events
of the session at increasing places. A parallel group has two entries or more, whose spawns stand at
increasing places, and so it stands at the place of the earliest of them. -/
theorem Assembly.groups_in_stream_order (events : List Event) (results : ResultIndex)
    (options : Options) (hne : options.spawnTool ≠ options.pollTool) :
    let groups := (ofPlaced (Placed.ofEvents events) results options).groups
    (∃ anchors : List Placed, groups.map Group.anchor? = anchors.map some ∧
      anchors.Sublist (Placed.ofEvents events) ∧
      anchors.Pairwise fun p q => p.position < q.position) ∧
    ∀ entries, Group.parallel entries ∈ groups →
      2 ≤ entries.length ∧
      (entries.map (·.spawn)).Pairwise (fun p q => p.position < q.position) ∧
      ∃ first ∈ entries, (Group.parallel entries).anchor? = some first.spawn ∧
        ∀ e ∈ entries, first.spawn.position ≤ e.spawn.position := by
  intro groups
  have h := fits_ofPlaced (Placed.inOrder_ofEvents events) results options
  constructor
  · obtain ⟨anchors, hmap, hsub⟩ :=
      h.map_anchor?_groups fun s hs => h.discovered.pollOf?_call hs hne
    exact ⟨anchors, hmap, hsub, h.inOrder.sublist hsub⟩
  · intro entries hg
    have htwo := h.two_le_length_of_parallel hg
    have order := h.inOrder_of_parallel hg
    refine ⟨htwo, order, ?_⟩
    cases entries with
    | nil => cases htwo
    | cons first entries =>
      refine ⟨first, List.mem_cons_self, rfl, fun e he => ?_⟩
      rcases List.mem_cons.mp he with rfl | he
      · exact Nat.le_refl _
      · exact Nat.le_of_lt ((List.pairwise_cons.mp order).1 _ (List.mem_map_of_mem he))

/-- Clusters whose members alternate stand as their anchors do. -/
theorem Assembly.groups_in_stream_order_alternating :
    let spawn (id : String) (second : Int) : Event :=
      { kind := .toolCall, time := ⟨second, 0⟩,
        metadata := { toolId := some id, toolName := some "Task" } }
    let events := [spawn "a" 10, spawn "b" 0, spawn "c" 9, spawn "d" 1]
    let groups := (ofPlaced (Placed.ofEvents events) [] {}).groups
    "Task" ≠ "TaskOutput" ∧ groups.length = 2 ∧
      ∃ anchors : List Placed, groups.map Group.anchor? = anchors.map some ∧
        anchors.Sublist (Placed.ofEvents events) ∧
        anchors.Pairwise fun p q => p.position < q.position := by
  intro spawn events groups
  exact ⟨by decide, by decide +kernel, (groups_in_stream_order events [] {} (by decide)).1⟩

end AgentThreads
