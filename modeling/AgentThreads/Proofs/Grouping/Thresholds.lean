import AgentThreads.Proofs.Grouping.Emission
import AgentThreads.Proofs.Grouping.FirstFit
import Mathlib.Data.List.Perm.Subperm

/-!
# Thresholds

What a wider threshold does to the groups of a session. It may take a spawn from one cluster to
another, so the new clusters are no unions of the old ones. But they are no more of them: an old
cluster has at most one of the new anchors. Everything but the clusters stays as it was.
-/

namespace AgentThreads

theorem Spawn.nanosApart_comm (s t : Spawn) : s.nanosApart t = t.nanosApart s := by
  unfold nanosApart
  omega

namespace Cluster

variable {threshold narrow wide : Nat} {spawns : List Spawn}

/-! ### Distances from anchors -/

section Distances

variable (leap : ∀ s ∈ spawns, s.isLeap = false)
include leap

theorem nanosApart_lt_of_mem_members {c : Cluster} (hc : c ∈ ofSpawns threshold spawns) {s : Spawn}
    (hs : s ∈ c.members) : c.anchor.nanosApart s < (threshold + 1) * 1000000 := by
  have hanchor := leap c.anchor (mem_spawns hc c.anchor_mem_members)
  rcases List.mem_cons.mp hs with rfl | hother
  · simp [Spawn.nanosApart]
  · exact (Spawn.isNear_iff hanchor (leap s (mem_spawns hc hs))).mp (isNear_of_mem_others hc hother)

theorem le_nanosApart_of_ne {c d : Cluster} (hc : c ∈ ofSpawns threshold spawns)
    (hd : d ∈ ofSpawns threshold spawns) (hne : c ≠ d) :
    (threshold + 1) * 1000000 ≤ c.anchor.nanosApart d.anchor := by
  have apart : (ofSpawns threshold spawns).Pairwise fun c d =>
      (threshold + 1) * 1000000 ≤ c.anchor.nanosApart d.anchor := by
    refine (pairwise_far spawns).imp_of_mem fun {c d} hc hd hfar => ?_
    have hcl := leap c.anchor (mem_spawns hc c.anchor_mem_members)
    have hdl := leap d.anchor (mem_spawns hd d.anchor_mem_members)
    have hnot := hfar d.anchor d.anchor_mem_members
    rw [← Bool.not_eq_true, Spawn.isNear_iff hcl hdl] at hnot
    exact Nat.le_of_not_lt hnot
  have symm : Std.Symm fun c d : Cluster =>
      (threshold + 1) * 1000000 ≤ c.anchor.nanosApart d.anchor :=
    ⟨fun c d h => by rwa [Spawn.nanosApart_comm]⟩
  exact apart.forall hc hd hne

end Distances

/-! ### Two thresholds -/

section Widened

variable (ordered : Placed.InOrder (spawns.map (·.call)))
include ordered

theorem position_le_of_mem_members {c : Cluster} (hc : c ∈ ofSpawns threshold spawns) {s : Spawn}
    (hs : s ∈ c.members) : c.anchor.call.position ≤ s.call.position := by
  have members := ordered.sublist ((members_sublist hc).map (·.call))
  rcases List.mem_cons.mp hs with rfl | hother
  · exact Nat.le_refl _
  · exact Nat.le_of_lt ((List.pairwise_cons.mp members).1 _ (List.mem_map_of_mem hother))

/-- Anchors that are members of each other's clusters are one. -/
theorem anchor_eq_anchor {c d : Cluster} (hc : c ∈ ofSpawns narrow spawns)
    (hd : d ∈ ofSpawns wide spawns) (hdc : d.anchor ∈ c.members) (hcd : c.anchor ∈ d.members) :
    d.anchor = c.anchor := by
  have before := position_le_of_mem_members ordered hc hdc
  have after := position_le_of_mem_members ordered hd hcd
  have positions : (spawns.map (·.call.position)).Nodup := by
    simpa [Function.comp_def] using ordered.nodup_positions
  exact List.inj_on_of_nodup_map positions (mem_spawns hc hdc) (mem_spawns hd hcd) (by omega)

variable (leap : ∀ s ∈ spawns, s.isLeap = false) (hle : narrow ≤ wide)
include leap hle

/-- Of the anchors that a wider threshold gives, a cluster has at most one. For two of them would be
on the same side of the anchor of the cluster, both farther from the wide anchor that reaches it than
the wide threshold, and so nearer to each other than that anchor is to the anchor of the cluster. -/
theorem eq_of_anchors_mem_members {c d e : Cluster} (hc : c ∈ ofSpawns narrow spawns)
    (hd : d ∈ ofSpawns wide spawns) (he : e ∈ ofSpawns wide spawns) (hdc : d.anchor ∈ c.members)
    (hec : e.anchor ∈ c.members) : d = e := by
  by_contra hne
  obtain ⟨f, hf, hcf⟩ : ∃ f ∈ ofSpawns wide spawns, c.anchor ∈ f.members :=
    exists_mem_members (mem_spawns hc c.anchor_mem_members)
  have apart := le_nanosApart_of_ne leap hd he hne
  have nearD := nanosApart_lt_of_mem_members leap hc hdc
  have nearE := nanosApart_lt_of_mem_members leap hc hec
  -- A wide anchor that reaches the anchor of `c` from within `c` is that anchor itself.
  by_cases hdf : d = f
  · rw [anchor_eq_anchor ordered hc hd hdc (hdf ▸ hcf)] at apart
    omega
  by_cases hef : e = f
  · rw [anchor_eq_anchor ordered hc he hec (hef ▸ hcf), Spawn.nanosApart_comm] at apart
    omega
  -- Otherwise the anchor of `f` reaches that of `c`, but neither of the two.
  have reach := nanosApart_lt_of_mem_members leap hf hcf
  have farD := le_nanosApart_of_ne leap hf hd (Ne.symm hdf)
  have farE := le_nanosApart_of_ne leap hf he (Ne.symm hef)
  unfold Spawn.nanosApart at apart nearD nearE reach farD farE
  omega

/-- A wider threshold gives no more clusters. -/
theorem length_ofSpawns_le :
    (ofSpawns wide spawns).length ≤ (ofSpawns narrow spawns).length := by
  have home : ∀ d : Cluster, ∃ c : Cluster, d ∈ ofSpawns wide spawns →
      c ∈ ofSpawns narrow spawns ∧ d.anchor ∈ c.members := by
    intro d
    by_cases hd : d ∈ ofSpawns wide spawns
    · obtain ⟨c, hc, hm⟩ := exists_mem_members (mem_spawns hd d.anchor_mem_members)
      exact ⟨c, fun _ => ⟨hc, hm⟩⟩
    · exact ⟨d, fun h => absurd h hd⟩
  choose home hhome using home
  have spawnsNodup : spawns.Nodup := ordered.nodup.of_map _
  have nodup : ((ofSpawns wide spawns).map home).Nodup := by
    refine (nodup_ofSpawns spawnsNodup).map_on fun d hd e he heq => ?_
    have hec := (hhome e he).2
    rw [← heq] at hec
    exact eq_of_anchors_mem_members ordered leap hle (hhome d hd).1 hd he (hhome d hd).2 hec
  have homes : (ofSpawns wide spawns).map home ⊆ ofSpawns narrow spawns := by
    intro c hc
    obtain ⟨d, hd, rfl⟩ := List.mem_map.mp hc
    exact (hhome d hd).1
  simpa using (nodup.subperm homes).length_le

end Widened

end Cluster

/-! ### The groups -/

/-- Where no spawn polls, the groups are the messages and the clusters. -/
theorem Assembly.Fits.length_groups {options : Options} {events : List Placed} {a : Assembly}
    (h : a.Fits options events)
    (free : ∀ s ∈ a.spawns, Role.pollOf? options.pollTool a.spawns s.call = none) :
    a.groups.length = (a.cast.filterMap a.messageAt?).length + a.clusters.length := by
  rw [List.length_eq_length_filter_add (·.message?.isSome), h.filter_message, h.filter_not_message,
    List.length_map, (h.standing_perm free).length_eq]

/-- **Thresholds**: if the two tools differ and no spawn begins in a leap second, a wider threshold
gives no more groups, the same messages in the same order, and the same entries. -/
theorem Assembly.groups_of_wider_threshold (events : List Event) (results : ResultIndex)
    (options : Options) (wide : Nat) (hne : options.spawnTool ≠ options.pollTool)
    (hle : options.thresholdMs ≤ wide)
    (leap : ∀ s ∈ (ofPlaced (Placed.ofEvents events) results options).spawns, s.isLeap = false) :
    let narrower := (ofPlaced (Placed.ofEvents events) results options).groups
    let wider :=
      (ofPlaced (Placed.ofEvents events) results { options with thresholdMs := wide }).groups
    wider.length ≤ narrower.length ∧
      wider.filter (·.message?.isSome) = narrower.filter (·.message?.isSome) ∧
      (wider.flatMap Group.entries).Perm (narrower.flatMap Group.entries) := by
  intro narrower wider
  have inOrder := Placed.inOrder_ofEvents events
  have hn := fits_ofPlaced inOrder results options
  have hw := fits_ofPlaced inOrder results { options with thresholdMs := wide }
  have freeN := hn.free_of_ne hne
  have freeW := hw.free_of_ne hne
  refine ⟨?_, ?_, ?_⟩
  · have clusters := Cluster.length_ofSpawns_le (hn.discovered.inOrder inOrder) leap hle
    rw [hw.length_groups freeW, hn.length_groups freeN]
    exact Nat.add_le_add_left clusters _
  · rw [hw.filter_message, hn.filter_message]
    rfl
  · rw [hw.flatMap_entries, hn.flatMap_entries]
    exact ((hw.shown_perm freeW).trans (hn.shown_perm freeN).symm).map _

/-- Three spawns of which the middle one changes its cluster when the threshold grows. -/
theorem Assembly.groups_of_wider_threshold_regrouped :
    let spawn (id : String) (second : Int) : Event :=
      { kind := .toolCall, time := ⟨second, 0⟩,
        metadata := { toolId := some id, toolName := some "Task" } }
    let events := [spawn "a" 3, spawn "b" 1, spawn "c" 0]
    let options : Options := { thresholdMs := 1000 }
    let narrower := (ofPlaced (Placed.ofEvents events) [] options).groups
    let wider := (ofPlaced (Placed.ofEvents events) [] { options with thresholdMs := 2000 }).groups
    "Task" ≠ "TaskOutput" ∧ 1000 ≤ 2000 ∧
      (∀ s ∈ (ofPlaced (Placed.ofEvents events) [] options).spawns, s.isLeap = false) ∧
      narrower.map (·.entries.map (·.spawn.position)) = [[0], [1, 2]] ∧
      wider.map (·.entries.map (·.spawn.position)) = [[0, 1], [2]] ∧
      wider.length ≤ narrower.length := by
  intro spawn events options narrower wider
  have leap : ∀ s ∈ (ofPlaced (Placed.ofEvents events) [] options).spawns, s.isLeap = false := by
    decide +kernel
  have fewer := (groups_of_wider_threshold events [] options 2000 (by decide) (by decide) leap).1
  exact ⟨by decide, by decide, leap, by decide +kernel, by decide +kernel, fewer⟩

end AgentThreads
