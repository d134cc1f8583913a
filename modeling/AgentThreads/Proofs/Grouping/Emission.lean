import AgentThreads.Grouping.Assembly
import AgentThreads.Proofs.Grouping.Casting
import AgentThreads.Proofs.Grouping.Clustering

/-!
# Emission

Which groups an assembly emits, and from what. Every message stands as a group of its own. A cluster
stands if one of its members polls nothing, and then all its members are entries of one group.
-/

namespace AgentThreads

/-- The event of a message. -/
def Group.message? : Group → Option Placed
  | message event _ => some event
  | _ => none

namespace Assembly

/-- The assembly is made from these events. -/
structure Fits (options : Options) (events : List Placed) (a : Assembly) : Prop where
  /-- The events stand in order. -/
  inOrder : Placed.InOrder events
  /-- The spawns are those of the events. -/
  discovered : Spawn.Discovered options.spawnTool events a.spawns
  /-- Each event has its role among the spawns. -/
  cast : a.cast = Role.assign options.pollTool a.spawns events
  /-- The clusters are those of the spawns. -/
  clusters : a.clusters = Cluster.ofSpawns options.thresholdMs a.spawns
  /-- The calls that repeat an id are among the events. -/
  repeats : ∀ x ∈ a.repeats, x.later.call ∈ events

theorem fits_ofPlaced {events : List Placed} (ho : Placed.InOrder events) (results : ResultIndex)
    (options : Options) : (ofPlaced events results options).Fits options events where
  inOrder := ho
  discovered := Roster.discovered options.spawnTool events
  cast := rfl
  clusters := rfl
  repeats x hx :=
    have calls := (Roster.records_ofPlaced options.spawnTool events).later x hx
    (Spawn.mem_callsAmong_iff.mp calls).1

/-- The group of a cluster. -/
def groupOf (a : Assembly) (c : Cluster) : Group :=
  if c.others.isEmpty then .subagent (a.entry c.anchor) else .parallel (c.members.map a.entry)

/-- The cluster that stands at the place of an event. -/
def clusterAt? (a : Assembly) : Placed × Role → Option Cluster
  | (_, .spawn s) =>
    (a.clusters.find? (·.contains s)).filter fun c =>
      (a.leader? c).any (·.call.position == s.call.position)
  | _ => none

/-- The message that stands at the place of an event. -/
def messageAt? (a : Assembly) : Placed × Role → Option Group
  | (p, .message) => some (.message p (if a.isRepeat p then none else a.results.resultOf p.event))
  | _ => none

/-- The clusters that stand, in the order of their places. -/
def standing (a : Assembly) : List Cluster :=
  a.cast.filterMap a.clusterAt?

/-- The spawns that the groups show as entries. -/
def shown (a : Assembly) : List Spawn :=
  a.standing.flatMap Cluster.members

@[simp] theorem entries_groupOf (a : Assembly) (c : Cluster) :
    (a.groupOf c).entries = c.members.map a.entry := by
  unfold groupOf
  split
  · case isTrue h => simp [Group.entries, Cluster.members, List.isEmpty_iff.mp h]
  · rfl

@[simp] theorem message?_groupOf (a : Assembly) (c : Cluster) : (a.groupOf c).message? = none := by
  unfold groupOf
  split <;> rfl

@[simp] theorem anchor?_groupOf (a : Assembly) (c : Cluster) :
    (a.groupOf c).anchor? = some c.anchor.call := by
  unfold groupOf
  split <;> rfl

namespace Fits

variable {options : Options} {events : List Placed} {a : Assembly} (h : a.Fits options events)
include h

/-! ### The cast -/

theorem mem_cast_iff {p : Placed} {role : Role} :
    (p, role) ∈ a.cast ↔ p ∈ events ∧ Role.ofPlaced options.pollTool a.spawns p = role := by
  rw [h.cast, Role.assign, List.mem_map]
  constructor
  · rintro ⟨q, hq, heq⟩
    obtain ⟨rfl, rfl⟩ := Prod.mk.inj heq
    exact ⟨hq, rfl⟩
  · rintro ⟨hp, rfl⟩
    exact ⟨p, hp, rfl⟩

theorem map_fst_cast : a.cast.map (·.1) = events := by
  rw [h.cast, Role.assign, List.map_map]
  exact List.map_id events

/-- Whose role is that of a spawn. -/
theorem mem_cast_spawn_iff {p : Placed} {s : Spawn} :
    (p, Role.spawn s) ∈ a.cast ↔
      s ∈ a.spawns ∧ s.call = p ∧ Role.pollOf? options.pollTool a.spawns p = none := by
  rw [h.mem_cast_iff]
  constructor
  · rintro ⟨hp, hrole⟩
    exact (h.discovered.ofPlaced_eq_spawn_iff h.inOrder hp).mp hrole
  · rintro ⟨hs, rfl, hpoll⟩
    have hp := h.discovered.call_mem hs
    exact ⟨hp, (h.discovered.ofPlaced_eq_spawn_iff h.inOrder hp).mpr ⟨hs, rfl, hpoll⟩⟩

theorem call_inj {s t : Spawn} (hs : s ∈ a.spawns) (ht : t ∈ a.spawns)
    (heq : s.call.position = t.call.position) : s = t := by
  have hcall := h.inOrder.eq_of_position_eq (h.discovered.call_mem hs) (h.discovered.call_mem ht) heq
  exact List.inj_on_of_nodup_map (h.discovered.inOrder h.inOrder).nodup hs ht hcall

theorem isSpawnAt_iff {s : Spawn} (hs : s ∈ a.spawns) :
    a.isSpawnAt s.call.position ↔ Role.pollOf? options.pollTool a.spawns s.call = none := by
  rw [isSpawnAt, List.any_eq_true]
  constructor
  · rintro ⟨⟨p, role⟩, hx, hrole⟩
    cases role with
    | spawn t =>
      obtain ⟨ht, rfl, hpoll⟩ := h.mem_cast_spawn_iff.mp hx
      obtain rfl := h.call_inj ht hs (by simpa [Role.isSpawn] using hrole)
      exact hpoll
    | result | nested | poll | message => simp [Role.isSpawn] at hrole
  · intro hpoll
    exact ⟨_, h.mem_cast_spawn_iff.mpr ⟨hs, rfl, hpoll⟩, by simp [Role.isSpawn]⟩

/-! ### Clusters and leaders -/

theorem members_sublist {c : Cluster} (hc : c ∈ a.clusters) : c.members.Sublist a.spawns :=
  Cluster.members_sublist (h.clusters ▸ hc)

theorem find?_contains_iff {s : Spawn} (hs : s ∈ a.spawns) {c : Cluster} :
    a.clusters.find? (·.contains s) = some c ↔ c ∈ a.clusters ∧ s ∈ c.members := by
  rw [h.clusters]
  exact h.discovered.find?_contains_iff h.inOrder hs

theorem leader?_spec {c : Cluster} (hc : c ∈ a.clusters) {s : Spawn} (hl : a.leader? c = some s) :
    s ∈ c.members ∧ Role.pollOf? options.pollTool a.spawns s.call = none := by
  have hm := List.mem_of_find?_eq_some hl
  have hspawn := List.find?_some hl
  exact ⟨hm, (h.isSpawnAt_iff ((h.members_sublist hc).subset hm)).mp hspawn⟩

/-- A cluster has a leader if one of its members polls nothing. -/
theorem exists_leader? {c : Cluster} (hc : c ∈ a.clusters) {s : Spawn} (hs : s ∈ c.members)
    (hpoll : Role.pollOf? options.pollTool a.spawns s.call = none) :
    ∃ t, a.leader? c = some t := by
  have hspawn := (h.isSpawnAt_iff ((h.members_sublist hc).subset hs)).mpr hpoll
  exact Option.isSome_iff_exists.mp (List.find?_isSome.mpr ⟨s, hs, hspawn⟩)

/-- A cluster stands at the place of its leader. -/
theorem clusterAt?_eq_some_iff {p : Placed} {s : Spawn} (hx : (p, Role.spawn s) ∈ a.cast)
    {c : Cluster} :
    a.clusterAt? (p, .spawn s) = some c ↔ c ∈ a.clusters ∧ a.leader? c = some s := by
  have hs := (h.mem_cast_spawn_iff.mp hx).1
  simp only [clusterAt?, Option.filter_eq_some_iff, h.find?_contains_iff hs, Option.any_eq_true,
    beq_iff_eq]
  constructor
  · rintro ⟨⟨hc, -⟩, t, ht, hpos⟩
    have htm := (h.leader?_spec hc ht).1
    exact ⟨hc, h.call_inj ((h.members_sublist hc).subset htm) hs hpos ▸ ht⟩
  · rintro ⟨hc, hl⟩
    exact ⟨⟨hc, (h.leader?_spec hc hl).1⟩, s, hl, rfl⟩

/-! ### The groups -/

/-- At the place of a spawn stands the group of the cluster that it leads. -/
theorem groupAt?_spawn {p : Placed} {s : Spawn} (hx : (p, Role.spawn s) ∈ a.cast) :
    a.groupAt? (p, .spawn s) = (a.clusterAt? (p, .spawn s)).map a.groupOf := by
  obtain ⟨hs, -, hpoll⟩ := h.mem_cast_spawn_iff.mp hx
  rw [groupAt?, clusterAt?]
  cases hf : a.clusters.find? (·.contains s) with
  | none => rfl
  | some c =>
    obtain ⟨hc, hm⟩ := (h.find?_contains_iff hs).mp hf
    simp only [Option.bind_some, clusterGroup?, Option.filter_some]
    by_cases halone : c.others.isEmpty
    · -- The only member of a cluster leads it.
      have hanchor : s = c.anchor := by
        simpa [Cluster.members, List.isEmpty_iff.mp halone] using hm
      obtain ⟨t, ht⟩ := h.exists_leader? hc hm (by rwa [(h.mem_cast_spawn_iff.mp hx).2.1])
      have hlead : t = c.anchor := by
        simpa [Cluster.members, List.isEmpty_iff.mp halone] using (h.leader?_spec hc ht).1
      simp [groupOf, halone, ht, hlead, hanchor]
    · by_cases hlead : (a.leader? c).any (·.call.position == s.call.position) <;>
        simp [groupOf, halone, hlead]

/-- The groups that are messages. -/
theorem filter_message : a.groups.filter (·.message?.isSome) = a.cast.filterMap a.messageAt? := by
  rw [groups, List.filter_filterMap]
  refine List.filterMap_congr fun x hx => ?_
  obtain ⟨p, role⟩ := x
  cases role with
  | spawn s =>
    rw [h.groupAt?_spawn hx]
    cases a.clusterAt? (p, .spawn s) <;> simp [messageAt?]
  | result | nested | poll | message => simp [groupAt?, messageAt?, Group.message?]

/-- The groups that are no messages. -/
theorem filter_not_message :
    a.groups.filter (!·.message?.isSome) = a.standing.map a.groupOf := by
  rw [groups, standing, List.filter_filterMap, List.map_filterMap]
  refine List.filterMap_congr fun x hx => ?_
  obtain ⟨p, role⟩ := x
  cases role with
  | spawn s =>
    rw [h.groupAt?_spawn hx]
    cases a.clusterAt? (p, .spawn s) <;> simp
  | result | nested | poll | message => simp [groupAt?, clusterAt?, Group.message?]

/-- The entries of the groups are those of the members of the standing clusters. -/
theorem flatMap_entries : a.groups.flatMap Group.entries = a.shown.map a.entry := by
  rw [groups, shown, standing, List.filterMap_eq_flatMap_toList, List.filterMap_eq_flatMap_toList,
    List.flatMap_assoc, List.flatMap_assoc, List.map_flatMap]
  refine List.flatMap_congr fun x hx => ?_
  obtain ⟨p, role⟩ := x
  cases role with
  | spawn s =>
    rw [h.groupAt?_spawn hx]
    cases a.clusterAt? (p, .spawn s) <;> simp
  | result | nested | poll | message => simp [groupAt?, clusterAt?, Group.entries]

/-- A cluster stands if one of its members polls nothing. -/
theorem mem_standing_iff {c : Cluster} :
    c ∈ a.standing ↔ c ∈ a.clusters ∧
      ∃ s ∈ c.members, Role.pollOf? options.pollTool a.spawns s.call = none := by
  rw [standing, List.mem_filterMap]
  constructor
  · rintro ⟨⟨p, role⟩, hx, hat⟩
    cases role with
    | spawn s =>
      obtain ⟨hc, hl⟩ := (h.clusterAt?_eq_some_iff hx).mp hat
      exact ⟨hc, s, h.leader?_spec hc hl⟩
    | result | nested | poll | message => cases hat
  · rintro ⟨hc, s, hs, hpoll⟩
    obtain ⟨t, ht⟩ := h.exists_leader? hc hs hpoll
    obtain ⟨htm, htp⟩ := h.leader?_spec hc ht
    have hx := h.mem_cast_spawn_iff.mpr ⟨(h.members_sublist hc).subset htm, rfl, htp⟩
    exact ⟨_, hx, (h.clusterAt?_eq_some_iff hx).mpr ⟨hc, ht⟩⟩

/-- No cluster stands twice. -/
theorem nodup_standing : a.standing.Nodup := by
  rw [standing, List.Nodup, List.pairwise_filterMap]
  refine (List.pairwise_map.mp (h.map_fst_cast ▸ h.inOrder)).imp_of_mem ?_
  rintro ⟨p, role⟩ ⟨q, role'⟩ hx hy hlt c hc d hd rfl
  cases role with
  | spawn s =>
    cases role' with
    | spawn t =>
      -- One leader has one place.
      have hs := ((h.clusterAt?_eq_some_iff hx).mp hc).2
      have ht := ((h.clusterAt?_eq_some_iff hy).mp hd).2
      obtain rfl := Option.some_inj.mp (hs.symm.trans ht)
      have hp := (h.mem_cast_spawn_iff.mp hx).2.1
      have hq := (h.mem_cast_spawn_iff.mp hy).2.1
      exact absurd hlt (by simp [← hp, ← hq])
    | result | nested | poll | message => cases hd
  | result | nested | poll | message => cases hc

/-! ### The spawns shown -/

/-- A spawn is shown if a member of its cluster polls nothing. -/
theorem mem_shown_iff {s : Spawn} :
    s ∈ a.shown ↔ ∃ c ∈ a.clusters, s ∈ c.members ∧
      ∃ t ∈ c.members, Role.pollOf? options.pollTool a.spawns t.call = none := by
  simp only [shown, List.mem_flatMap, h.mem_standing_iff]
  exact ⟨fun ⟨c, ⟨hc, hfree⟩, hs⟩ => ⟨c, hc, hs, hfree⟩,
    fun ⟨c, hc, hs, hfree⟩ => ⟨c, ⟨hc, hfree⟩, hs⟩⟩

theorem nodup_members {c : Cluster} (hc : c ∈ a.clusters) : c.members.Nodup :=
  (h.discovered.nodup h.inOrder).sublist (h.members_sublist hc)

/-- No spawn is shown twice. -/
theorem nodup_shown : a.shown.Nodup := by
  rw [shown, List.nodup_flatMap]
  refine ⟨fun c hc => h.nodup_members (h.mem_standing_iff.mp hc).1, ?_⟩
  refine h.nodup_standing.imp_of_mem fun {c d} hc hd hne s hsc hsd => hne ?_
  have hc := (h.mem_standing_iff.mp hc).1
  have hd := (h.mem_standing_iff.mp hd).1
  rw [h.clusters] at hc hd
  exact Cluster.eq_of_mem_members (h.discovered.nodup h.inOrder) hc hd hsc hsd

theorem mem_spawns_of_mem_shown {s : Spawn} (hs : s ∈ a.shown) : s ∈ a.spawns := by
  obtain ⟨c, hc, hm, -⟩ := h.mem_shown_iff.mp hs
  exact (h.members_sublist hc).subset hm

/-- Where no spawn polls, every spawn is shown. -/
theorem shown_perm (free : ∀ s ∈ a.spawns, Role.pollOf? options.pollTool a.spawns s.call = none) :
    a.shown.Perm a.spawns := by
  refine (List.perm_ext_iff_of_nodup h.nodup_shown (h.discovered.nodup h.inOrder)).mpr fun s => ?_
  refine ⟨h.mem_spawns_of_mem_shown, fun hs => ?_⟩
  obtain ⟨c, hc, hm⟩ : ∃ c ∈ Cluster.ofSpawns options.thresholdMs a.spawns, s ∈ c.members :=
    Cluster.exists_mem_members hs
  exact h.mem_shown_iff.mpr ⟨c, h.clusters ▸ hc, hm, s, hm, free s hs⟩

/-- Where no spawn polls, every cluster stands. -/
theorem standing_perm
    (free : ∀ s ∈ a.spawns, Role.pollOf? options.pollTool a.spawns s.call = none) :
    a.standing.Perm a.clusters := by
  have nodup : a.clusters.Nodup := by
    rw [h.clusters]
    exact Cluster.nodup_ofSpawns (h.discovered.nodup h.inOrder)
  refine (List.perm_ext_iff_of_nodup h.nodup_standing nodup).mpr fun c => ?_
  rw [h.mem_standing_iff]
  refine ⟨And.left, fun hc => ⟨hc, c.anchor, c.anchor_mem_members, ?_⟩⟩
  exact free _ ((h.members_sublist hc).subset c.anchor_mem_members)

/-! ### Polls -/

/-- If the two tools differ, no spawn polls. -/
theorem free_of_ne (hne : options.spawnTool ≠ options.pollTool) :
    ∀ s ∈ a.spawns, Role.pollOf? options.pollTool a.spawns s.call = none :=
  fun _ hs => h.discovered.pollOf?_call hs hne

/-- What the polls of an entry are. -/
theorem mem_polls_iff {t : Spawn} (ht : t ∈ a.spawns) {p : Placed} :
    p ∈ (a.entry t).polls ↔
      p ∈ events ∧ Role.ofPlaced options.pollTool a.spawns p = .poll t := by
  change p ∈ a.cast.playing (Role.isPollOf t.toolId) ↔ _
  rw [Role.Cast.mem_playing_iff]
  constructor
  · rintro ⟨role, hx, hrole⟩
    obtain ⟨hp, rfl⟩ := h.mem_cast_iff.mp hx
    refine ⟨hp, ?_⟩
    cases hr : Role.ofPlaced options.pollTool a.spawns p with
    | poll u =>
      have hu := (h.discovered.pollOf?_eq_some_iff.mp (Role.ofPlaced_eq_poll_iff.mp hr).2.2).2.1
      rw [hr] at hrole
      rw [List.inj_on_of_nodup_map h.discovered.ids hu ht (by simpa [Role.isPollOf] using hrole)]
    | result | nested | spawn | message => simp [hr, Role.isPollOf] at hrole
  · rintro ⟨hp, hrole⟩
    exact ⟨_, h.mem_cast_iff.mpr ⟨hp, rfl⟩, by simp [hrole, Role.isPollOf]⟩

end Fits

end Assembly

end AgentThreads
