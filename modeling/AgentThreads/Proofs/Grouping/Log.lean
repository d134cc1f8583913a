import AgentThreads.Grouping.Log
import AgentThreads.Proofs.Grouping.StreamOrder
import Mathlib

/-!
# What the log says

The log of a grouping is true of its events and of its groups. There is a warning for each spawn call
with an id that an earlier one carries, in the order of the session, and a trace for each cluster, in
the order in which the clusters are opened. If no spawn polls, this is the order of the groups as well,
so that the traces describe the groups that are no messages, one by one.
-/

namespace AgentThreads

/-! ### Repeats -/

/-- The repeat that a spawn call is: the first of the calls with its id stands before it. -/
def Spawn.repeatOf? (calls : List Spawn) (s : Spawn) : Option Repeat := do
  let first ← calls.find? (·.toolId == s.toolId)
  if first.call.position < s.call.position then some ⟨first, s⟩ else none

namespace Roster

/-- Whether a call is a repeat does not change with the calls behind it. -/
theorem repeatOf?_append {calls : List Spawn} {s : Spawn} (hs : s ∈ calls) (later : List Spawn) :
    s.repeatOf? (calls ++ later) = s.repeatOf? calls := by
  have found : (calls.find? (·.toolId == s.toolId)).isSome :=
    List.find?_isSome.mpr ⟨s, hs, beq_self_eq_true _⟩
  unfold Spawn.repeatOf?
  rw [List.find?_append, Option.or_of_isSome found]

/-- Entering a call that comes after the others makes it a repeat if it is one. -/
theorem Records.repeats_enter {calls : List Spawn} {r : Roster} (h : Records calls r) {s : Spawn}
    (last : ∀ t ∈ calls, t.call.position < s.call.position) :
    (r.enter s).repeats = r.repeats ++ (s.repeatOf? (calls ++ [s])).toList := by
  unfold Roster.enter Spawn.repeatOf?
  rw [List.find?_append, ← h.holder]
  cases hs : r.holder? s.toolId with
  | some first =>
    rw [h.holder] at hs
    simp [last first (List.mem_of_find?_eq_some hs)]
  | none => simp

theorem repeats_foldl_enter {calls : List Spawn} (ho : Placed.InOrder (calls.map (·.call))) :
    (calls.foldl enter {}).repeats = calls.filterMap (·.repeatOf? calls) := by
  -- The last call is entered last, and no earlier one becomes a repeat by it.
  induction calls using List.reverseRecOn with
  | nil => rfl
  | append_singleton calls s ih =>
    have records : Records calls (calls.foldl enter {}) := by
      simpa using Records.foldl_enter records_nil calls
    have last : ∀ t ∈ calls, t.call.position < s.call.position := by
      rw [List.map_append, Placed.InOrder, List.pairwise_append] at ho
      exact fun t ht => ho.2.2 _ (List.mem_map_of_mem ht) _ (by simp)
    have before : calls.filterMap (·.repeatOf? (calls ++ [s])) =
        calls.filterMap (·.repeatOf? calls) :=
      List.filterMap_congr fun t ht => repeatOf?_append ht [s]
    rw [List.foldl_append, List.foldl_cons, List.foldl_nil, records.repeats_enter last,
      ih (ho.sublist ((List.sublist_append_left ..).map _)), List.filterMap_append, before,
      List.filterMap_eq_flatMap_toList _ [s], List.flatMap_singleton]

/-- The repeats of a session stand as its spawn calls do. -/
theorem repeats_ofPlaced {tool : String} {events : List Placed} (ho : Placed.InOrder events) :
    (ofPlaced tool events).repeats =
      (Spawn.callsAmong tool events).filterMap (·.repeatOf? (Spawn.callsAmong tool events)) :=
  repeats_foldl_enter (inOrder_callsAmong ho)

end Roster

/-! ### Records -/

namespace LogRecord

/-- The warning of a repeat. -/
def ofRepeat (r : Repeat) : LogRecord :=
  .repeatedSpawn r.later.toolId r.first.call.position r.later.call.position

/-- The warning that an event calls for: it is a spawn call, and the first one with its id stands
before it. -/
def warning? (tool : String) (events : List Placed) (p : Placed) : Option LogRecord := do
  let s ← Spawn.ofPlaced? tool p
  let again ← s.repeatOf? (Spawn.callsAmong tool events)
  return ofRepeat again

/-- The trace of a cluster. -/
def ofCluster (c : Cluster) : LogRecord :=
  .cluster c.anchor.toolId c.members.length

/-- The number of members that a record tells. -/
def members : LogRecord → Nat
  | cluster _ members => members
  | _ => 0

end LogRecord

/-- The trace that a group calls for: the tool id of its first spawn, and the number of its entries. -/
def Group.trace? (g : Group) : Option LogRecord := do
  let first ← g.entries.head?
  let toolId ← first.spawn.event.metadata.toolId?
  return .cluster toolId g.entries.length

theorem Roster.map_ofRepeat_repeats {tool : String} {events : List Placed}
    (ho : Placed.InOrder events) : (ofPlaced tool events).repeats.map LogRecord.ofRepeat =
      events.filterMap (LogRecord.warning? tool events) := by
  rw [repeats_ofPlaced ho, List.map_filterMap]
  conv_lhs => rw [Spawn.callsAmong, List.filterMap_filterMap, ← Spawn.callsAmong]
  refine List.filterMap_congr fun p _ => ?_
  unfold LogRecord.warning?
  cases Spawn.ofPlaced? tool p with
  | none => rfl
  | some s =>
    cases hs : s.repeatOf? (Spawn.callsAmong tool events) <;> simp [hs]

/-- The traces count each spawn once. -/
theorem Cluster.sum_members_traces {threshold : Nat} (spawns : List Spawn) :
    (((ofSpawns threshold spawns).map LogRecord.ofCluster).map LogRecord.members).sum =
      spawns.length := by
  have perm : ((ofSpawns threshold spawns).flatMap members).Perm spawns :=
    flatMap_members_perm spawns
  rw [← perm.length_eq, List.length_flatMap, List.map_map]
  rfl

namespace Assembly.Fits

variable {options : Options} {events : List Placed} {a : Assembly} (h : a.Fits options events)
include h

/-- The clusters are opened in the order of their anchors. -/
theorem pairwise_anchor_clusters :
    a.clusters.Pairwise fun c d => c.anchor.call.position < d.anchor.call.position := by
  have anchors : (a.clusters.map (·.anchor)).Sublist a.spawns :=
    h.clusters ▸ Cluster.map_anchor_sublist a.spawns
  have order := (h.discovered.inOrder h.inOrder).sublist (anchors.map (·.call))
  rwa [Placed.InOrder, List.pairwise_map, List.pairwise_map] at order

/-- The group of a cluster calls for the trace of the cluster. -/
theorem trace?_groupOf {c : Cluster} (hc : c ∈ a.clusters) :
    (a.groupOf c).trace? = some (LogRecord.ofCluster c) := by
  have hanchor := (h.members_sublist hc).subset c.anchor_mem_members
  have id := (Spawn.ofPlaced?_eq_some_iff.mp (h.discovered.call _ hanchor)).2.1
  unfold Group.trace?
  rw [entries_groupOf, List.length_map, Cluster.members, List.map_cons, List.head?_cons]
  change (c.anchor.call.event.metadata.toolId?.bind _) = _
  rw [id]
  rfl

variable (free : ∀ s ∈ a.spawns, Role.pollOf? options.pollTool a.spawns s.call = none)
include free

/-- Where no spawn polls, the clusters stand in the order of their anchors. -/
theorem pairwise_anchor_standing :
    a.standing.Pairwise fun c d => c.anchor.call.position < d.anchor.call.position := by
  have anchorAt : ∀ {x : Placed × Role} {c : Cluster}, x ∈ a.cast → a.clusterAt? x = some c →
      c.anchor.call = x.1 := by
    rintro ⟨p, role⟩ c hx hat
    cases role with
    | spawn s =>
      obtain ⟨hc, hlead⟩ := (h.clusterAt?_eq_some_iff hx).mp hat
      obtain rfl := Option.some_inj.mp ((h.leader?_eq_anchor free hc).symm.trans hlead)
      exact (h.mem_cast_spawn_iff.mp hx).2.1
    | result | nested | poll | message => cases hat
  rw [standing, List.pairwise_filterMap]
  refine (List.pairwise_map.mp (h.map_fst_cast ▸ h.inOrder)).imp_of_mem ?_
  intro x y hx hy hlt c hc d hd
  rw [anchorAt hx hc, anchorAt hy hd]
  exact hlt

/-- Where no spawn polls, the clusters stand as they were opened. -/
theorem standing_eq_clusters : a.standing = a.clusters :=
  (h.standing_perm free).eq_of_pairwise (fun _ _ _ _ hlt hgt => absurd hgt (Nat.lt_asymm hlt))
    (h.pairwise_anchor_standing free) h.pairwise_anchor_clusters

/-- Where no spawn polls, the groups that are no messages call for the traces of the clusters. -/
theorem map_trace?_groups : (a.groups.filter (!·.message?.isSome)).map Group.trace? =
    (a.clusters.map LogRecord.ofCluster).map some := by
  rw [h.filter_not_message, h.standing_eq_clusters free, List.map_map, List.map_map]
  exact List.map_congr_left fun c hc => h.trace?_groupOf hc

end Assembly.Fits

/-- **The log is true**: first come the warnings, in the order of the session, of the spawn calls with
an id that an earlier one carries; then a trace for each cluster; and at the end the counts of the
events, of the results, of the spawns, which are the members in the traces, of the traces, and of the
groups. If the two tools differ, the traces describe the groups that are no messages, one by one. -/
theorem Assembly.log_describes_grouping (events : List Event) (results : ResultIndex)
    (options : Options) :
    let placed := Placed.ofEvents events
    let a := ofPlaced placed results options
    let warnings := placed.filterMap (LogRecord.warning? options.spawnTool placed)
    let traces := a.clusters.map LogRecord.ofCluster
    a.log = warnings ++ traces ++
        [.grouped events.length results.length (traces.map LogRecord.members).sum traces.length
          a.groups.length] ∧
      a.log.map LogRecord.level =
        warnings.map (fun _ => .warn) ++ traces.map (fun _ => .trace) ++ [.debug] ∧
      (options.spawnTool ≠ options.pollTool →
        (a.groups.filter (!·.message?.isSome)).map Group.trace? = traces.map some) := by
  intro placed a warnings traces
  have ho : Placed.InOrder placed := Placed.inOrder_ofEvents events
  have h : a.Fits options placed := fits_ofPlaced ho results options
  have repeats : a.repeats.map LogRecord.ofRepeat = warnings := Roster.map_ofRepeat_repeats ho
  have events_length : a.cast.length = events.length := by
    rw [← congrArg List.length (Placed.map_event_ofEvents events), List.length_map,
      ← congrArg List.length h.map_fst_cast, List.length_map]
  have spawns : (traces.map LogRecord.members).sum = a.spawns.length :=
    Cluster.sum_members_traces a.spawns
  have log : a.log = warnings ++ traces ++
      [.grouped events.length results.length (traces.map LogRecord.members).sum traces.length
        a.groups.length] := by
    rw [spawns, ← repeats, ← events_length, List.length_map]
    rfl
  refine ⟨log, ?_, fun hne => h.map_trace?_groups (h.free_of_ne hne)⟩
  rw [log, ← repeats]
  simp [traces, LogRecord.level, LogRecord.ofRepeat, LogRecord.ofCluster, Function.comp_def]

/-- Two clusters of which the members alternate, and an id that is carried three times. -/
theorem Assembly.log_describes_grouping_alternating :
    let spawn (id : String) (second : Int) : Event :=
      { kind := .toolCall, time := ⟨second, 0⟩,
        metadata := { toolId := some id, toolName := some "Task" } }
    let events := [spawn "a" 10, spawn "b" 0, spawn "a" 9, spawn "c" 9, spawn "d" 5, spawn "a" 1]
    let a := ofPlaced (Placed.ofEvents events) [] {}
    "Task" ≠ "TaskOutput" ∧
      a.log = [.repeatedSpawn "a" 0 2, .repeatedSpawn "a" 0 5, .cluster "a" 2, .cluster "b" 1,
        .cluster "d" 1, .grouped 6 0 4 3 5] ∧
      (a.groups.filter (!·.message?.isSome)).map Group.trace? =
        [some (.cluster "a" 2), some (.cluster "b" 1), some (.cluster "d" 1)] := by
  intro spawn events a
  have traces := (log_describes_grouping events [] {}).2.2 (by decide)
  exact ⟨by decide, by decide +kernel, traces.trans (by decide +kernel)⟩

end AgentThreads
