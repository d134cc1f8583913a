import AgentThreads.Proofs.Grouping.Separation
import AgentThreads.Proofs.Grouping.Shifting

/-!
# Extension

A session that goes on with events that share no id with those before them, and whose spawns are far
from the anchors of the clusters before them, keeps its groups. After them come the groups that the
new events have by themselves, moved on.
-/

namespace AgentThreads

/-! ### What an event sees -/

namespace Role

variable {spawns others whole : List Spawn} (h : Beside spawns others whole) {p : Placed}
include h

theorem nestedUnder?_beside
    (parents : ∀ s ∈ others, p.event.metadata.parentId? ≠ some s.toolId) :
    nestedUnder? whole p = nestedUnder? spawns p := by
  refine Option.bind_congr fun parent hparent => ?_
  rw [h.find?_eq]
  intro s hs
  exact beq_eq_false_iff_ne.mpr fun heq => parents s hs (heq ▸ hparent)

theorem pollOf?_beside (tasks : ∀ s ∈ others, p.event.metadata.taskId? ≠ some s.toolId)
    {pollTool : String} : pollOf? pollTool whole p = pollOf? pollTool spawns p := by
  unfold pollOf?
  split
  · refine Option.bind_congr fun task htask => h.find?_eq fun s hs => ?_
    have hne : (s.toolId == task) = false :=
      beq_eq_false_iff_ne.mpr fun heq => tasks s hs (heq ▸ htask)
    rw [hne, Bool.and_false]
  · rfl

/-- An event has the same role when spawns are added that stand elsewhere and that it does not
name. -/
theorem ofPlaced_beside (parents : ∀ s ∈ others, p.event.metadata.parentId? ≠ some s.toolId)
    (tasks : ∀ s ∈ others, p.event.metadata.taskId? ≠ some s.toolId)
    (places : ∀ s ∈ others, s.call.position ≠ p.position) {pollTool : String} :
    ofPlaced pollTool whole p = ofPlaced pollTool spawns p := by
  have self : whole.find? (·.call.position == p.position) =
      spawns.find? (·.call.position == p.position) :=
    h.find?_eq fun s hs => beq_eq_false_iff_ne.mpr (places s hs)
  unfold ofPlaced
  rw [nestedUnder?_beside h parents, pollOf?_beside h tasks, self]

end Role

/-- An event has the same role when spawns are added whose session is apart from its own. -/
theorem Spawn.Discovered.role_beside {tool pollTool : String} {events others : List Placed}
    {spawns added whole : List Spawn} (h : Discovered tool others added)
    (hw : Beside spawns added whole) (apart : Placed.Apart events others) {p : Placed}
    (hp : p ∈ events) : Role.ofPlaced pollTool whole p = Role.ofPlaced pollTool spawns p := by
  have ids : ∀ s ∈ added, s.toolId ∉ p.event.ids := fun s hs hid =>
    (apart p hp s.call (h.call_mem hs)).2 s.toolId hid (Spawn.toolId_mem_ids (h.call s hs))
  apply Role.ofPlaced_beside hw
  · exact fun s hs hparent => ids s hs (Event.parentId_mem_ids hparent)
  · exact fun s hs htask => ids s hs (Event.taskId_mem_ids htask)
  · exact fun s hs => (apart p hp s.call (h.call_mem hs)).1.symm

/-- A call has the same result when events are added that are apart from it. -/
theorem ResultIndex.resultOf_beside {events others whole : List Placed}
    (h : Beside events others whole) (apart : Placed.Apart events others) {p : Placed}
    (hp : p ∈ events) :
    (ofPlaced whole).resultOf p.event = (ofPlaced events).resultOf p.event := by
  have reversed : Beside events.reverse others.reverse whole.reverse := by
    rcases h with rfl | rfl
    · exact .inr List.reverse_append
    · exact .inl List.reverse_append
  unfold resultOf
  split
  · refine Option.bind_congr fun id hid => ?_
    rw [find?_ofPlaced, find?_ofPlaced, reversed.find?_eq]
    intro q hq
    have hother := (apart p hp q (List.mem_reverse.mp hq)).2 id (Event.toolId_mem_ids hid)
    have hne : q.event.metadata.toolId? ≠ some id := fun heq => hother (Event.toolId_mem_ids heq)
    rw [answers, beq_eq_false_iff_ne.mpr hne, Bool.and_false]
  · rfl

namespace Assembly

/-! ### An assembly beside another -/

/-- Spawns of sessions that are apart have different ids. -/
theorem Fits.toolId_beq {options : Options} {events others : List Placed} {b other : Assembly}
    (hb : b.Fits options events) (ho : other.Fits options others)
    (apart : Placed.Apart events others) {s t : Spawn} (hs : s ∈ b.spawns)
    (ht : t ∈ other.spawns) : (t.toolId == s.toolId) = false := by
  refine beq_eq_false_iff_ne.mpr fun heq => ?_
  have hsid := Spawn.toolId_mem_ids (hb.discovered.call s hs)
  have htid := Spawn.toolId_mem_ids (ho.discovered.call t ht)
  exact (apart s.call (hb.discovered.call_mem hs) t.call (ho.discovered.call_mem ht)).2
    s.toolId hsid (heq ▸ htid)

/-- What is assembled from a session, together with another one before it or after it. -/
structure Joined (events : List Placed) (b other a : Assembly) : Prop where
  /-- The casts of both. -/
  cast : Beside b.cast other.cast a.cast
  /-- The repeats of both. -/
  repeats : Beside b.repeats other.repeats a.repeats
  /-- The clusters of both. -/
  clusters : Beside b.clusters other.clusters a.clusters
  /-- The calls of the session have the same results. -/
  results : ∀ p ∈ events, a.results.resultOf p.event = b.results.resultOf p.event

namespace Joined

variable {options : Options} {events others : List Placed} {b other a : Assembly}
  (h : Joined events b other a) (hb : b.Fits options events) (ho : other.Fits options others)
  (apart : Placed.Apart events others)
include h ho apart

theorem isRepeat_eq {p : Placed} (hp : p ∈ events) : a.isRepeat p = b.isRepeat p := by
  refine h.repeats.any_eq fun x hx => beq_eq_false_iff_ne.mpr ?_
  exact ((apart p hp _ (ho.repeats x hx)).1).symm

theorem isSpawnAt_eq {p : Placed} (hp : p ∈ events) :
    a.isSpawnAt p.position = b.isSpawnAt p.position := by
  refine h.cast.any_eq ?_
  rintro ⟨q, role⟩ hx
  have hne := (apart p hp q (ho.mem_cast_iff.mp hx).1).1
  exact Bool.and_eq_false_imp.mpr fun _ => beq_eq_false_iff_ne.mpr hne.symm

include hb

theorem find?_contains_eq {s : Spawn} (hs : s ∈ b.spawns) :
    a.clusters.find? (·.contains s) = b.clusters.find? (·.contains s) := by
  refine h.clusters.find?_eq fun c hc => List.any_eq_false.mpr fun t ht hpos => ?_
  have htm := (ho.members_sublist hc).subset ht
  have hne := (apart s.call (hb.discovered.call_mem hs) t.call (ho.discovered.call_mem htm)).1
  exact hne.symm (beq_iff_eq.mp hpos)

theorem nestedUnder_eq {s : Spawn} (hs : s ∈ b.spawns) :
    a.cast.nestedUnder s.toolId = b.cast.nestedUnder s.toolId := by
  refine congrArg (List.map _) (h.cast.filter_eq ?_)
  rintro ⟨p, role⟩ hx
  cases role with
  | nested t =>
    have hrole := Role.ofPlaced_eq_nested_iff.mp (ho.mem_cast_iff.mp hx).2
    exact hb.toolId_beq ho apart hs (ho.discovered.nestedUnder?_eq_some_iff.mp hrole.2).1
  | result | poll | spawn | message => rfl

theorem pollsOf_eq {s : Spawn} (hs : s ∈ b.spawns) :
    a.cast.pollsOf s.toolId = b.cast.pollsOf s.toolId := by
  refine congrArg (List.map _) (h.cast.filter_eq ?_)
  rintro ⟨p, role⟩ hx
  cases role with
  | poll t =>
    have hrole := Role.ofPlaced_eq_poll_iff.mp (ho.mem_cast_iff.mp hx).2
    exact hb.toolId_beq ho apart hs (ho.discovered.pollOf?_eq_some_iff.mp hrole.2.2).2.1
  | result | nested | spawn | message => rfl

/-- A spawn has the same entry. -/
theorem entry_eq {s : Spawn} (hs : s ∈ b.spawns) : a.entry s = b.entry s := by
  have status : (b.cast.pollsOf s.toolId).getLast?.bind (fun poll =>
        (a.results.resultOf poll.event).bind (·.event.metadata.status)) =
      (b.cast.pollsOf s.toolId).getLast?.bind fun poll =>
        (b.results.resultOf poll.event).bind (·.event.metadata.status) := by
    refine Option.bind_congr fun poll hpoll => ?_
    have hmem := (hb.mem_polls_iff hs).mp (List.mem_of_getLast? hpoll)
    rw [h.results poll hmem.1]
  simp only [entry, Option.bind_eq_bind, nestedUnder_eq h hb ho apart hs,
    pollsOf_eq h hb ho apart hs, h.results s.call (hb.discovered.call_mem hs), status]

theorem clusterGroup?_eq {s : Spawn} (hs : s ∈ b.spawns) {c : Cluster} (hc : c ∈ b.clusters) :
    a.clusterGroup? s c = b.clusterGroup? s c := by
  have members : ∀ t ∈ c.members, t ∈ b.spawns := fun t ht => (hb.members_sublist hc).subset ht
  have leader : a.leader? c = b.leader? c := List.find?_congr fun t ht =>
    isSpawnAt_eq h ho apart (hb.discovered.call_mem (members t ht))
  have entries : c.members.map a.entry = c.members.map b.entry :=
    List.map_congr_left fun t ht => entry_eq h hb ho apart (members t ht)
  rw [clusterGroup?, clusterGroup?, leader, entries, entry_eq h hb ho apart hs]

/-- At the place of an event stands the same group. -/
theorem groupAt?_eq {x : Placed × Role} (hx : x ∈ b.cast) : a.groupAt? x = b.groupAt? x := by
  obtain ⟨p, role⟩ := x
  cases role with
  | message =>
    have hp := (hb.mem_cast_iff.mp hx).1
    rw [groupAt?, groupAt?, isRepeat_eq h ho apart hp, h.results p hp]
  | spawn s =>
    have hs := (hb.mem_cast_spawn_iff.mp hx).1
    rw [groupAt?, groupAt?, find?_contains_eq h hb ho apart hs]
    refine Option.bind_congr fun c hc => ?_
    exact clusterGroup?_eq h hb ho apart hs ((hb.find?_contains_iff hs).mp hc).1
  | result | nested | poll => rfl

theorem filterMap_groupAt?_eq : b.cast.filterMap a.groupAt? = b.groups :=
  List.filterMap_congr fun _ hx => groupAt?_eq h hb ho apart hx

end Joined

/-! ### One session after another -/

section Append

variable {events others : List Placed} (apart : Placed.Apart events others) (results : ResultIndex)
  (options : Options)
include apart

theorem cast_append : (ofPlaced (events ++ others) results options).cast =
    (ofPlaced events results options).cast ++ (ofPlaced others results options).cast := by
  have here := Roster.discovered options.spawnTool events
  have there := Roster.discovered options.spawnTool others
  change Role.assign _ _ _ = Role.assign _ _ _ ++ Role.assign _ _ _
  rw [Roster.spawns_append apart, Role.assign, List.map_append]
  congr 1
  · exact List.map_congr_left fun p hp =>
      congrArg (p, ·) (there.role_beside (.inl rfl) apart hp)
  · exact List.map_congr_left fun q hq =>
      congrArg (q, ·) (here.role_beside (.inr rfl) apart.symm hq)

theorem repeats_append : (ofPlaced (events ++ others) results options).repeats =
    (ofPlaced events results options).repeats ++ (ofPlaced others results options).repeats := by
  change (Roster.ofPlaced _ _).repeats = _
  rw [Roster.ofPlaced_append apart]
  rfl

theorem clusters_append
    (far : ∀ c ∈ (ofPlaced events results options).clusters,
      ∀ s ∈ (ofPlaced others results options).spawns,
        c.anchor.isNear options.thresholdMs s = false) :
    (ofPlaced (events ++ others) results options).clusters =
      (ofPlaced events results options).clusters ++
        (ofPlaced others results options).clusters := by
  change Cluster.ofSpawns _ (Roster.ofPlaced _ _).spawns = _
  rw [Roster.spawns_append apart]
  exact Cluster.ofSpawns_append far

end Append

/-- The groups of a session that goes on with events that are apart from those before them. -/
theorem groups_append_of_apart {events others : List Placed} (apart : Placed.Apart events others)
    (ho : Placed.InOrder (events ++ others)) (options : Options)
    (far : ∀ c ∈ (ofPlaced events [] options).clusters,
      ∀ s ∈ (ofPlaced others [] options).spawns, c.anchor.isNear options.thresholdMs s = false) :
    (ofPlaced (events ++ others) (ResultIndex.ofPlaced (events ++ others)) options).groups =
      (ofPlaced events (ResultIndex.ofPlaced events) options).groups ++
        (ofPlaced others (ResultIndex.ofPlaced others) options).groups := by
  have here : (ofPlaced events (ResultIndex.ofPlaced events) options).Fits options events :=
    fits_ofPlaced (ho.sublist (List.sublist_append_left ..)) _ _
  have there : (ofPlaced others (ResultIndex.ofPlaced others) options).Fits options others :=
    fits_ofPlaced (ho.sublist (List.sublist_append_right ..)) _ _
  have cast := cast_append apart [] options
  have repeats := repeats_append apart [] options
  have clusters := clusters_append apart [] options far
  have first : Joined events (ofPlaced events (ResultIndex.ofPlaced events) options)
      (ofPlaced others (ResultIndex.ofPlaced others) options)
      (ofPlaced (events ++ others) (ResultIndex.ofPlaced (events ++ others)) options) :=
    ⟨.inl cast, .inl repeats, .inl clusters,
      fun p hp => ResultIndex.resultOf_beside (.inl rfl) apart hp⟩
  have second : Joined others (ofPlaced others (ResultIndex.ofPlaced others) options)
      (ofPlaced events (ResultIndex.ofPlaced events) options)
      (ofPlaced (events ++ others) (ResultIndex.ofPlaced (events ++ others)) options) :=
    ⟨.inr cast, .inr repeats, .inr clusters,
      fun p hp => ResultIndex.resultOf_beside (.inr rfl) apart.symm hp⟩
  rw [groups]
  change (ofPlaced (events ++ others) [] options).cast.filterMap _ = _
  rw [cast, List.filterMap_append]
  congr 1
  · exact first.filterMap_groupAt?_eq here there apart
  · exact second.filterMap_groupAt?_eq there here apart.symm

end Assembly

/-! ### Sessions that go on -/

/-- The spawns of a session. -/
def Spawn.ofEvents (tool : String) (events : List Event) : List Spawn :=
  (Roster.ofPlaced tool (Placed.ofEvents events)).spawns

/-- Events that share no id with those before them are apart from them where they stand. -/
theorem Placed.apart_ofEvents {before after : List Event}
    (ids : ∀ e ∈ before, ∀ f ∈ after, ∀ id ∈ e.ids, id ∉ f.ids) :
    Apart (ofEvents before) ((ofEvents after).map (shift before.length)) := by
  have inOrder := inOrder_ofEvents (before ++ after)
  rw [ofEvents_append] at inOrder
  have places := (List.pairwise_append.mp inOrder).2.2
  intro p hp q hq
  obtain ⟨r, hr, rfl⟩ := List.mem_map.mp hq
  refine ⟨Nat.ne_of_lt (places p hp _ hq), ids p.event ?_ r.event ?_⟩
  · exact List.mem_of_getElem? (mem_ofEvents_iff.mp hp)
  · exact List.mem_of_getElem? (mem_ofEvents_iff.mp hr)

/-- **Extension**: a session that goes on with events that share no id with those before them, and
whose spawns are not near the anchor of a cluster before them, has the groups that it had and then
those that the new events have by themselves, moved on. Every event keeps its result. -/
theorem Grouping.extension_keeps_groups (before after : List Event) (options : Options)
    (ids : ∀ e ∈ before, ∀ f ∈ after, ∀ id ∈ e.ids, id ∉ f.ids)
    (far : ∀ c ∈ Cluster.ofSpawns options.thresholdMs (Spawn.ofEvents options.spawnTool before),
      ∀ s ∈ Spawn.ofEvents options.spawnTool after,
        c.anchor.isNear options.thresholdMs s = false) :
    (ofEvents (before ++ after) options).groups = (ofEvents before options).groups ++
        (ofEvents after options).groups.map (Group.shift before.length) ∧
      (∀ e ∈ before, (ofEvents (before ++ after) options).results.resultOf e =
        (ofEvents before options).results.resultOf e) ∧
      ∀ f ∈ after, (ofEvents (before ++ after) options).results.resultOf f =
        ((ofEvents after options).results.resultOf f).map (Placed.shift before.length) := by
  have apart := Placed.apart_ofEvents ids
  have inOrder := Placed.inOrder_ofEvents (before ++ after)
  simp only [ofEvents, Placed.ofEvents_append] at inOrder ⊢
  refine ⟨?_, fun e he => ?_, fun f hf => ?_⟩
  · rw [← Assembly.groups_shift]
    refine Assembly.groups_append_of_apart apart inOrder options fun c hc s hs => ?_
    change s ∈ (Roster.ofPlaced _ _).spawns at hs
    rw [Roster.spawns_shift] at hs
    obtain ⟨t, ht, rfl⟩ := List.mem_map.mp hs
    exact far c hc t ht
  · obtain ⟨place, hplace⟩ := List.getElem?_of_mem he
    have hp : ⟨place, e⟩ ∈ Placed.ofEvents before := Placed.mem_ofEvents_iff.mpr hplace
    exact ResultIndex.resultOf_beside (.inl rfl) apart hp
  · obtain ⟨place, hplace⟩ := List.getElem?_of_mem hf
    have hq : ⟨place, f⟩ ∈ Placed.ofEvents after := Placed.mem_ofEvents_iff.mpr hplace
    have moved := List.mem_map_of_mem (f := Placed.shift before.length) hq
    rw [← ResultIndex.resultOf_shift before.length (Placed.ofEvents after) ⟨place, f⟩]
    exact ResultIndex.resultOf_beside (.inr rfl) apart.symm moved

/-- A cluster, a poll and its result, and then a spawn that is near a member of the cluster but not
near its anchor. -/
theorem Grouping.extension_keeps_groups_near_member :
    let spawn (id : String) (second : Int) : Event :=
      { kind := .toolCall, time := ⟨second, 0⟩,
        metadata := { toolId := some id, toolName := some "Task", background := some true } }
    let poll (id task : String) : Event :=
      { kind := .toolCall, time := ⟨9, 0⟩,
        metadata := { toolId := some id, toolName := some "TaskOutput", taskId := some task } }
    let result (id : String) : Event :=
      { kind := .toolResult, time := ⟨9, 0⟩,
        metadata := { toolId := some id, status := some "done" } }
    let before := [spawn "a" 0, spawn "b" 1, poll "c" "a", result "c"]
    let after := [spawn "d" 2, poll "e" "d", result "e", result "d"]
    let options : Options := { thresholdMs := 1000 }
    (∀ e ∈ before, ∀ f ∈ after, ∀ id ∈ e.ids, id ∉ f.ids) ∧
      (∀ c ∈ Cluster.ofSpawns options.thresholdMs (Spawn.ofEvents options.spawnTool before),
        ∀ s ∈ Spawn.ofEvents options.spawnTool after,
          c.anchor.isNear options.thresholdMs s = false) ∧
      (ofEvents (before ++ after) options).groups = (ofEvents before options).groups ++
        (ofEvents after options).groups.map (Group.shift 4) := by
  intro spawn poll result before after options
  have ids : ∀ e ∈ before, ∀ f ∈ after, ∀ id ∈ e.ids, id ∉ f.ids := by decide
  have far : ∀ c ∈ Cluster.ofSpawns options.thresholdMs (Spawn.ofEvents options.spawnTool before),
      ∀ s ∈ Spawn.ofEvents options.spawnTool after,
        c.anchor.isNear options.thresholdMs s = false := by decide +kernel
  exact ⟨ids, far, (extension_keeps_groups before after options ids far).1⟩

end AgentThreads
