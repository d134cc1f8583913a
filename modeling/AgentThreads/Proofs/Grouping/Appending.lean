import AgentThreads.Proofs.Grouping.Contents
import AgentThreads.Proofs.Grouping.Extension
import AgentThreads.Proofs.Grouping.FirstFit
import AgentThreads.Proofs.Grouping.Insertion

/-!
# Appending a spawn

A session that goes on with a spawn call which nothing before it names, and which is under no other
spawn call, gains one spawn. First fit puts this spawn last into the earliest cluster whose anchor is
near it, or into a new last cluster. So one group gains a last entry where it stands, or one group
comes after all the others.
-/

namespace AgentThreads

/-- A spawn call with an id that nothing in a session names, which is under no spawn call of the
session. -/
structure Event.IsNewSpawn (tool : String) (events : List Event) (id : String) (e : Event) :
    Prop where
  /-- It is a call of the spawn tool. -/
  isCallOf : e.isCallOf tool
  /-- It has the id. -/
  toolId : e.metadata.toolId? = some id
  /-- No spawn call has the id. -/
  fresh : ∀ f ∈ events, f.isCallOf tool → f.metadata.toolId? ≠ some id
  /-- No event has the id as its parent's. -/
  childless : ∀ f ∈ events, f.metadata.parentId? ≠ some id
  /-- No event has the id as its task's. -/
  unasked : ∀ f ∈ events, f.metadata.taskId? ≠ some id
  /-- Its own parent, if it has one, is itself or no spawn call. -/
  top : ∀ parent, e.metadata.parentId? = some parent →
    parent = id ∨ ∀ f ∈ events, f.isCallOf tool → f.metadata.toolId? ≠ some parent

/-- The entry of a spawn to which nothing belongs but its result. -/
def Entry.ofCall (results : ResultIndex) (call : Placed) : Entry where
  spawn := call
  result := results.resultOf call.event
  nested := []
  polls := []
  lastPollStatus := none

/-- The group with one more subagent that runs in parallel with those it has. -/
def Group.gain (entry : Entry) : Group → Group
  | message event result => message event result
  | subagent first => parallel [first, entry]
  | parallel entries => parallel (entries ++ [entry])

/-! ### The roster -/

namespace Roster

/-- The roster of events that go on with a spawn call. -/
theorem ofPlaced_snoc {tool : String} {events : List Placed} {s : Spawn}
    (hs : Spawn.ofPlaced? tool s.call = some s) :
    ofPlaced tool (events ++ [s.call]) = (ofPlaced tool events).enter s := by
  have last : [s.call].filterMap (Spawn.ofPlaced? tool) = [s] := List.filterMap_cons_some hs
  rw [ofPlaced, List.filterMap_append, List.foldl_append, last]
  rfl

variable {r : Roster} {s : Spawn} (fresh : r.holder? s.toolId = none)
include fresh

/-- A call whose id is not held yet comes last. -/
theorem enter_of_fresh : r.enter s = r.append ⟨[s], []⟩ := by
  simp [enter, fresh, append]

/-- A call whose id is not held yet, and which is neither over nor under a call, is the last spawn. -/
theorem spawns_enter
    (childless : ∀ t ∈ r.holders, t.call.event.metadata.parentId? ≠ some s.toolId)
    (top : ∀ parent, s.call.event.metadata.parentId? = some parent →
      parent = s.toolId ∨ r.holder? parent = none) : (r.enter s).spawns = r.spawns ++ [s] := by
  have others : ∀ parent, parent ≠ s.toolId →
      (r.append ⟨[s], []⟩).holder? parent = r.holder? parent := by
    intro parent hparent
    rw [holder?_append]
    simp [holder?, hparent.symm]
  rw [enter_of_fresh fresh, spawns, append, List.filter_append, ← append]
  congr 1
  · refine List.filter_congr fun t ht => isTopLevel_congr fun parent hparent => ?_
    apply others
    rintro rfl
    exact childless t ht hparent
  · have isTop : (r.append ⟨[s], []⟩).isTopLevel s := by
      unfold isTopLevel
      split
      · rfl
      · case _ parent hparent =>
        by_cases hself : parent = s.toolId
        · simp [hself]
        · have none := (top parent hparent).resolve_left hself
          simp [others parent hself, none]
    exact List.filter_cons_of_pos isTop

end Roster

namespace Assembly

/-- The cast around one of its events: all others stand at other places. -/
theorem Fits.exists_cast_around {options : Options} {events : List Placed} {a : Assembly}
    (h : a.Fits options events) {x : Placed × Role} (hx : x ∈ a.cast) :
    ∃ first rest, a.cast = first ++ x :: rest ∧
      ∀ y ∈ first ++ rest, y ∈ a.cast ∧ y.1.position ≠ x.1.position := by
  obtain ⟨first, rest, hcast⟩ := List.append_of_mem hx
  have inOrder := h.map_fst_cast ▸ h.inOrder
  rw [hcast, List.map_append, List.map_cons] at inOrder
  refine ⟨first, rest, hcast, ?_⟩
  intro y hy
  constructor
  · rw [hcast]
    rcases List.mem_append.mp hy with hy | hy
    · exact List.mem_append_left _ hy
    · exact List.mem_append_right _ (List.mem_cons_of_mem x hy)
  · apply inOrder.position_ne
    rw [← List.map_append]
    exact List.mem_map_of_mem hy

/-! ### One more spawn -/

/-- The second assembly is made from the events of the first and from the call of one more spawn,
which none of them names. -/
structure Grows (options : Options) (events : List Placed) (s : Spawn) (a b : Assembly) : Prop where
  /-- The first one is made from the events. -/
  fits : a.Fits options events
  /-- The second one is made from the events and the call. -/
  fits' : b.Fits options (events ++ [s.call])
  /-- The spawn comes last. -/
  spawns : b.spawns = a.spawns ++ [s]
  /-- They know the same repeats. -/
  repeats : b.repeats = a.repeats
  /-- They find the same results. -/
  results : b.results = a.results
  /-- No event has the spawn as its parent. -/
  childless : ∀ p ∈ events, p.event.metadata.parentId? ≠ some s.toolId
  /-- No event has the spawn as its task. -/
  unasked : ∀ p ∈ events, p.event.metadata.taskId? ≠ some s.toolId

theorem grows_ofPlaced {options : Options} {events : List Placed} {s : Spawn}
    (ho : Placed.InOrder (events ++ [s.call])) (results : ResultIndex)
    (h : s.call.event.IsNewSpawn options.spawnTool (events.map (·.event)) s.toolId) :
    Grows options events s (ofPlaced events results options)
      (ofPlaced (events ++ [s.call]) results options) := by
  have among : ∀ {p}, p ∈ events → p.event ∈ events.map (·.event) := List.mem_map_of_mem
  have call : Spawn.ofPlaced? options.spawnTool s.call = some s :=
    Spawn.ofPlaced?_eq_some_iff.mpr ⟨h.isCallOf, h.toolId, rfl⟩
  have roster : Roster.ofPlaced options.spawnTool (events ++ [s.call]) =
      (Roster.ofPlaced options.spawnTool events).enter s := Roster.ofPlaced_snoc call
  have fresh : (Roster.ofPlaced options.spawnTool events).holder? s.toolId = none :=
    Roster.holder?_eq_none_iff.mpr fun p hp => h.fresh p.event (among hp)
  have records := Roster.records_ofPlaced options.spawnTool events
  refine ⟨fits_ofPlaced (ho.sublist (List.sublist_append_left ..)) results options,
    fits_ofPlaced ho results options, ?_, ?_, rfl, fun p hp => h.childless p.event (among hp),
    fun p hp => h.unasked p.event (among hp)⟩
  · change (Roster.ofPlaced _ _).spawns = (Roster.ofPlaced _ _).spawns ++ [s]
    rw [roster]
    apply Roster.spawns_enter fresh
    · intro t ht
      have ht := (Spawn.mem_callsAmong_iff.mp (records.sublist.subset ht)).1
      exact h.childless t.call.event (among ht)
    · intro parent hparent
      refine (h.top parent hparent).imp_right fun none => ?_
      exact Roster.holder?_eq_none_iff.mpr fun p hp => none p.event (among hp)
  · change (Roster.ofPlaced _ _).repeats = (Roster.ofPlaced _ _).repeats
    rw [roster, Roster.enter_of_fresh fresh]
    exact List.append_nil _

namespace Grows

variable {options : Options} {events : List Placed} {s : Spawn} {a b : Assembly}
  (h : Grows options events s a b)
include h

theorem mem_spawns : s ∈ b.spawns := by
  simp [h.spawns]

theorem position_lt {p : Placed} (hp : p ∈ events) : p.position < s.call.position :=
  (List.pairwise_append.mp h.fits'.inOrder).2.2 p hp s.call List.mem_cons_self

/-- The call of a spawn that was there before is another one. -/
theorem call_ne {t : Spawn} (ht : t ∈ a.spawns) : t.call ≠ s.call := by
  intro heq
  have hlt := h.position_lt (h.fits.discovered.call_mem ht)
  exact absurd hlt (by simp [heq])

theorem clusters : b.clusters = Cluster.join options.thresholdMs a.clusters s := by
  rw [h.fits'.clusters, h.fits.clusters, h.spawns, Cluster.ofSpawns_eq_firstFit,
    Cluster.ofSpawns_eq_firstFit, Cluster.firstFit, List.foldl_append]
  rfl

/-- The events before the spawn keep their roles. -/
theorem role_eq {p : Placed} (hp : p ∈ events) :
    Role.ofPlaced options.pollTool b.spawns p = Role.ofPlaced options.pollTool a.spawns p := by
  apply Role.ofPlaced_beside (.inl h.spawns)
  · simpa using h.childless p hp
  · simpa using h.unasked p hp
  · simpa using Nat.ne_of_gt (h.position_lt hp)

variable (hne : options.spawnTool ≠ options.pollTool)
include hne

theorem cast : b.cast = a.cast ++ [(s.call, .spawn s)] := by
  have self : Role.ofPlaced options.pollTool b.spawns s.call = .spawn s := by
    have hs : s.call ∈ events ++ [s.call] := by simp
    have poll := h.fits'.free_of_ne hne s h.mem_spawns
    exact (h.fits'.discovered.ofPlaced_eq_spawn_iff h.fits'.inOrder hs).mpr
      ⟨h.mem_spawns, rfl, poll⟩
  rw [h.fits'.cast, h.fits.cast, Role.assign, List.map_append, List.map_singleton, self]
  congr 1
  apply List.map_congr_left
  intro p hp
  rw [h.role_eq hp]

theorem mem_cast : (s.call, Role.spawn s) ∈ b.cast := by
  simp [h.cast hne]

/-- No entry changes. -/
theorem entry (t : Spawn) : b.entry t = a.entry t := by
  have nested : b.cast.nestedUnder t.toolId = a.cast.nestedUnder t.toolId := by
    simp [Role.Cast.nestedUnder, h.cast hne, Role.isNestedUnder]
  have polls : b.cast.pollsOf t.toolId = a.cast.pollsOf t.toolId := by
    simp [Role.Cast.pollsOf, h.cast hne, Role.isPollOf]
  rw [Assembly.entry, Assembly.entry, nested, polls, h.results]

/-- Nothing but its result belongs to the new spawn. -/
theorem entry_self : b.entry s = Entry.ofCall a.results s.call := by
  have nested : (b.entry s).nested = [] := by
    rw [h.fits'.nested_entry h.mem_spawns, List.filter_eq_nil_iff]
    intro p hp
    rcases List.mem_append.mp hp with hp | hp
    · simp [h.childless p hp]
    · simp [List.mem_singleton.mp hp]
  have polls : (b.entry s).polls = [] := by
    have noPoll : s.call.event.isCallOf options.pollTool = false := by
      have hcall := h.fits'.discovered.isCallOf h.mem_spawns
      rw [Bool.eq_false_iff]
      exact fun hpoll => hne (Event.eq_of_isCallOf hcall hpoll)
    rw [h.fits'.polls_entry h.mem_spawns]
    split
    · rw [List.filter_eq_nil_iff]
      intro p hp
      rcases List.mem_append.mp hp with hp | hp
      · simp [h.unasked p hp]
      · simp [List.mem_singleton.mp hp, noPoll]
    · rfl
  change b.cast.nestedUnder s.toolId = [] at nested
  change b.cast.pollsOf s.toolId = [] at polls
  rw [Assembly.entry, nested, polls, h.results]
  rfl

/-! ### The groups -/

theorem groupOf (c : Cluster) : b.groupOf c = a.groupOf c := by
  have entries : b.entry = a.entry := funext (h.entry hne)
  rw [Assembly.groupOf, Assembly.groupOf, entries]

/-- A cluster that the spawn joins has the group that it had, with one more entry. -/
theorem groupOf_joined (c : Cluster) : b.groupOf ⟨c.anchor, c.others ++ [s]⟩ =
    (a.groupOf c).gain (Entry.ofCall a.results s.call) := by
  have self := h.entry hne s ▸ h.entry_self hne
  rw [h.groupOf hne, Assembly.groupOf, Assembly.groupOf]
  cases hothers : c.others with
  | nil => simp [Cluster.members, Group.gain, self]
  | cons t others => simp [Cluster.members, Group.gain, self, hothers]

/-- At the place of an event stands the same group if it is the anchor of the same clusters. -/
theorem groupAt? {x : Placed × Role} (hx : x ∈ a.cast)
    (same : ∀ c : Cluster, c.anchor.call = x.1 → (c ∈ b.clusters ↔ c ∈ a.clusters)) :
    b.groupAt? x = a.groupAt? x := by
  obtain ⟨p, role⟩ := x
  cases role with
  | message =>
    rw [Assembly.groupAt?, Assembly.groupAt?, isRepeat, isRepeat, h.repeats, h.results]
  | spawn t =>
    have hx' : (p, Role.spawn t) ∈ b.cast := by simp [h.cast hne, hx]
    have hcall := (h.fits.mem_cast_spawn_iff.mp hx).2.1
    ext g
    rw [h.fits'.groupAt?_eq_some_iff (h.fits'.free_of_ne hne) hx',
      h.fits.groupAt?_eq_some_iff (h.fits.free_of_ne hne) hx]
    apply exists_congr
    intro c
    rw [h.groupOf hne]
    constructor
    · rintro ⟨hc, rfl, hg⟩
      exact ⟨(same c hcall).mp hc, rfl, hg⟩
    · rintro ⟨hc, rfl, hg⟩
      exact ⟨(same c hcall).mpr hc, rfl, hg⟩
  | result | nested | poll => rfl

/-- The groups, and the one that stands at the place of the new spawn if there is one. -/
theorem groups : b.groups =
    a.cast.filterMap b.groupAt? ++ (b.groupAt? (s.call, .spawn s)).toList := by
  rw [Assembly.groups, h.cast hne, List.filterMap_append]
  cases hg : b.groupAt? (s.call, .spawn s) <;> simp [hg]

/-- A spawn that is near no anchor forms a group of its own, after the others. -/
theorem groups_of_far
    (far : a.clusters.find? (·.anchor.isNear options.thresholdMs s) = none) :
    b.groups = a.groups ++ [.subagent (Entry.ofCall a.results s.call)] := by
  have clusters : b.clusters = a.clusters ++ [⟨s, []⟩] :=
    h.clusters.trans (Cluster.join_of_far far)
  have first : a.cast.filterMap b.groupAt? = a.groups := by
    apply List.filterMap_congr
    intro x hx
    apply h.groupAt? hne hx
    intro c hc
    have hold : c ≠ ⟨s, []⟩ := by
      rintro rfl
      have hlt := h.position_lt (h.fits.mem_cast_iff.mp hx).1
      exact absurd hlt (by simp [← hc])
    simp [clusters, hold]
  have last : b.groupAt? (s.call, .spawn s) =
      some (.subagent (Entry.ofCall a.results s.call)) := by
    rw [h.fits'.groupAt?_eq_some_iff (h.fits'.free_of_ne hne) (h.mem_cast hne)]
    refine ⟨⟨s, []⟩, by simp [clusters], rfl, ?_⟩
    rw [← h.entry_self hne]
    rfl
  rw [h.groups hne, first, last]
  rfl

/-- Where the spawn is no anchor, nothing stands at its place. -/
theorem groupAt?_self_eq_none
    (anchors : b.clusters.map (·.anchor) = a.clusters.map (·.anchor)) :
    b.groupAt? (s.call, .spawn s) = none := by
  rw [Option.eq_none_iff_forall_ne_some]
  intro g hg
  obtain ⟨c, hc, hself, -⟩ :=
    (h.fits'.groupAt?_eq_some_iff (h.fits'.free_of_ne hne) (h.mem_cast hne)).mp hg
  have hanchor : c.anchor ∈ a.clusters.map (·.anchor) := anchors ▸ List.mem_map_of_mem hc
  obtain ⟨d, hd, hold⟩ := List.mem_map.mp hanchor
  have hs : d.anchor ∈ a.spawns := (h.fits.members_sublist hd).subset d.anchor_mem_members
  exact h.call_ne hs (by rw [hold, hself])

/-- A spawn that is near an anchor becomes the last entry of the group of the earliest such anchor. -/
theorem groups_of_near {c : Cluster}
    (near : a.clusters.find? (·.anchor.isNear options.thresholdMs s) = some c) :
    ∃ before after, a.groups = before ++ a.groupOf c :: after ∧
      b.groups = before ++ (a.groupOf c).gain (Entry.ofCall a.results s.call) :: after := by
  have free := h.fits.free_of_ne hne
  have free' := h.fits'.free_of_ne hne
  obtain ⟨earlier, later, old, joined⟩ := Cluster.join_of_near near
  rw [← h.clusters] at joined
  have hc : c ∈ a.clusters := by simp [old]
  have hanchor : c.anchor ∈ a.spawns := (h.fits.members_sublist hc).subset c.anchor_mem_members
  have hx : (c.anchor.call, Role.spawn c.anchor) ∈ a.cast :=
    h.fits.mem_cast_spawn_iff.mpr ⟨hanchor, rfl, free _ hanchor⟩
  have hx' : (c.anchor.call, Role.spawn c.anchor) ∈ b.cast := by simp [h.cast hne, hx]
  -- At the place of the anchor stands the group that gains the entry.
  have here : a.groupAt? (c.anchor.call, .spawn c.anchor) = some (a.groupOf c) :=
    (h.fits.groupAt?_eq_some_iff free hx).mpr ⟨c, hc, rfl, rfl⟩
  have here' : b.groupAt? (c.anchor.call, .spawn c.anchor) =
      some ((a.groupOf c).gain (Entry.ofCall a.results s.call)) :=
    (h.fits'.groupAt?_eq_some_iff free' hx').mpr
      ⟨⟨c.anchor, c.others ++ [s]⟩, by simp [joined], rfl, h.groupOf_joined hne c⟩
  have last : b.groupAt? (s.call, .spawn s) = none :=
    h.groupAt?_self_eq_none hne (by simp [joined, old])
  -- Everywhere else stands what stood there.
  obtain ⟨first, rest, hcast, others⟩ := h.fits.exists_cast_around hx
  have elsewhere : ∀ x ∈ first ++ rest, b.groupAt? x = a.groupAt? x := by
    intro x hmem
    obtain ⟨hxa, hplace⟩ := others x hmem
    apply h.groupAt? hne hxa
    intro d hd
    have hold : d ≠ c := by
      rintro rfl
      exact hplace (by rw [hd])
    have hnew : d ≠ ⟨c.anchor, c.others ++ [s]⟩ := by
      rintro rfl
      exact hplace (by rw [← hd])
    simp [joined, old, hold, hnew]
  refine ⟨first.filterMap a.groupAt?, rest.filterMap a.groupAt?, ?_, ?_⟩
  · rw [Assembly.groups, hcast, List.filterMap_append, List.filterMap_cons_some here]
  · rw [h.groups hne, last, hcast, List.filterMap_append, List.filterMap_cons_some here',
      List.filterMap_congr fun x hx => elsewhere x (List.mem_append_left _ hx),
      List.filterMap_congr fun x hx => elsewhere x (List.mem_append_right _ hx)]
    exact List.append_nil _

end Grows

end Assembly

/-- **Appending a spawn**: if the two tools differ, a session that goes on with a spawn call which
nothing in it names, and which is under no spawn call of it, keeps its groups but for one. If the new
spawn is near the anchor of a cluster, the group of the earliest such cluster gains it as its last entry
and stays where it is. Otherwise one group comes after the others, that of the new spawn alone. -/
theorem Assembly.groups_of_spawn_appended (events : List Event) (e : Event) (id : String)
    (results : ResultIndex) (options : Options) (hne : options.spawnTool ≠ options.pollTool)
    (h : e.IsNewSpawn options.spawnTool events id) :
    let spawn : Spawn := ⟨⟨events.length, e⟩, id⟩
    let entry := Entry.ofCall results spawn.call
    let session := ofPlaced (Placed.ofEvents events) results options
    let earliest? := session.clusters.find? (·.anchor.isNear options.thresholdMs spawn)
    let groups := (ofPlaced (Placed.ofEvents (events ++ [e])) results options).groups
    (∀ c, earliest? = some c → ∃ before g after, session.groups = before ++ g :: after ∧
        g.anchor? = some c.anchor.call ∧ g.entries.map (·.spawn) = c.members.map (·.call) ∧
        groups = before ++ g.gain entry :: after) ∧
      (earliest? = none → groups = session.groups ++ [.subagent entry]) := by
  intro spawn entry session earliest? groups
  have placed : Placed.ofEvents (events ++ [e]) = Placed.ofEvents events ++ [spawn.call] :=
    Placed.ofEvents_insert events [] e
  have inOrder := Placed.inOrder_ofEvents (events ++ [e])
  rw [placed] at inOrder
  have new : spawn.call.event.IsNewSpawn options.spawnTool
      ((Placed.ofEvents events).map (·.event)) spawn.toolId := by
    rwa [Placed.map_event_ofEvents]
  have grows := grows_ofPlaced inOrder results new
  rw [← placed] at grows
  constructor
  · intro c hc
    obtain ⟨before, after, old, gained⟩ := grows.groups_of_near hne hc
    refine ⟨before, session.groupOf c, after, old, anchor?_groupOf session c, ?_, gained⟩
    rw [entries_groupOf, List.map_map]
    rfl
  · exact grows.groups_of_far hne

/-- A spawn that is near the first of two subagents makes it a parallel group where it stands. -/
theorem Assembly.groups_of_spawn_appended_behind_another :
    let spawn (id : String) (second : Int) : Event :=
      { kind := .toolCall, time := ⟨second, 0⟩,
        metadata := { toolId := some id, toolName := some "Task", parentId := some id } }
    let message : Event := { kind := .message, time := ⟨0, 0⟩ }
    let events := [spawn "a" 0, message, spawn "b" 9]
    let e := spawn "c" 1
    let session := ofPlaced (Placed.ofEvents events) [] {}
    let groups := (ofPlaced (Placed.ofEvents (events ++ [e])) [] {}).groups
    "Task" ≠ "TaskOutput" ∧ e.IsNewSpawn "Task" events "c" ∧
      (∃ before g after, session.groups = before ++ g :: after ∧
        groups = before ++ g.gain (Entry.ofCall [] ⟨3, e⟩) :: after) ∧
      session.groups.map (fun g => g.entries.map (·.spawn.position)) = [[0], [], [2]] ∧
      groups.map (fun g => g.entries.map (·.spawn.position)) = [[0, 3], [], [2]] := by
  intro spawn message events e session groups
  have new : e.IsNewSpawn "Task" events "c" := by
    refine ⟨by decide, by decide, by decide, by decide, by decide, ?_⟩
    intro parent hparent
    exact .inl (Option.some_inj.mp hparent).symm
  have appended := groups_of_spawn_appended events e "c" [] {} (by decide) new
  have near : (session.clusters.find? (·.anchor.isNear 2000 ⟨⟨3, e⟩, "c"⟩)).isSome := by
    decide +kernel
  obtain ⟨c, hc⟩ := Option.isSome_iff_exists.mp near
  obtain ⟨before, g, after, old, -, -, gained⟩ := appended.1 c hc
  exact ⟨by decide, new, ⟨before, g, after, old, gained⟩, by decide +kernel, by decide +kernel⟩

end AgentThreads
