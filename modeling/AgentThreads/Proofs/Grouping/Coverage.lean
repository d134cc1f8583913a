import AgentThreads.Proofs.Grouping.Emission

/-!
# Coverage

If no spawn polls, which is so whenever the two tools differ, the groups of a session carry each
event that is no result once, and no result. If a spawn polls, a spawn is lost or shown as a poll.
-/

namespace AgentThreads

/-- The events that an entry carries: the spawn, the nested events and the polls. -/
def Entry.carried (e : Entry) : List Placed :=
  e.spawn :: e.nested ++ e.polls

/-- The events that a group carries. -/
def Group.carried : Group → List Placed
  | message event _ => [event]
  | subagent entry => entry.carried
  | parallel entries => entries.flatMap Entry.carried

theorem Group.carried_eq (g : Group) :
    g.carried = g.message?.toList ++ g.entries.flatMap Entry.carried := by
  cases g <;> simp [carried, message?, entries]

/-- What groups carry, by what carries it. -/
theorem Group.flatMap_carried_perm (groups : List Group) : (groups.flatMap carried).Perm
    (groups.filterMap message? ++ ((groups.flatMap entries).map (·.spawn) ++
      ((groups.flatMap entries).flatMap (·.nested) ++
        (groups.flatMap entries).flatMap (·.polls)))) := by
  have parts : (groups.flatMap entries).flatMap Entry.carried =
      (groups.flatMap entries).flatMap fun e => [e.spawn] ++ (e.nested ++ e.polls) := rfl
  rw [List.flatMap_congr fun g _ => g.carried_eq, List.filterMap_eq_flatMap_toList,
    List.map_eq_flatMap]
  refine (List.flatMap_append_perm ..).symm.trans (.append_left _ ?_)
  rw [← List.flatMap_assoc, parts]
  refine (List.flatMap_append_perm ..).symm.trans (.append_left _ ?_)
  exact (List.flatMap_append_perm ..).symm

/-! ### Classes of roles -/

/-- A list falls apart into what one test accepts and what the other does, where none accepts what
the other does. -/
theorem filter_append_filter_perm {α : Type} {p q : α → Bool} (h : ∀ a, p a → q a = false)
    (l : List α) : (l.filter p ++ l.filter q).Perm (l.filter fun a => p a || q a) := by
  have hp : (l.filter fun a => p a || q a).filter p = l.filter p := by
    rw [List.filter_filter]
    exact List.filter_congr fun a _ => by cases p a <;> simp
  have hq : (l.filter fun a => p a || q a).filter (fun a => !p a) = l.filter q := by
    rw [List.filter_filter]
    exact List.filter_congr fun a _ => by cases hpa : p a <;> simp [hpa, h a]
  have split := List.filter_append_perm p (l.filter fun a => p a || q a)
  rwa [hp, hq] at split

namespace Role

/-- The event is a message. -/
def isMessage : Role → Bool
  | message => true
  | _ => false

/-- What passes one of several tests, of which no role passes two. -/
theorem Cast.flatMap_playing_perm (cast : Cast) {tests : List (Role → Bool)}
    (apart : tests.Pairwise fun t u => ∀ role, t role → u role = false) :
    (tests.flatMap cast.playing).Perm (cast.playing fun role => tests.any (· role)) := by
  induction tests with
  | nil => simp [playing]
  | cons t tests ih =>
    obtain ⟨ht, htests⟩ := List.pairwise_cons.mp apart
    have others : ∀ x : Placed × Role, t x.2 → tests.any (· x.2) = false := fun x hx =>
      List.any_eq_false.mpr fun u hu => by simp [ht u hu x.2 hx]
    rw [List.flatMap_cons]
    refine ((ih htests).append_left _).trans ?_
    simpa only [playing, List.map_append, List.any_cons] using
      (filter_append_filter_perm others cast).map (·.1)

/-- The classes of the roles that no result has: the messages, the spawns, and for each spawn what is
nested under it and what polls it. -/
def classes (spawns : List Spawn) : List (Role → Bool) :=
  [isMessage] ++ ([isSpawn] ++
    (spawns.map (fun s => isNestedUnder s.toolId) ++ spawns.map (fun s => isPollOf s.toolId)))

/-- No role is in two classes. -/
theorem classes_apart {spawns : List Spawn} (ids : (spawns.map (·.toolId)).Nodup) :
    (classes spawns).Pairwise fun t u => ∀ role, t role → u role = false := by
  have byId : spawns.Pairwise fun s t => s.toolId ≠ t.toolId := List.pairwise_map.mp ids
  simp only [classes, List.pairwise_append, List.pairwise_map, List.pairwise_singleton,
    List.mem_append, List.mem_singleton, List.mem_map, true_and]
  refine ⟨⟨⟨byId.imp ?_, byId.imp ?_, ?_⟩, ?_⟩, ?_⟩
  · rintro s t hne (_ | _ | _ | _ | _) <;> simp +contextual [isNestedUnder, hne]
  · rintro s t hne (_ | _ | _ | _ | _) <;> simp +contextual [isPollOf, hne]
  · rintro _ ⟨s, -, rfl⟩ _ ⟨t, -, rfl⟩ (_ | _ | _ | _ | _) <;> simp [isNestedUnder, isPollOf]
  · rintro _ rfl _ (⟨s, -, rfl⟩ | ⟨s, -, rfl⟩) (_ | _ | _ | _ | _) <;>
      simp [isSpawn, isNestedUnder, isPollOf]
  · rintro _ rfl _ (rfl | ⟨s, -, rfl⟩ | ⟨s, -, rfl⟩) (_ | _ | _ | _ | _) <;>
      simp [isMessage, isSpawn, isNestedUnder, isPollOf]

end Role

namespace Assembly.Fits

variable {options : Options} {events : List Placed} {a : Assembly} (h : a.Fits options events)
include h

/-- The messages of the groups. -/
theorem filterMap_message? : a.groups.filterMap Group.message? = a.cast.playing Role.isMessage := by
  rw [groups, List.filterMap_filterMap, Role.Cast.playing, ← List.filterMap_eq_filter,
    List.map_filterMap]
  refine List.filterMap_congr fun x hx => ?_
  obtain ⟨p, role⟩ := x
  cases role with
  | spawn s =>
    rw [h.groupAt?_spawn hx]
    cases a.clusterAt? (p, .spawn s) <;> simp [Role.isMessage, Option.guard]
  | result | nested | poll | message =>
    simp [groupAt?, Group.message?, Role.isMessage, Option.guard]

/-- The events that the groups carry, by what carries them. -/
theorem carried_perm_append : (a.groups.flatMap Group.carried).Perm
    (a.cast.playing Role.isMessage ++ (a.shown.map (·.call) ++
      (a.shown.flatMap (fun s => a.cast.nestedUnder s.toolId) ++
        a.shown.flatMap (fun s => a.cast.pollsOf s.toolId)))) := by
  refine (Group.flatMap_carried_perm a.groups).trans ?_
  rw [h.filterMap_message?, h.flatMap_entries, List.map_map, List.flatMap_map, List.flatMap_map]
  rfl

/-- Every role but that of a result is in a class. -/
theorem playing_any_classes :
    a.cast.playing (fun role => (Role.classes a.spawns).any (· role)) =
      events.filter fun p => !p.event.isResult := by
  conv_rhs => rw [← h.map_fst_cast, List.filter_map]
  refine congrArg _ (List.filter_congr fun x hx => ?_)
  obtain ⟨p, role⟩ := x
  obtain ⟨-, hrole⟩ := h.mem_cast_iff.mp hx
  cases role with
  | result =>
    simp [Role.ofPlaced_eq_result_iff.mp hrole, Role.classes, Role.isMessage, Role.isSpawn,
      Role.isNestedUnder, Role.isPollOf]
  | nested s =>
    obtain ⟨hres, hs⟩ := Role.ofPlaced_eq_nested_iff.mp hrole
    have hs := (h.discovered.nestedUnder?_eq_some_iff.mp hs).1
    simpa [hres, Role.classes, Role.isNestedUnder] using .inr (.inr (.inl ⟨s, hs, rfl⟩))
  | poll s =>
    obtain ⟨hres, -, hs⟩ := Role.ofPlaced_eq_poll_iff.mp hrole
    have hs := (h.discovered.pollOf?_eq_some_iff.mp hs).2.1
    simpa [hres, Role.classes, Role.isPollOf] using .inr (.inr (.inr ⟨s, hs, rfl⟩))
  | spawn s => simp [(Role.ofPlaced_eq_spawn_iff.mp hrole).1, Role.classes, Role.isSpawn]
  | message =>
    have hres : p.event.isResult = false := by
      refine Bool.eq_false_iff.mpr fun hres => ?_
      rw [Role.ofPlaced_eq_result_iff.mpr hres] at hrole
      cases hrole
    simp [hres, Role.classes, Role.isMessage]

variable (free : ∀ s ∈ a.spawns, Role.pollOf? options.pollTool a.spawns s.call = none)
include free

/-- Where no spawn polls, the spawns are the events that have the role of a spawn. -/
theorem map_call_perm : (a.spawns.map (·.call)).Perm (a.cast.playing Role.isSpawn) := by
  have nodup : (a.cast.playing Role.isSpawn).Nodup := by
    refine h.inOrder.nodup.sublist ?_
    rw [← h.map_fst_cast]
    exact List.filter_sublist.map _
  refine (List.perm_ext_iff_of_nodup (h.discovered.inOrder h.inOrder).nodup nodup).mpr fun p => ?_
  rw [Role.Cast.mem_playing_iff, List.mem_map]
  constructor
  · rintro ⟨s, hs, rfl⟩
    exact ⟨.spawn s, h.mem_cast_spawn_iff.mpr ⟨hs, rfl, free s hs⟩, rfl⟩
  · rintro ⟨role, hx, hrole⟩
    cases role with
    | spawn s => exact ⟨s, (h.mem_cast_spawn_iff.mp hx).1, (h.mem_cast_spawn_iff.mp hx).2.1⟩
    | result | nested | poll | message => cases hrole

/-- Where no spawn polls, the groups carry the events that are no results. -/
theorem carried_perm :
    (a.groups.flatMap Group.carried).Perm (events.filter fun p => !p.event.isResult) := by
  have shown := h.shown_perm free
  have byClass : (a.groups.flatMap Group.carried).Perm
      ((Role.classes a.spawns).flatMap a.cast.playing) := by
    refine h.carried_perm_append.trans ?_
    simp only [Role.classes, List.flatMap_append, List.flatMap_singleton, List.flatMap_map]
    refine .append_left _ (.append ?_ (.append (shown.flatMap_right _) (shown.flatMap_right _)))
    exact (shown.map _).trans (h.map_call_perm free)
  refine (byClass.trans (a.cast.flatMap_playing_perm (Role.classes_apart h.discovered.ids))).trans ?_
  exact .of_eq h.playing_any_classes

end Assembly.Fits

/-! ### Each event once -/

/-- A place is met once among events in order if an event stands there. -/
theorem Placed.InOrder.countP_position {l : List Placed} (h : InOrder l) (place : Nat) :
    l.countP (·.position == place) = if place ∈ l.map (·.position) then 1 else 0 := by
  rw [← h.nodup_positions.count, List.count, List.countP_map]
  rfl

/-- **Coverage**: if the two tools differ, the groups carry nothing but events of the session, each
event that is no result once, and no result. -/
theorem Assembly.carried_exactly_once (events : List Event) (results : ResultIndex)
    (options : Options) (hne : options.spawnTool ≠ options.pollTool) :
    let carried := (ofPlaced (Placed.ofEvents events) results options).groups.flatMap Group.carried
    (∀ p ∈ carried, events[p.position]? = some p.event) ∧
      ∀ place (_ : place < events.length),
        carried.countP (·.position == place) = if events[place].isResult then 0 else 1 := by
  intro carried
  have h := fits_ofPlaced (Placed.inOrder_ofEvents events) results options
  have perm := h.carried_perm fun s hs => h.discovered.pollOf?_call hs hne
  refine ⟨fun p hp => ?_, fun place hplace => ?_⟩
  · have hmem := perm.mem_iff.mp hp
    exact Placed.mem_ofEvents_iff.mp (List.mem_of_mem_filter hmem)
  · have some_iff : place ∈ ((Placed.ofEvents events).filter fun p => !p.event.isResult).map
        (·.position) ↔ events[place].isResult = false := by
      rw [List.mem_map]
      constructor
      · rintro ⟨p, hp, rfl⟩
        obtain ⟨hmem, hres⟩ := List.mem_filter.mp hp
        have hat := Placed.mem_ofEvents_iff.mp hmem
        rw [List.getElem?_eq_getElem hplace, Option.some.injEq] at hat
        simpa [hat] using hres
      · intro hres
        refine ⟨⟨place, events[place]⟩, List.mem_filter.mpr ⟨?_, by simp [hres]⟩, rfl⟩
        exact Placed.mem_ofEvents_iff.mpr (List.getElem?_eq_getElem hplace)
    rw [perm.countP_eq, (h.inOrder.sublist List.filter_sublist).countP_position]
    simp only [some_iff]
    cases events[place].isResult <;> rfl

/-- Two spawn calls that are each other's parents are carried once all the same. -/
theorem Assembly.carried_exactly_once_cyclic :
    let call (id task parent : String) (second : Int) : Event :=
      { kind := .toolCall, time := ⟨second, 0⟩,
        metadata :=
          { toolId := some id, toolName := some "Task", parentId := some parent,
            taskId := some task } }
    let events := [call "a" "b" "b" 0, call "b" "a" "a" 1, call "a" "" "" 2]
    let groups := (ofPlaced (Placed.ofEvents events) [] {}).groups
    "Task" ≠ "TaskOutput" ∧
      (groups.flatMap Group.carried).countP (·.position == 1) = 1 := by
  intro call events groups
  exact ⟨by decide, (carried_exactly_once events [] {} (by decide)).2 1 (by decide)⟩

/-! ### Spawns that poll -/

namespace Assembly.Fits

variable {options : Options} {events : List Placed} {a : Assembly} (h : a.Fits options events)
include h

/-- A spawn is the spawn of one entry if it is shown. -/
theorem countP_entries_eq_one_iff {s : Spawn} (hs : s ∈ a.spawns) :
    (a.groups.flatMap Group.entries).countP (·.spawn.position == s.call.position) = 1 ↔
      s ∈ a.shown := by
  have nodup : (a.shown.map (·.call.position)).Nodup :=
    h.nodup_shown.map_on fun s hs t ht =>
      h.call_inj (h.mem_spawns_of_mem_shown hs) (h.mem_spawns_of_mem_shown ht)
  have count : (a.groups.flatMap Group.entries).countP (·.spawn.position == s.call.position) =
      (a.shown.map (·.call.position)).count s.call.position := by
    rw [h.flatMap_entries, List.count, List.countP_map, List.countP_map]
    rfl
  rw [count]
  constructor
  · intro hone
    have hpos : s.call.position ∈ a.shown.map (·.call.position) :=
      List.count_pos_iff.mp (by rw [hone]; exact Nat.one_pos)
    obtain ⟨t, ht, hpos⟩ := List.mem_map.mp hpos
    exact h.call_inj (h.mem_spawns_of_mem_shown ht) hs hpos ▸ ht
  · exact fun hm => List.count_eq_one_of_mem nodup (List.mem_map_of_mem hm)

/-- Every spawn is shown once and never as a poll, if and only if no spawn polls. -/
theorem shown_once_iff :
    (∀ s ∈ a.spawns,
      (a.groups.flatMap Group.entries).countP (·.spawn.position == s.call.position) = 1 ∧
      ∀ e ∈ a.groups.flatMap Group.entries, ∀ p ∈ e.polls, p.position ≠ s.call.position) ↔
    ∀ s ∈ a.spawns, Role.pollOf? options.pollTool a.spawns s.call = none := by
  constructor
  · intro all s hs
    refine Option.eq_none_iff_forall_ne_some.mpr fun t hpoll => ?_
    have ht := (h.discovered.pollOf?_eq_some_iff.mp hpoll).2.1
    -- The polled spawn is shown, and its entry has the polling one among its polls.
    have hshown := (h.countP_entries_eq_one_iff ht).mp (all t ht).1
    have hrole := (h.discovered.ofPlaced_call_eq_poll_iff hs).mpr hpoll
    refine (all s hs).2 (a.entry t) ?_ s.call ?_ rfl
    · rw [h.flatMap_entries]
      exact List.mem_map_of_mem hshown
    · exact (h.mem_polls_iff ht).mpr ⟨h.discovered.call_mem hs, hrole⟩
  · intro free s hs
    refine ⟨(h.countP_entries_eq_one_iff hs).mpr ((h.shown_perm free).mem_iff.mpr hs), ?_⟩
    intro e he p hp hpos
    rw [h.flatMap_entries] at he
    obtain ⟨t, ht, rfl⟩ := List.mem_map.mp he
    obtain ⟨hmem, hrole⟩ := (h.mem_polls_iff (h.mem_spawns_of_mem_shown ht)).mp hp
    obtain rfl := h.inOrder.eq_of_position_eq hmem (h.discovered.call_mem hs) hpos
    have hpoll := (h.discovered.ofPlaced_call_eq_poll_iff hs).mp hrole
    rw [free s hs] at hpoll
    cases hpoll

end Assembly.Fits

/-- **When no spawn is lost**: every spawn is the spawn of one entry and a poll of none, unless the
two tools are one and a spawn has a task id that names a background spawn. -/
theorem Assembly.no_spawn_lost_iff (events : List Event) (results : ResultIndex)
    (options : Options) :
    let a := ofPlaced (Placed.ofEvents events) results options
    (∀ s ∈ a.spawns,
      (a.groups.flatMap Group.entries).countP (·.spawn.position == s.call.position) = 1 ∧
      ∀ e ∈ a.groups.flatMap Group.entries, ∀ p ∈ e.polls, p.position ≠ s.call.position) ↔
    ¬(options.spawnTool = options.pollTool ∧ ∃ s ∈ a.spawns, ∃ t ∈ a.spawns,
      t.call.event.metadata.runsInBackground ∧
        s.call.event.metadata.taskId? = some t.toolId) := by
  intro a
  have h : a.Fits options (Placed.ofEvents events) :=
    fits_ofPlaced (Placed.inOrder_ofEvents events) results options
  rw [h.shown_once_iff]
  constructor
  · rintro free ⟨heq, s, hs, t, ht, hback, htask⟩
    have hpoll : Role.pollOf? options.pollTool a.spawns s.call = some t :=
      h.discovered.pollOf?_eq_some_iff.mpr ⟨heq ▸ h.discovered.isCallOf hs, ht, hback, htask⟩
    rw [free s hs] at hpoll
    cases hpoll
  · intro hnot s hs
    refine Option.eq_none_iff_forall_ne_some.mpr fun t hpoll => hnot ?_
    obtain ⟨hcall, ht, hback, htask⟩ := h.discovered.pollOf?_eq_some_iff.mp hpoll
    exact ⟨Event.eq_of_isCallOf (h.discovered.isCallOf hs) hcall, s, hs, t, ht, hback, htask⟩

/-- If the two tools are one, a background spawn whose task id is its own id polls itself, and no
group shows it. -/
theorem Assembly.spawn_lost_that_polls_itself :
    let spawn : Event :=
      { kind := .toolCall, time := ⟨0, 0⟩,
        metadata :=
          { toolId := some "a", toolName := some "Task", taskId := some "a",
            background := some true } }
    let options : Options := { spawnTool := "Task", pollTool := "Task" }
    let a := ofPlaced (Placed.ofEvents [spawn]) [] options
    a.spawns.map (·.call.position) = [0] ∧
      (a.groups.flatMap Group.entries).countP (·.spawn.position == 0) = 0 := by
  decide +kernel

end AgentThreads
