import AgentThreads.Proofs.Grouping.Relocation

/-!
# Interleaving

How the threads of a session interleave does not matter to its groups. A thread is what stands at the
top level, what is nested under one spawn, or what polls one spawn. Events may be rearranged as long
as each thread keeps its order and so do the spawn calls, for these decide which call holds an id and
which spawn is the anchor of a cluster. Results may stand anywhere.
-/

namespace AgentThreads

/-- The threads of a session. A spawn is known by its tool id, which no other spawn has. -/
inductive Thread where
  /-- The top level. -/
  | top
  /-- What is nested under a spawn. -/
  | nested (toolId : String)
  /-- What polls a spawn. -/
  | polls (toolId : String)
  deriving DecidableEq

/-- The thread of an event with a role. A result is in no thread. -/
def Role.thread? : Role → Option Thread
  | result => none
  | nested under => some (.nested under.toolId)
  | poll about => some (.polls about.toolId)
  | spawn _ => some .top
  | message => some .top

/-- The thread of an event among the spawns of a session. -/
def Placed.thread? (options : Options) (spawns : List Spawn) (p : Placed) : Option Thread :=
  (Role.ofPlaced options.pollTool spawns p).thread?

/-- The events are in one thread, or both are spawn calls. -/
def Placed.Tied (options : Options) (spawns : List Spawn) (p q : Placed) : Prop :=
  (p.thread? options spawns = q.thread? options spawns ∧ (p.thread? options spawns).isSome) ∨
    ((Spawn.ofPlaced? options.spawnTool p).isSome ∧ (Spawn.ofPlaced? options.spawnTool q).isSome)

instance (options : Options) (spawns : List Spawn) (p q : Placed) :
    Decidable (p.Tied options spawns q) :=
  inferInstanceAs (Decidable (_ ∨ _))

theorem Placed.Tied.of_thread {options : Options} {spawns : List Spawn} {p q : Placed}
    {thread : Thread} (hp : p.thread? options spawns = some thread)
    (hq : q.thread? options spawns = some thread) : p.Tied options spawns q :=
  .inl ⟨hp.trans hq.symm, by simp [hp]⟩

/-- The events of a session in another order, in which those that are tied stand as before. -/
structure Placed.Rearranges (options : Options) (events rearranged : List Placed) : Prop where
  /-- They are the same events. -/
  perm : rearranged.Perm events
  /-- Tied events stand as before. -/
  kept : rearranged.Pairwise fun p q =>
    Tied options (Roster.ofPlaced options.spawnTool events).spawns p q → p.position < q.position

/-! ### Passes that see tied events only -/

namespace Placed.Rearranges

variable {options : Options} {events rearranged : List Placed}
  (h : Rearranges options events rearranged) (ho : InOrder events)
include h ho

/-- A test that only tied events pass finds the same events in the same order. -/
theorem filter_eq {test : Placed → Bool} (tied : ∀ p q, test p → test q →
      Tied options (Roster.ofPlaced options.spawnTool events).spawns p q) :
    rearranged.filter test = events.filter test := by
  have before : (events.filter test).Pairwise fun p q => p.position < q.position :=
    ho.sublist List.filter_sublist
  have after : (rearranged.filter test).Pairwise fun p q => p.position < q.position := by
    refine (h.kept.sublist List.filter_sublist).imp_of_mem fun {p q} hp hq hkept => ?_
    exact hkept (tied p q (List.mem_filter.mp hp).2 (List.mem_filter.mp hq).2)
  -- A list that is ordered by place is determined by its elements.
  refine List.Perm.eq_of_pairwise ?_ after before (h.perm.filter test)
  exact fun p q _ _ hlt hgt => absurd hlt (Nat.lt_asymm hgt)

theorem filterMap_eq {α : Type} {pass : Placed → Option α}
    (tied : ∀ p q, (pass p).isSome → (pass q).isSome →
      Tied options (Roster.ofPlaced options.spawnTool events).spawns p q) :
    rearranged.filterMap pass = events.filterMap pass := by
  have picked (l : List Placed) :
      l.filterMap pass = (l.filter fun p => (pass p).isSome).filterMap pass := by
    rw [List.filterMap_filter]
    refine List.filterMap_congr fun p _ => ?_
    cases pass p <;> rfl
  rw [picked, picked events, h.filter_eq ho tied]

/-- The spawn calls are the same, so they are entered alike. -/
theorem roster_eq :
    Roster.ofPlaced options.spawnTool rearranged = Roster.ofPlaced options.spawnTool events := by
  unfold Roster.ofPlaced
  rw [h.filterMap_eq ho fun p q hp hq => .inr ⟨hp, hq⟩]

end Placed.Rearranges

namespace Role

theorem thread?_of_isNestedUnder {toolId : String} {role : Role} (h : role.isNestedUnder toolId) :
    role.thread? = some (.nested toolId) := by
  cases role with
  | nested s => simpa [isNestedUnder, thread?] using h
  | result | poll | spawn | message => cases h

theorem thread?_of_isPollOf {toolId : String} {role : Role} (h : role.isPollOf toolId) :
    role.thread? = some (.polls toolId) := by
  cases role with
  | poll s => simpa [isPollOf, thread?] using h
  | result | nested | spawn | message => cases h

/-- Groups stand at the top level only. -/
theorem thread?_of_groupAt? {a : Assembly} {p : Placed} {role : Role}
    (h : (a.groupAt? (p, role)).isSome) : role.thread? = some .top := by
  cases role with
  | spawn | message => rfl
  | result | nested | poll => cases h

/-- The events whose role passes a test, where each event has been given its role. -/
theorem playing_assign (pollTool : String) (spawns : List Spawn) (events : List Placed)
    (test : Role → Bool) :
    (assign pollTool spawns events).playing test =
      events.filter fun p => test (ofPlaced pollTool spawns p) := by
  rw [assign, Cast.playing, List.filter_map, List.map_map]
  exact List.map_id _

end Role

namespace Assembly

/-! ### Assemblies that agree -/

/-- Two assemblies that give each event with its role the same group. -/
structure Agrees (a b : Assembly) : Prop where
  /-- They know the same repeats. -/
  repeats : a.repeats = b.repeats
  /-- They have the same clusters. -/
  clusters : a.clusters = b.clusters
  /-- They find the same results. -/
  results : a.results = b.results
  /-- The same events have the role of a spawn. -/
  isSpawnAt : a.isSpawnAt = b.isSpawnAt
  /-- The same events are nested under a spawn. -/
  nested : a.cast.nestedUnder = b.cast.nestedUnder
  /-- The same events poll a spawn. -/
  polls : a.cast.pollsOf = b.cast.pollsOf

namespace Agrees

variable {a b : Assembly} (h : a.Agrees b)
include h

theorem entry_eq : a.entry = b.entry := by
  funext s
  unfold entry
  rw [h.nested, h.polls, h.results]

theorem groupAt?_eq : a.groupAt? = b.groupAt? := by
  funext ⟨p, role⟩
  cases role with
  | message => rw [groupAt?, groupAt?, isRepeat, isRepeat, h.repeats, h.results]
  | spawn s =>
    have group : a.clusterGroup? = b.clusterGroup? := by
      funext s c
      unfold clusterGroup? leader?
      rw [h.isSpawnAt, h.entry_eq]
    rw [groupAt?, groupAt?, h.clusters, group]
  | result | nested | poll => rfl

end Agrees

/-! ### Rearranged sessions -/

section Rearranged

variable {options : Options} {events rearranged : List Placed}
  (h : Placed.Rearranges options events rearranged) (ho : Placed.InOrder events)
  (results : ResultIndex)
include h ho

/-- Every event keeps its role. -/
theorem cast_of_rearranges : (ofPlaced rearranged results options).cast =
    Role.assign options.pollTool (ofPlaced events results options).spawns rearranged := by
  change Role.assign _ (Roster.ofPlaced _ _).spawns _ = _
  rw [h.roster_eq ho]
  rfl

/-- What is picked from the cast by a test that only one thread passes. -/
theorem playing_of_rearranges {thread : Thread} {test : Role → Bool}
    (htest : ∀ {role : Role}, test role → role.thread? = some thread) :
    (ofPlaced rearranged results options).cast.playing test =
      (ofPlaced events results options).cast.playing test := by
  rw [cast_of_rearranges h ho, Role.playing_assign]
  refine (h.filter_eq ho fun p q hp hq => ?_).trans (Role.playing_assign ..).symm
  exact .of_thread (htest hp) (htest hq)

theorem agrees_of_rearranges :
    (ofPlaced rearranged results options).Agrees (ofPlaced events results options) where
  repeats := congrArg Roster.repeats (h.roster_eq ho)
  clusters := congrArg (fun r : Roster => Cluster.ofSpawns options.thresholdMs r.spawns)
    (h.roster_eq ho)
  results := rfl
  isSpawnAt := by
    funext position
    rw [isSpawnAt, cast_of_rearranges h ho]
    exact (h.perm.map _).any_eq
  nested := by
    funext toolId
    exact playing_of_rearranges h ho results Role.thread?_of_isNestedUnder
  polls := by
    funext toolId
    exact playing_of_rearranges h ho results Role.thread?_of_isPollOf

/-- A rearranged session has the same groups, if each event is known by the place that it had. -/
theorem groups_of_rearranges :
    (ofPlaced rearranged results options).groups = (ofPlaced events results options).groups := by
  rw [groups, (agrees_of_rearranges h ho results).groupAt?_eq, cast_of_rearranges h ho, Role.assign,
    List.filterMap_map]
  refine (h.filterMap_eq ho fun p q hp hq => ?_).trans List.filterMap_map.symm
  exact .of_thread (Role.thread?_of_groupAt? hp) (Role.thread?_of_groupAt? hq)

end Rearranged

end Assembly

/-! ### New places -/

namespace Placed

/-- The place at which an event stood before it was moved to a place of the rearranged session. -/
def origin (rearranged : List Placed) (place : Nat) : Nat :=
  (rearranged[place]?.map (·.position)).getD place

/-- The rearranged session at its new places, with each event moved back to where it stood. -/
theorem map_moveTo_origin (rearranged : List Placed) :
    (ofEvents (rearranged.map (·.event))).map (moveTo (origin rearranged)) = rearranged := by
  refine List.ext_getElem (by simp [ofEvents]) fun i hi hi' => ?_
  simp [ofEvents, moveTo, origin, hi']

theorem origin_inj {rearranged : List Placed} (nodup : (rearranged.map (·.position)).Nodup) :
    ∀ p ∈ ofEvents (rearranged.map (·.event)), ∀ q ∈ ofEvents (rearranged.map (·.event)),
      origin rearranged p.position = origin rearranged q.position → p.position = q.position := by
  intro p hp q hq heq
  have origins : (ofEvents (rearranged.map (·.event))).map (fun p => origin rearranged p.position) =
      rearranged.map (·.position) := by
    conv_rhs => rw [← map_moveTo_origin rearranged, List.map_map]
    rfl
  rw [← origins] at nodup
  rw [List.inj_on_of_nodup_map nodup hp hq heq]

end Placed

/-- **Interleaving**: a session whose events are rearranged, such that each thread keeps its order and
so do the spawn calls, has the same groups in the same order, with the same events in them, if each
event is known by the place at which it stood before. -/
theorem Assembly.groups_of_interleaving (events : List Event) (results : ResultIndex)
    (options : Options) (rearranged : List Placed)
    (h : Placed.Rearranges options (Placed.ofEvents events) rearranged) :
    (ofPlaced (Placed.ofEvents (rearranged.map (·.event))) results options).groups.map
        (Group.moveTo (Placed.origin rearranged)) =
      (ofPlaced (Placed.ofEvents events) results options).groups := by
  have inOrder := Placed.inOrder_ofEvents events
  have nodup := (h.perm.map (·.position)).nodup_iff.mpr inOrder.nodup_positions
  rw [← groups_moveTo (Placed.origin_inj nodup), Placed.map_moveTo_origin]
  exact groups_of_rearranges h inOrder results

/-- Two subagents, of which one runs in the background. What belongs to the one moves in front of its
spawn, and what belongs to the other moves behind the message, as does a result. -/
theorem Assembly.groups_of_interleaving_two_subagents :
    let call (tool id parent task : String) : Event :=
      { kind := .toolCall, time := ⟨0, 0⟩,
        metadata :=
          { toolId := some id, toolName := some tool, parentId := some parent, taskId := some task,
            background := some true } }
    let message : Event := { kind := .message, time := ⟨0, 0⟩ }
    let result : Event :=
      { kind := .toolResult, time := ⟨0, 0⟩, metadata := { toolId := some "p" } }
    let events :=
      [call "Task" "a" "" "", call "Task" "b" "" "", call "Read" "c" "b" "", call "Read" "d" "a" "",
        call "TaskOutput" "p" "" "a", result, message]
    let index := ResultIndex.ofPlaced (Placed.ofEvents events)
    let rearranged := [3, 0, 1, 6, 5, 4, 2].map fun i => Placed.mk i (events.getD i message)
    Placed.Rearranges {} (Placed.ofEvents events) rearranged ∧
      (ofPlaced (Placed.ofEvents (rearranged.map (·.event))) index {}).groups.map
          (Group.moveTo (Placed.origin rearranged)) =
        (ofPlaced (Placed.ofEvents events) index {}).groups := by
  intro call message result events index rearranged
  have perm : rearranged.Perm (Placed.ofEvents events) :=
    List.Perm.map (fun i => Placed.mk i (events.getD i message))
      (show [3, 0, 1, 6, 5, 4, 2].Perm [0, 1, 2, 3, 4, 5, 6] by decide)
  have h : Placed.Rearranges {} (Placed.ofEvents events) rearranged := ⟨perm, by decide +kernel⟩
  exact ⟨h, groups_of_interleaving events index {} rearranged h⟩

end AgentThreads
