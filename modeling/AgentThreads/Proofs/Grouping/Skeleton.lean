import AgentThreads.Proofs.Grouping.Interleaving

/-!
# Skeletons

What tool results do to a grouping. An index gives the results of the calls and, with them, the last
poll statuses; what is left of a group without these is its skeleton, which no index touches. The
results among the events have no place of their own and belong to no spawn, whatever ids they carry,
so a session without them has the same groups.
-/

namespace AgentThreads

/-! ### What an index gives -/

/-- The entry without what an index of results gives. -/
def Entry.skeleton (e : Entry) : Entry :=
  { e with result := none, lastPollStatus := none }

/-- The group without what an index of results gives. -/
def Group.skeleton : Group → Group
  | message event _ => message event none
  | subagent entry => subagent entry.skeleton
  | parallel entries => parallel (entries.map Entry.skeleton)

@[simp] theorem Group.skeleton_withResults (results : ResultIndex) (repeats : Placed → Bool)
    (g : Group) : (g.withResults results repeats).skeleton = g.skeleton := by
  cases g with
  | message | subagent => rfl
  | parallel entries => simp [withResults, skeleton, Entry.skeleton, Entry.withResults]

/-- The skeletons are the same with every index. -/
theorem Assembly.map_skeleton_groups (events : List Placed) (results results' : ResultIndex)
    (options : Options) :
    (ofPlaced events results options).groups.map Group.skeleton =
      (ofPlaced events results' options).groups.map Group.skeleton := by
  have bare (index : ResultIndex) : (ofPlaced events index options).groups.map Group.skeleton =
      (ofPlaced events [] options).groups.map Group.skeleton := by
    rw [groups_withResults, List.map_map]
    exact List.map_congr_left fun g _ => Group.skeleton_withResults ..
  rw [bare results, bare results']

/-! ### Results among the events -/

/-- The events that are no results. -/
def Placed.withoutResults (events : List Placed) : List Placed :=
  events.filter fun p => !p.event.isResult

theorem Placed.map_event_withoutResults (events : List Event) :
    (withoutResults (ofEvents events)).map (·.event) = events.filter fun e => !e.isResult := by
  conv_rhs => rw [← map_event_ofEvents events, List.filter_map]
  rfl

theorem Placed.withoutResults_sublist (events : List Placed) :
    (withoutResults events).Sublist events :=
  List.filter_sublist

/-- A result spawns nothing. -/
theorem Spawn.ofPlaced?_eq_none {tool : String} {p : Placed} (h : p.event.isResult) :
    ofPlaced? tool p = none := by
  refine Option.eq_none_iff_forall_ne_some.mpr fun s hs => ?_
  have call := Event.isResult_eq_false_of_isCallOf (ofPlaced?_eq_some_iff.mp hs).1
  rw [h] at call
  cases call

/-- Results are not on the roster, even if they carry the ids of spawn calls. -/
theorem Roster.ofPlaced_withoutResults (tool : String) (events : List Placed) :
    ofPlaced tool (Placed.withoutResults events) = ofPlaced tool events := by
  unfold ofPlaced Placed.withoutResults
  rw [List.filterMap_filter]
  congr 1
  refine List.filterMap_congr fun p _ => ?_
  cases h : p.event.isResult with
  | true => simp [Spawn.ofPlaced?_eq_none h]
  | false => simp

namespace Assembly

variable (events : List Placed) (results : ResultIndex) (options : Options)

/-- Every other event keeps its role. -/
theorem cast_withoutResults : (ofPlaced (Placed.withoutResults events) results options).cast =
    Role.assign options.pollTool (ofPlaced events results options).spawns
      (Placed.withoutResults events) := by
  change Role.assign _ (Roster.ofPlaced _ _).spawns _ = _
  rw [Roster.ofPlaced_withoutResults]
  rfl

/-- What is picked from the cast by a test that no result passes. -/
theorem playing_withoutResults (test : Role → Bool) (htest : test .result = false) :
    (ofPlaced (Placed.withoutResults events) results options).cast.playing test =
      (ofPlaced events results options).cast.playing test := by
  rw [cast_withoutResults, Role.playing_assign, Placed.withoutResults, List.filter_filter]
  refine Eq.trans (List.filter_congr fun p _ => ?_) (Role.playing_assign ..).symm
  cases h : p.event.isResult with
  | true => simp [Role.ofPlaced_eq_result_iff.mpr h, htest]
  | false =>
    simp only [Bool.not_false, Bool.and_true]
    rfl

theorem agrees_withoutResults :
    (ofPlaced (Placed.withoutResults events) results options).Agrees
      (ofPlaced events results options) where
  repeats := congrArg Roster.repeats (Roster.ofPlaced_withoutResults ..)
  clusters := congrArg (fun r : Roster => Cluster.ofSpawns options.thresholdMs r.spawns)
    (Roster.ofPlaced_withoutResults ..)
  results := rfl
  isSpawnAt := by
    funext position
    rw [Bool.eq_iff_iff, isSpawnAt, isSpawnAt, List.any_eq_true, List.any_eq_true,
      cast_withoutResults]
    constructor
    · rintro ⟨x, hx, htest⟩
      exact ⟨x, List.Sublist.subset ((Placed.withoutResults_sublist events).map _) hx, htest⟩
    · rintro ⟨⟨p, role⟩, hx, htest⟩
      obtain ⟨q, hq, heq⟩ := List.mem_map.mp hx
      refine ⟨(p, role), List.mem_map.mpr ⟨q, ?_, heq⟩, htest⟩
      obtain ⟨rfl, rfl⟩ := Prod.mk.inj heq
      rw [Placed.withoutResults, List.mem_filter]
      refine ⟨hq, ?_⟩
      cases h : q.event.isResult with
      | true => simp [Role.ofPlaced_eq_result_iff.mpr h, Role.isSpawn] at htest
      | false => rfl
  nested := by
    funext toolId
    exact playing_withoutResults events results options (Role.isNestedUnder toolId) rfl
  polls := by
    funext toolId
    exact playing_withoutResults events results options (Role.isPollOf toolId) rfl

/-- A session without its results has the same groups, if each event is known by the place that it
had. -/
theorem groups_withoutResults :
    (ofPlaced (Placed.withoutResults events) results options).groups =
      (ofPlaced events results options).groups := by
  rw [groups, (agrees_withoutResults events results options).groupAt?_eq, cast_withoutResults,
    Role.assign, List.filterMap_map, Placed.withoutResults, List.filterMap_filter]
  refine Eq.trans (List.filterMap_congr fun p _ => ?_) List.filterMap_map.symm
  cases h : p.event.isResult with
  | true => simp [Role.ofPlaced_eq_result_iff.mpr h, groupAt?]
  | false =>
    simp only [Bool.not_false, if_true]
    rfl

/-- **Skeletons**: a session whose results are removed has, if each event is known by the place at
which it stood before, groups with the same skeletons in the same order, whatever the two indices of
results are; with the same index it has the same groups. -/
theorem groups_of_results_removed (events : List Event) (results results' : ResultIndex)
    (options : Options) :
    let kept := Placed.withoutResults (Placed.ofEvents events)
    let removed (index : ResultIndex) :=
      (ofPlaced (Placed.ofEvents (events.filter fun e => !e.isResult)) index options).groups.map
        (Group.moveTo (Placed.origin kept))
    (removed results').map Group.skeleton =
        (ofPlaced (Placed.ofEvents events) results options).groups.map Group.skeleton ∧
      removed results = (ofPlaced (Placed.ofEvents events) results options).groups := by
  intro kept removed
  have nodup : (kept.map (·.position)).Nodup :=
    ((Placed.inOrder_ofEvents events).sublist (Placed.withoutResults_sublist _)).nodup_positions
  have same (index : ResultIndex) :
      removed index = (ofPlaced (Placed.ofEvents events) index options).groups := by
    show List.map _ _ = _
    rw [← Placed.map_event_withoutResults, ← groups_moveTo (Placed.origin_inj nodup),
      Placed.map_moveTo_origin]
    exact groups_withoutResults _ index options
  refine ⟨?_, same results⟩
  rw [same results']
  exact map_skeleton_groups _ results' results options

end Assembly

end AgentThreads
