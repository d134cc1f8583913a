import AgentThreads.Grouping.Spawn
import AgentThreads.Proofs.Grouping.Places
import Mathlib.Data.List.Induction

/-!
# Discovery of spawns

What the roster of a session holds, by induction on the spawn calls as they are entered: an id is
held by the first call that carries it. The rest of the theory of groupings knows the spawns only
by `Spawn.Discovered`.
-/

namespace AgentThreads

/-! ### Spawn calls -/

namespace Spawn

/-- The spawn calls among events. -/
def callsAmong (tool : String) (events : List Placed) : List Spawn :=
  events.filterMap (ofPlaced? tool)

theorem ofPlaced?_eq_some_iff {tool : String} {p : Placed} {s : Spawn} :
    ofPlaced? tool p = some s ↔
      p.event.isCallOf tool ∧ p.event.metadata.toolId? = some s.toolId ∧ s.call = p := by
  obtain ⟨call, toolId⟩ := s
  unfold ofPlaced?
  split
  · case isTrue h =>
    simp only [Option.map_eq_some_iff, mk.injEq, h, true_and]
    exact ⟨fun ⟨_, hid, hp, he⟩ => ⟨he ▸ hid, hp.symm⟩, fun ⟨hid, hp⟩ => ⟨_, hid, hp.symm, rfl⟩⟩
  · case isFalse h => simp [h]

theorem mem_callsAmong_iff {tool : String} {events : List Placed} {s : Spawn} :
    s ∈ callsAmong tool events ↔ s.call ∈ events ∧ ofPlaced? tool s.call = some s := by
  rw [callsAmong, List.mem_filterMap]
  constructor
  · rintro ⟨p, hp, h⟩
    obtain rfl := (ofPlaced?_eq_some_iff.mp h).2.2
    exact ⟨hp, h⟩
  · rintro ⟨hp, h⟩
    exact ⟨_, hp, h⟩

/-- Spawn calls stand as their events do. -/
theorem map_call_callsAmong_sublist (tool : String) (events : List Placed) :
    ((callsAmong tool events).map (·.call)).Sublist events := by
  induction events with
  | nil => exact .slnil
  | cons p events ih =>
    rw [callsAmong, List.filterMap_cons]
    cases h : ofPlaced? tool p with
    | none => exact ih.cons p
    | some s =>
      obtain rfl := (ofPlaced?_eq_some_iff.mp h).2.2
      exact ih.cons_cons s.call

/-- A spawn call is known by its place. -/
theorem eq_of_position_eq {tool : String} {events : List Placed} (ho : Placed.InOrder events)
    {s t : Spawn} (hs : s ∈ callsAmong tool events) (ht : t ∈ callsAmong tool events)
    (h : s.call.position = t.call.position) : s = t := by
  obtain ⟨hsm, hs⟩ := mem_callsAmong_iff.mp hs
  obtain ⟨htm, ht⟩ := mem_callsAmong_iff.mp ht
  rw [ho.eq_of_position_eq hsm htm h] at hs
  exact Option.some_inj.mp (hs.symm.trans ht)

/-- The spawn call is the first one with its id. -/
structure IsFirst (tool : String) (events : List Placed) (s : Spawn) : Prop where
  /-- It is a spawn call. -/
  mem : s ∈ callsAmong tool events
  /-- No spawn call with the id stands before it. -/
  le : ∀ t ∈ callsAmong tool events, t.toolId = s.toolId → s.call.position ≤ t.call.position

/-- An id has one first spawn call. -/
theorem IsFirst.eq {tool : String} {events : List Placed} {s t : Spawn}
    (hs : s.IsFirst tool events) (ht : t.IsFirst tool events) (ho : Placed.InOrder events)
    (h : s.toolId = t.toolId) : s = t := by
  refine eq_of_position_eq ho hs.mem ht.mem ?_
  have before := hs.le t ht.mem h.symm
  have after := ht.le s hs.mem h
  omega

end Spawn

/-! ### The roster -/

namespace Roster

/-- What a roster holds after some spawn calls. -/
structure Records (calls : List Spawn) (r : Roster) : Prop where
  /-- The calls that hold an id stand as they came. -/
  sublist : r.holders.Sublist calls
  /-- No two calls hold the same id. -/
  nodup : (r.holders.map (·.toolId)).Nodup
  /-- An id is held by the first call that carries it. -/
  holder : ∀ id, r.holder? id = calls.find? (·.toolId == id)
  /-- The calls that repeat an id are among the calls. -/
  later : ∀ x ∈ r.repeats, x.later ∈ calls

/-- Entering a call keeps the record. -/
theorem Records.enter {calls : List Spawn} {r : Roster} (h : Records calls r) (s : Spawn) :
    Records (calls ++ [s]) (r.enter s) := by
  have later : ∀ x ∈ r.repeats, x.later ∈ calls ++ [s] :=
    fun x hx => List.mem_append_left _ (h.later x hx)
  have find : ∀ id, (calls ++ [s]).find? (·.toolId == id) =
      (r.holder? id).or ([s].find? (·.toolId == id)) := fun id => by
    rw [List.find?_append, h.holder]
  unfold Roster.enter
  cases hs : r.holder? s.toolId with
  | some first =>
    refine ⟨h.sublist.trans (List.sublist_append_left ..), h.nodup, fun id => ?_, ?_⟩
    · rw [find]
      by_cases hid : s.toolId = id
      · subst hid
        exact hs.trans (by rw [hs, Option.some_or])
      · simp [holder?, hid]
    · intro x hx
      rcases List.mem_append.mp hx with hx | hx
      · exact later x hx
      · obtain rfl := List.mem_singleton.mp hx
        simp
  | none =>
    refine ⟨h.sublist.append (List.Sublist.refl _), ?_, fun id => ?_, later⟩
    · have new : s.toolId ∉ r.holders.map (·.toolId) := by
        rintro hm
        obtain ⟨t, ht, hid⟩ := List.mem_map.mp hm
        exact absurd (List.find?_eq_none.mp hs t ht) (by simp [hid])
      rw [List.map_append]
      exact List.nodup_append'.mpr ⟨h.nodup, by simp, by simpa using new⟩
    · rw [find, holder?, List.find?_append]
      rfl

theorem records_nil : Records [] {} :=
  ⟨.slnil, List.nodup_nil, fun _ => rfl, by simp⟩

theorem Records.foldl_enter {done : List Spawn} {r : Roster} (h : Records done r)
    (calls : List Spawn) : Records (done ++ calls) (calls.foldl Roster.enter r) := by
  induction calls generalizing done r with
  | nil => simpa using h
  | cons s calls ih => simpa using ih (h.enter s)

/-- Entering a call makes it a repeat if an earlier one carries its id. -/
theorem Records.mem_later_enter {calls : List Spawn} {r : Roster} (h : Records calls r)
    {s t : Spawn} : t ∈ (r.enter s).repeats.map (·.later) ↔
      t ∈ r.repeats.map (·.later) ∨ t = s ∧ ∃ u ∈ calls, u.toolId = s.toolId := by
  have held := h.holder s.toolId
  unfold Roster.enter
  cases hs : r.holder? s.toolId with
  | some first =>
    rw [hs] at held
    have earlier : ∃ u ∈ calls, u.toolId = s.toolId :=
      ⟨first, List.mem_of_find?_eq_some held.symm, by simpa using List.find?_some held.symm⟩
    simp [earlier]
  | none =>
    rw [hs] at held
    have fresh : ¬∃ u ∈ calls, u.toolId = s.toolId := by
      rintro ⟨u, hu, hid⟩
      exact absurd (List.find?_eq_none.mp held.symm u hu) (by simp [hid])
    simp [fresh]

/-- The repeats are the calls whose ids earlier calls carry. -/
theorem mem_later_foldl_enter {calls : List Spawn} (ho : Placed.InOrder (calls.map (·.call)))
    {s : Spawn} : s ∈ (calls.foldl enter {}).repeats.map (·.later) ↔
      s ∈ calls ∧ ∃ t ∈ calls, t.toolId = s.toolId ∧ t.call.position < s.call.position := by
  induction calls using List.reverseRecOn with
  | nil => simp
  | append_singleton calls u ih =>
    have records : Records calls (calls.foldl enter {}) := by
      simpa using Records.foldl_enter records_nil calls
    have before : ∀ t ∈ calls, t.call.position < u.call.position := by
      rw [List.map_append, Placed.InOrder, List.pairwise_append] at ho
      exact fun t ht => ho.2.2 _ (List.mem_map_of_mem ht) _ (by simp)
    rw [List.foldl_append, List.foldl_cons, List.foldl_nil, records.mem_later_enter,
      ih (ho.sublist ((List.sublist_append_left ..).map _))]
    constructor
    · rintro (⟨hs, t, ht, hid, hlt⟩ | ⟨rfl, t, ht, hid⟩)
      · exact ⟨List.mem_append_left _ hs, t, List.mem_append_left _ ht, hid, hlt⟩
      · exact ⟨by simp, t, List.mem_append_left _ ht, hid, before t ht⟩
    · rintro ⟨hs, t, ht, hid, hlt⟩
      rcases List.mem_append.mp hs with old | new <;> rcases List.mem_append.mp ht with old' | new'
      · exact .inl ⟨old, t, old', hid, hlt⟩
      · obtain rfl := List.mem_singleton.mp new'
        exact absurd (before s old) (by omega)
      · obtain rfl := List.mem_singleton.mp new
        exact .inr ⟨rfl, t, old', hid⟩
      · obtain rfl := List.mem_singleton.mp new
        obtain rfl := List.mem_singleton.mp new'
        exact absurd hlt (Nat.lt_irrefl _)

/-- What the roster of a session holds. -/
theorem records_ofPlaced (tool : String) (events : List Placed) :
    Records (Spawn.callsAmong tool events) (ofPlaced tool events) :=
  Records.foldl_enter records_nil _

theorem inOrder_callsAmong {tool : String} {events : List Placed} (ho : Placed.InOrder events) :
    Placed.InOrder ((Spawn.callsAmong tool events).map (·.call)) :=
  ho.sublist (Spawn.map_call_callsAmong_sublist tool events)

/-- The repeats of a session are the spawn calls whose ids earlier spawn calls carry. -/
theorem mem_later_iff {tool : String} {events : List Placed} (ho : Placed.InOrder events)
    {s : Spawn} : s ∈ (ofPlaced tool events).repeats.map (·.later) ↔
      s ∈ Spawn.callsAmong tool events ∧ ∃ t ∈ Spawn.callsAmong tool events,
        t.toolId = s.toolId ∧ t.call.position < s.call.position :=
  mem_later_foldl_enter (inOrder_callsAmong ho)

/-- The roster finds the first spawn call with an id. -/
theorem holder?_eq_some_iff {tool : String} {events : List Placed} (ho : Placed.InOrder events)
    {id : String} {s : Spawn} :
    (ofPlaced tool events).holder? id = some s ↔ s.IsFirst tool events ∧ s.toolId = id := by
  have ordered : (Spawn.callsAmong tool events).Pairwise fun u v =>
      u.call.position < v.call.position := by
    have order : Placed.InOrder ((Spawn.callsAmong tool events).map (·.call)) :=
      inOrder_callsAmong ho
    rwa [Placed.InOrder, List.pairwise_map] at order
  rw [(records_ofPlaced tool events).holder,
    find?_eq_some_iff_first (fun _ _ => Nat.lt_asymm) ordered]
  constructor
  · rintro ⟨hs, hid, hfirst⟩
    have hid : s.toolId = id := by simpa using hid
    refine ⟨⟨hs, fun t ht heq => ?_⟩, hid⟩
    rcases hfirst t ht (by simp [heq, hid]) with rfl | hlt
    · exact Nat.le_refl _
    · exact Nat.le_of_lt hlt
  · rintro ⟨hs, rfl⟩
    refine ⟨hs.mem, by simp, fun t ht heq => ?_⟩
    rcases Nat.eq_or_lt_of_le (hs.le t ht (by simpa using heq)) with hpos | hlt
    · exact .inl (Spawn.eq_of_position_eq ho ht hs.mem hpos.symm)
    · exact .inr hlt

/-- The roster finds nothing for an id that no spawn call carries. -/
theorem holder?_eq_none_iff {tool : String} {events : List Placed} {id : String} :
    (ofPlaced tool events).holder? id = none ↔
      ∀ p ∈ events, p.event.isCallOf tool → p.event.metadata.toolId? ≠ some id := by
  rw [(records_ofPlaced tool events).holder, List.find?_eq_none]
  constructor
  · intro none p hp hcall hid
    have hspawn : Spawn.ofPlaced? tool p = some ⟨p, id⟩ :=
      Spawn.ofPlaced?_eq_some_iff.mpr ⟨hcall, hid, rfl⟩
    exact none ⟨p, id⟩ (Spawn.mem_callsAmong_iff.mpr ⟨hp, hspawn⟩) (beq_self_eq_true id)
  · intro none s hs hid
    obtain ⟨hp, hspawn⟩ := Spawn.mem_callsAmong_iff.mp hs
    obtain ⟨hcall, htool, -⟩ := Spawn.ofPlaced?_eq_some_iff.mp hspawn
    exact none s.call hp hcall (beq_iff_eq.mp hid ▸ htool)

/-- An id is held by the first spawn call that carries it. -/
theorem mem_holders_iff {tool : String} {events : List Placed} (ho : Placed.InOrder events)
    {s : Spawn} : s ∈ (ofPlaced tool events).holders ↔ s.IsFirst tool events := by
  have key := find?_key_eq_some_iff (records_ofPlaced tool events).nodup (k := s.toolId) (a := s)
  rw [← holder?, holder?_eq_some_iff ho] at key
  simpa using key.symm

end Roster

/-! ### The spawns -/

/-- What the spawns of a session are: calls of the spawn tool that stand as their events do, no two
with the same id, none under another. -/
structure Spawn.Discovered (tool : String) (events : List Placed) (spawns : List Spawn) : Prop where
  /-- The spawns stand as their events do. -/
  sublist : (spawns.map (·.call)).Sublist events
  /-- A spawn is the spawn call that its event is. -/
  call : ∀ s ∈ spawns, ofPlaced? tool s.call = some s
  /-- No two spawns have the same id. -/
  ids : (spawns.map (·.toolId)).Nodup
  /-- A spawn is under no other spawn. -/
  top : ∀ s ∈ spawns, ∀ t ∈ spawns, s.call.event.metadata.parentId? = some t.toolId → t = s

/-- The spawns of a roster are discovered. -/
theorem Roster.discovered (tool : String) (events : List Placed) :
    Spawn.Discovered tool events (ofPlaced tool events).spawns := by
  have h := records_ofPlaced tool events
  have held : ∀ s ∈ (ofPlaced tool events).spawns, s ∈ (ofPlaced tool events).holders :=
    fun s hs => List.mem_of_mem_filter hs
  refine ⟨?_, fun s hs => ?_, ?_, fun s hs t ht hparent => ?_⟩
  · exact ((List.filter_sublist.trans h.sublist).map _).trans
      (Spawn.map_call_callsAmong_sublist tool events)
  · exact (Spawn.mem_callsAmong_iff.mp (h.sublist.subset (held s hs))).2
  · exact h.nodup.sublist (List.filter_sublist.map _)
  · have htop := (List.mem_filter.mp hs).2
    simp only [isTopLevel, hparent, Bool.or_eq_true, beq_iff_eq, Option.isNone_iff_eq_none] at htop
    rcases htop with hid | hnone
    · exact List.inj_on_of_nodup_map h.nodup (held t ht) (held s hs) hid
    · exact absurd (List.find?_eq_none.mp hnone t (held t ht)) (by simp)

namespace Spawn.Discovered

variable {tool : String} {events : List Placed} {spawns : List Spawn}

theorem call_mem (h : Discovered tool events spawns) {s : Spawn} (hs : s ∈ spawns) :
    s.call ∈ events :=
  h.sublist.subset (List.mem_map_of_mem hs)

theorem isCallOf (h : Discovered tool events spawns) {s : Spawn} (hs : s ∈ spawns) :
    s.call.event.isCallOf tool :=
  (ofPlaced?_eq_some_iff.mp (h.call s hs)).1

/-- A search by id finds the spawn with that id. -/
theorem find?_toolId_iff (h : Discovered tool events spawns) {id : String} {s : Spawn} :
    spawns.find? (·.toolId == id) = some s ↔ s ∈ spawns ∧ s.toolId = id :=
  find?_key_eq_some_iff h.ids

variable (h : Discovered tool events spawns) (ho : Placed.InOrder events)
include h ho

theorem inOrder : Placed.InOrder (spawns.map (·.call)) :=
  ho.sublist h.sublist

theorem nodup : spawns.Nodup :=
  (h.inOrder ho).nodup.of_map _

/-- A search by place finds the spawn whose call stands there. -/
theorem find?_position_iff {p : Placed} (hp : p ∈ events) {s : Spawn} :
    spawns.find? (·.call.position == p.position) = some s ↔ s ∈ spawns ∧ s.call = p := by
  have hn : (spawns.map fun s => s.call.position).Nodup := by
    simpa [Function.comp_def] using (h.inOrder ho).nodup_positions
  rw [find?_key_eq_some_iff hn]
  refine and_congr_right fun hs => ⟨fun heq => ?_, fun heq => by rw [heq]⟩
  exact ho.eq_of_position_eq (h.call_mem hs) hp heq

end Spawn.Discovered

end AgentThreads
