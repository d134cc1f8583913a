import AgentThreads.Proofs.Grouping.Contents
import AgentThreads.Proofs.Grouping.StreamOrder
import Mathlib.Data.List.Sort

/-!
# Insertion

A session into which one event is put, that is no result and no spawn call, changes in one place. The
spawns and their clusters stay, so every other event keeps its role. The event joins the nested events
or the polls of one entry, or it becomes a message of its own between the groups before it and those
behind it.
-/

namespace AgentThreads

/-! ### Room for an event -/

namespace Placed

/-- The place that an event has after another one has been put at a place. -/
def makeRoom (place position : Nat) : Nat :=
  if position < place then position else position + 1

/-- Puts an event among others that stand in order. -/
def insertInto (p : Placed) (events : List Placed) : List Placed :=
  events.orderedInsert (fun q r => q.position ≤ r.position) p

theorem insertInto_append {p : Placed} {before after : List Placed}
    (hbefore : ∀ q ∈ before, q.position < p.position)
    (hafter : ∀ q ∈ after, p.position < q.position) :
    p.insertInto (before ++ after) = before ++ p :: after := by
  induction before with
  | nil =>
    cases after with
    | nil => rfl
    | cons q after =>
      have hq : p.position ≤ q.position := Nat.le_of_lt (hafter q List.mem_cons_self)
      simp [insertInto, hq]
  | cons q before ih =>
    have hq : ¬p.position ≤ q.position := Nat.not_le_of_lt (hbefore q List.mem_cons_self)
    have rest := ih fun r hr => hbefore r (List.mem_cons_of_mem q hr)
    unfold insertInto at rest ⊢
    simp [hq, rest]

/-- What a test finds when one more event stands among the others. -/
theorem InOrder.filter_insert {p : Placed} {before after : List Placed}
    (ho : InOrder (before ++ p :: after)) (test : Placed → Bool) :
    (before ++ p :: after).filter test =
      if test p then p.insertInto ((before ++ after).filter test)
      else (before ++ after).filter test := by
  obtain ⟨-, hafter, hbefore⟩ := List.pairwise_append.mp ho
  by_cases htest : test p
  · rw [if_pos htest, List.filter_append, List.filter_append, List.filter_cons_of_pos htest,
      insertInto_append]
    · intro q hq
      exact hbefore q (List.mem_of_mem_filter hq) p List.mem_cons_self
    · intro q hq
      exact (List.pairwise_cons.mp hafter).1 q (List.mem_of_mem_filter hq)
  · rw [if_neg htest, List.filter_append, List.filter_append, List.filter_cons_of_neg htest]

/-- The events of a session with one more event. -/
theorem ofEvents_insert (before after : List Event) (e : Event) :
    ofEvents (before ++ e :: after) =
      ofEvents before ++ ⟨before.length, e⟩ :: (ofEvents after).map (shift (before.length + 1)) := by
  have head : ofEvents (e :: after) = ⟨0, e⟩ :: (ofEvents after).map (shift 1) :=
    ofEvents_append [e] after
  rw [ofEvents_append, head, List.map_cons, List.map_map]
  congr 2
  · simp [shift]
  · apply List.map_congr_left
    intro q _
    simp only [Function.comp_apply, shift, Nat.add_assoc, Nat.add_comm 1]

/-- The events of a session, with room for one more. -/
theorem map_makeRoom_ofEvents (before after : List Event) :
    (ofEvents (before ++ after)).map (moveTo (makeRoom before.length)) =
      ofEvents before ++ (ofEvents after).map (shift (before.length + 1)) := by
  rw [ofEvents_append, List.map_append, List.map_map]
  congr 1
  · conv_rhs => rw [← List.map_id (ofEvents before)]
    apply List.map_congr_left
    intro q hq
    have hlt : q.position < before.length :=
      (List.getElem?_eq_some_iff.mp (mem_ofEvents_iff.mp hq)).1
    simp [moveTo, makeRoom, hlt]
  · apply List.map_congr_left
    intro q _
    have hle : ¬q.position + before.length < before.length := by omega
    simp [moveTo, makeRoom, shift, hle, Nat.add_assoc]

theorem makeRoom_inj {place i j : Nat} (h : makeRoom place i = makeRoom place j) : i = j := by
  unfold makeRoom at h
  split at h <;> split at h <;> omega

end Placed

/-- The spawns of events that are moved to other places. -/
theorem Roster.spawns_moveTo {place : Nat → Nat} {events : List Placed}
    (apart : ∀ p ∈ events, ∀ q ∈ events, place p.position = place q.position →
      p.position = q.position) (options : Options) :
    (ofPlaced options.spawnTool (events.map (Placed.moveTo place))).spawns =
      (ofPlaced options.spawnTool events).spawns.map fun s => ⟨s.call.moveTo place, s.toolId⟩ := by
  have rosters := Matching.roster_ofPlaced (Matching.relocate_events options apart)
  symm
  apply map_eq_of_forall₂ (Matching.rel_spawns rosters)
  rintro ⟨call, id⟩ ⟨call', id'⟩ ⟨⟨-, hcall⟩, hid, -⟩
  exact congrArg₂ Spawn.mk hcall hid

/-- The event is a call of the poll tool that asks about a spawn in the background. -/
def Event.asksAbout (pollTool : String) (s : Spawn) (e : Event) : Prop :=
  e.isCallOf pollTool ∧ s.call.event.metadata.runsInBackground ∧
    e.metadata.taskId? = some s.toolId

instance (pollTool : String) (s : Spawn) (e : Event) : Decidable (e.asksAbout pollTool s) :=
  inferInstanceAs (Decidable (_ ∧ _))

/-! ### Entries that change -/

namespace Entry

/-- The entry of a spawn with these nested events and polls. -/
def ofParts (results : ResultIndex) (s : Spawn) (nested polls : List Placed) : Entry where
  spawn := s.call
  result := results.resultOf s.call.event
  nested
  polls
  lastPollStatus := do
    let poll ← polls.getLast?
    let result ← results.resultOf poll.event
    result.event.metadata.status

theorem entry_eq_ofParts (a : Assembly) (s : Spawn) : a.entry s =
    ofParts a.results s (a.cast.nestedUnder s.toolId) (a.cast.pollsOf s.toolId) :=
  rfl

/-- The entry is that of the spawn with a tool id. -/
def isOf (toolId : String) (e : Entry) : Bool :=
  e.spawn.event.metadata.toolId? == some toolId

/-- The entry with one more event nested in it. -/
def addNested (p : Placed) (e : Entry) : Entry :=
  { e with nested := p.insertInto e.nested }

/-- The entry with one more poll, and the status that the last of its polls now gives. -/
def addPoll (results : ResultIndex) (p : Placed) (e : Entry) : Entry :=
  let polls := p.insertInto e.polls
  { e with
    polls
    lastPollStatus := do
      let poll ← polls.getLast?
      let result ← results.resultOf poll.event
      result.event.metadata.status }

/-- The entry after an event with a role has come to the session. -/
def takeIn (results : ResultIndex) (p : Placed) (role : Role) (e : Entry) : Entry :=
  match role with
  | .nested s => if e.isOf s.toolId then e.addNested p else e
  | .poll s => if e.isOf s.toolId then e.addPoll results p else e
  | _ => e

end Entry

namespace Group

/-- The group with each of its entries changed. -/
def mapEntries (change : Entry → Entry) : Group → Group
  | message event result => message event result
  | subagent entry => subagent (change entry)
  | parallel entries => parallel (entries.map change)

/-- The group with the entry of one spawn changed, if it has it. -/
def amend (toolId : String) (change : Entry → Entry) : Group → Group :=
  mapEntries fun e => if e.isOf toolId then change e else e

theorem mapEntries_id (g : Group) : g.mapEntries id = g := by
  cases g with
  | message | subagent => rfl
  | parallel entries => rw [mapEntries, List.map_id]

end Group

namespace Assembly

/-- The second assembly differs from the first in its entries only. -/
structure Revises (change : Entry → Entry) (a b : Assembly) : Prop where
  /-- They know the same repeats. -/
  repeats : b.repeats = a.repeats
  /-- They have the same clusters. -/
  clusters : b.clusters = a.clusters
  /-- They find the same results. -/
  results : b.results = a.results
  /-- The same events have the role of a spawn. -/
  isSpawnAt : b.isSpawnAt = a.isSpawnAt
  /-- The entries of the spawns are changed. -/
  entry : ∀ s ∈ a.spawns, b.entry s = change (a.entry s)

namespace Fits

variable {options : Options} {events : List Placed} {a b : Assembly} (h : a.Fits options events)
include h

/-- At the place of an event stands the same group, with its entries changed. -/
theorem groupAt?_of_revises {change : Entry → Entry} (rev : Revises change a b)
    {x : Placed × Role} (hx : x ∈ a.cast) :
    b.groupAt? x = (a.groupAt? x).map (Group.mapEntries change) := by
  obtain ⟨p, role⟩ := x
  cases role with
  | message =>
    rw [groupAt?, groupAt?, isRepeat, isRepeat, rev.repeats, rev.results]
    rfl
  | spawn s =>
    have hs := (h.mem_cast_spawn_iff.mp hx).1
    rw [groupAt?, groupAt?, rev.clusters, Option.map_bind]
    apply Option.bind_congr
    intro c hc
    have hmem := (h.find?_contains_iff hs).mp hc
    have members : c.members.map b.entry = (c.members.map a.entry).map change := by
      rw [List.map_map]
      apply List.map_congr_left
      intro t ht
      exact rev.entry t ((h.members_sublist hmem.1).subset ht)
    have leader : b.leader? c = a.leader? c := by
      unfold leader?
      rw [rev.isSpawnAt]
    change b.clusterGroup? s c = (a.clusterGroup? s c).map _
    unfold clusterGroup?
    rw [leader, members, rev.entry s hs]
    split
    · rfl
    · split <;> rfl
  | result | nested | poll => rfl

/-- The groups of an assembly that has one more event in its cast: those before it and those behind
it, with their entries changed, and between them what stands at its place. -/
theorem groups_of_revises {change : Entry → Entry} (rev : Revises change a b) {x : Placed × Role}
    {first last : Role.Cast} (hcast : a.cast = first ++ last)
    (hcast' : b.cast = first ++ x :: last) :
    b.groups = (first.filterMap a.groupAt?).map (Group.mapEntries change) ++
      (b.groupAt? x).toList ++ (last.filterMap a.groupAt?).map (Group.mapEntries change) := by
  have changed (part : Role.Cast) (hpart : part.Sublist a.cast) :
      part.filterMap b.groupAt? = (part.filterMap a.groupAt?).map (Group.mapEntries change) := by
    rw [List.map_filterMap]
    apply List.filterMap_congr
    intro y hy
    exact h.groupAt?_of_revises rev (hpart.subset hy)
  have hfirst : first.Sublist a.cast := hcast ▸ List.sublist_append_left ..
  have hlast : last.Sublist a.cast := hcast ▸ List.sublist_append_right ..
  rw [groups, hcast', List.filterMap_append, List.filterMap_cons, changed first hfirst,
    changed last hlast]
  cases b.groupAt? x <;> simp

/-- Which entry is that of the spawn with a tool id. -/
theorem isOf_entry {s : Spawn} (hs : s ∈ a.spawns) (toolId : String) :
    (a.entry s).isOf toolId = (s.toolId == toolId) := by
  have hid := (Spawn.ofPlaced?_eq_some_iff.mp (h.discovered.call s hs)).2.1
  change (s.call.event.metadata.toolId? == some toolId) = _
  rw [hid, Option.some_beq_some]

/-- Where no spawn polls, each spawn is that of one entry. -/
theorem countP_isOf (free : ∀ s ∈ a.spawns, Role.pollOf? options.pollTool a.spawns s.call = none)
    {s : Spawn} (hs : s ∈ a.spawns) :
    (a.groups.flatMap Group.entries).countP (·.isOf s.toolId) = 1 :=
  calc (a.groups.flatMap Group.entries).countP (·.isOf s.toolId)
    _ = a.shown.countP fun t => (a.entry t).isOf s.toolId := by
        rw [h.flatMap_entries, List.countP_map]
        rfl
    _ = a.spawns.countP fun t => (a.entry t).isOf s.toolId := (h.shown_perm free).countP_eq _
    _ = a.spawns.countP (·.toolId == s.toolId) :=
        List.countP_congr fun t ht => by rw [h.isOf_entry ht]
    _ = (a.spawns.map (·.toolId)).count s.toolId := by
        rw [List.count, List.countP_map]
        rfl
    _ = 1 := List.count_eq_one_of_mem h.discovered.ids (List.mem_map_of_mem hs)

end Fits

/-! ### One more event -/

/-- The second assembly is made from the events of the first and from one more, which is no spawn
call. -/
structure Gains (options : Options) (before after : List Placed) (p : Placed) (a b : Assembly) :
    Prop where
  /-- The first one is made from the other events. -/
  fits : a.Fits options (before ++ after)
  /-- The event stands between the others. -/
  inOrder : Placed.InOrder (before ++ p :: after)
  /-- Each event has its role among the same spawns. -/
  cast : b.cast = Role.assign options.pollTool a.spawns (before ++ p :: after)
  /-- They know the same repeats. -/
  repeats : b.repeats = a.repeats
  /-- They have the same clusters. -/
  clusters : b.clusters = a.clusters
  /-- They find the same results. -/
  results : b.results = a.results

theorem gains_ofPlaced {options : Options} {before after : List Placed} {p : Placed}
    (ho : Placed.InOrder (before ++ p :: after))
    (hp : Spawn.ofPlaced? options.spawnTool p = none) (results : ResultIndex) :
    Gains options before after p (ofPlaced (before ++ after) results options)
      (ofPlaced (before ++ p :: after) results options) := by
  -- The spawn calls are the same, so they are entered alike.
  have roster : Roster.ofPlaced options.spawnTool (before ++ p :: after) =
      Roster.ofPlaced options.spawnTool (before ++ after) := by
    unfold Roster.ofPlaced
    rw [List.filterMap_append, List.filterMap_append, List.filterMap_cons_none hp]
  have rest : (before ++ after).Sublist (before ++ p :: after) :=
    (List.Sublist.refl before).append (List.sublist_cons_self p after)
  refine ⟨fits_ofPlaced (ho.sublist rest) results options, ho, ?_, ?_, ?_, rfl⟩
  · exact congrArg (fun r : Roster => Role.assign options.pollTool r.spawns _) roster
  · exact congrArg Roster.repeats roster
  · exact congrArg (fun r : Roster => Cluster.ofSpawns options.thresholdMs r.spawns) roster

namespace Gains

variable {options : Options} {before after : List Placed} {p : Placed} {role : Role}
  {a b : Assembly} (h : Gains options before after p a b)
  (hrole : Role.ofPlaced options.pollTool a.spawns p = role)
include h

theorem call_position_ne {s : Spawn} (hs : s ∈ a.spawns) : s.call.position ≠ p.position :=
  h.inOrder.position_ne (h.fits.discovered.call_mem hs)

theorem isRepeat_eq_false : b.isRepeat p = false := by
  rw [isRepeat, h.repeats, List.any_eq_false]
  intro x hx hpos
  exact h.inOrder.position_ne (h.fits.repeats x hx) (beq_iff_eq.mp hpos)

/-- An event whose parent id names a spawn is nested under it. -/
theorem role_eq_nested (hresult : p.event.isResult = false) {s : Spawn} (hs : s ∈ a.spawns)
    (hparent : p.event.metadata.parentId? = some s.toolId) :
    Role.ofPlaced options.pollTool a.spawns p = .nested s := by
  have under := h.fits.discovered.nestedUnder?_eq_some_iff.mpr
    ⟨hs, hparent, h.call_position_ne hs⟩
  exact Role.ofPlaced_eq_nested_iff.mpr ⟨hresult, under⟩

section NoParent

variable (hparent : ∀ s ∈ a.spawns, p.event.metadata.parentId? ≠ some s.toolId)
include hparent

theorem nestedUnder?_eq_none : Role.nestedUnder? a.spawns p = none := by
  rw [Option.eq_none_iff_forall_ne_some]
  intro s hs
  obtain ⟨hs, hid, -⟩ := h.fits.discovered.nestedUnder?_eq_some_iff.mp hs
  exact hparent s hs hid

/-- An event under no spawn that asks about one is a poll of it. -/
theorem role_eq_poll {s : Spawn} (hs : s ∈ a.spawns)
    (hasks : p.event.asksAbout options.pollTool s) :
    Role.ofPlaced options.pollTool a.spawns p = .poll s := by
  obtain ⟨hcall, hback, htask⟩ := hasks
  have hpoll := h.fits.discovered.pollOf?_eq_some_iff.mpr ⟨hcall, hs, hback, htask⟩
  exact Role.ofPlaced_eq_poll_iff.mpr
    ⟨Event.isResult_eq_false_of_isCallOf hcall, h.nestedUnder?_eq_none hparent, hpoll⟩

/-- An event under no spawn that asks about none is a message. -/
theorem role_eq_message (hresult : p.event.isResult = false)
    (hasks : ∀ s ∈ a.spawns, ¬p.event.asksAbout options.pollTool s) :
    Role.ofPlaced options.pollTool a.spawns p = .message := by
  refine Role.ofPlaced_eq_message_iff.mpr ⟨hresult, h.nestedUnder?_eq_none hparent, ?_, ?_⟩
  · rw [Option.eq_none_iff_forall_ne_some]
    intro s hs
    obtain ⟨hcall, hs, hback, htask⟩ := h.fits.discovered.pollOf?_eq_some_iff.mp hs
    exact hasks s hs ⟨hcall, hback, htask⟩
  · rw [List.find?_eq_none]
    intro s hs hpos
    exact h.call_position_ne hs (beq_iff_eq.mp hpos)

end NoParent

include hrole

/-- What is picked from the cast gains the event if its role passes the test. -/
theorem playing_eq (test : Role → Bool) : b.cast.playing test =
    if test role then p.insertInto (a.cast.playing test) else a.cast.playing test := by
  rw [h.cast, h.fits.cast, Role.playing_assign, Role.playing_assign, h.inOrder.filter_insert, hrole]

/-- The entries of the spawns take the event in as its role says. -/
theorem entry_eq {s : Spawn} (hs : s ∈ a.spawns) :
    b.entry s = (a.entry s).takeIn a.results p role := by
  have nested := h.playing_eq hrole (Role.isNestedUnder s.toolId)
  have polls := h.playing_eq hrole (Role.isPollOf s.toolId)
  have isOf := h.fits.isOf_entry hs
  rw [← Role.Cast.nestedUnder_eq, ← Role.Cast.nestedUnder_eq] at nested
  rw [← Role.Cast.pollsOf_eq, ← Role.Cast.pollsOf_eq] at polls
  rw [Entry.entry_eq_ofParts, nested, polls, h.results]
  cases role with
  | nested t =>
    simp only [Entry.takeIn, isOf, Role.isNestedUnder, Role.isPollOf]
    by_cases hid : t.toolId = s.toolId
    · simp [hid]
      rfl
    · simp [hid, Ne.symm hid]
      rfl
  | poll t =>
    simp only [Entry.takeIn, isOf, Role.isNestedUnder, Role.isPollOf]
    by_cases hid : t.toolId = s.toolId
    · simp [hid]
      rfl
    · simp [hid, Ne.symm hid]
      rfl
  | result | spawn | message => rfl

/-- No spawn stands at the place of the event. -/
theorem isSpawn_eq_false : role.isSpawn = false := by
  cases role with
  | spawn s =>
    obtain ⟨-, -, -, hfind⟩ := Role.ofPlaced_eq_spawn_iff.mp hrole
    have hpos : s.call.position = p.position := by simpa using List.find?_some hfind
    exact absurd hpos (h.call_position_ne (List.mem_of_find?_eq_some hfind))
  | result | nested | poll | message => rfl

/-- Only the entries are others. -/
theorem revises : Revises (Entry.takeIn a.results p role) a b where
  repeats := h.repeats
  clusters := h.clusters
  results := h.results
  isSpawnAt := by
    have notSpawn := h.isSpawn_eq_false hrole
    funext position
    rw [isSpawnAt, isSpawnAt, h.cast, h.fits.cast]
    simp [Role.assign, hrole, notSpawn]
  entry _ hs := h.entry_eq hrole hs

/-- The groups before the event and those behind it, with the event taken in by their entries, and
between them what stands at its place. -/
theorem groups_eq :
    ∃ first last, a.cast = first ++ last ∧ (∀ x ∈ first, x.1 ∈ before) ∧ (∀ x ∈ last, x.1 ∈ after) ∧
      a.groups = first.filterMap a.groupAt? ++ last.filterMap a.groupAt? ∧
      b.groups =
        (first.filterMap a.groupAt?).map (Group.mapEntries (Entry.takeIn a.results p role)) ++
          (b.groupAt? (p, role)).toList ++
          (last.filterMap a.groupAt?).map (Group.mapEntries (Entry.takeIn a.results p role)) := by
  have cast : a.cast = Role.assign options.pollTool a.spawns before ++
      Role.assign options.pollTool a.spawns after := by
    rw [h.fits.cast, Role.assign, List.map_append]
    rfl
  have cast' : b.cast = Role.assign options.pollTool a.spawns before ++
      (p, role) :: Role.assign options.pollTool a.spawns after := by
    rw [h.cast, Role.assign, List.map_append, List.map_cons, hrole]
    rfl
  have among (l : List Placed) : ∀ x ∈ Role.assign options.pollTool a.spawns l, x.1 ∈ l := by
    intro x hx
    obtain ⟨q, hq, rfl⟩ := List.mem_map.mp hx
    exact hq
  refine ⟨_, _, cast, among before, among after, ?_, ?_⟩
  · rw [groups, cast, List.filterMap_append]
  · exact h.fits.groups_of_revises (h.revises hrole) cast cast'

/-- An event that is nested or polls changes the entry of its spawn and nothing else. -/
theorem groups_eq_map (hnone : b.groupAt? (p, role) = none) :
    b.groups = a.groups.map (Group.mapEntries (Entry.takeIn a.results p role)) := by
  obtain ⟨first, last, -, -, -, groups, groups'⟩ := h.groups_eq hrole
  rw [groups', groups, hnone]
  simp

omit hrole in
/-- An event that is neither becomes a message, and nothing else changes. -/
theorem groups_eq_insert (hmessage : Role.ofPlaced options.pollTool a.spawns p = .message)
    (free : ∀ s ∈ a.spawns, Role.pollOf? options.pollTool a.spawns s.call = none) :
    ∃ gs gs', a.groups = gs ++ gs' ∧
      b.groups = gs ++ .message p (a.results.resultOf p.event) :: gs' ∧
      (∀ g ∈ gs, ∃ q, g.anchor? = some q ∧ q.position < p.position) ∧
      ∀ g ∈ gs', ∃ q, g.anchor? = some q ∧ p.position < q.position := by
  obtain ⟨first, last, cast, hfirst, hlast, groups, groups'⟩ := h.groups_eq hmessage
  obtain ⟨-, hafter, hbefore⟩ := List.pairwise_append.mp h.inOrder
  have unchanged : Group.mapEntries (Entry.takeIn a.results p .message) = id :=
    funext Group.mapEntries_id
  have message : b.groupAt? (p, .message) = some (.message p (a.results.resultOf p.event)) := by
    rw [groupAt?, h.isRepeat_eq_false, h.results]
    rfl
  refine ⟨first.filterMap a.groupAt?, last.filterMap a.groupAt?, groups, ?_, ?_, ?_⟩
  · rw [groups', unchanged, message]
    simp
  · intro g hg
    obtain ⟨x, hx, hat⟩ := List.mem_filterMap.mp hg
    have anchor := h.fits.anchor?_of_groupAt? free (cast ▸ List.mem_append_left _ hx) hat
    exact ⟨x.1, anchor, hbefore x.1 (hfirst x hx) p List.mem_cons_self⟩
  · intro g hg
    obtain ⟨x, hx, hat⟩ := List.mem_filterMap.mp hg
    have anchor := h.fits.anchor?_of_groupAt? free (cast ▸ List.mem_append_right _ hx) hat
    exact ⟨x.1, anchor, (List.pairwise_cons.mp hafter).1 x.1 (hlast x hx)⟩

end Gains

/-- A session into which an event is put is compared with the same session with room for the event, in
which the others stand where they stood. -/
theorem exists_gains_ofEvents (before after : List Event) {e : Event} {options : Options}
    (hp : Spawn.ofPlaced? options.spawnTool ⟨before.length, e⟩ = none) (results : ResultIndex) :
    let session := ofPlaced (Placed.ofEvents (before ++ after)) results options
    ∃ a, Gains options (Placed.ofEvents before)
        ((Placed.ofEvents after).map (Placed.shift (before.length + 1))) ⟨before.length, e⟩ a
        (ofPlaced (Placed.ofEvents (before ++ e :: after)) results options) ∧
      a.results = results ∧
      a.groups = session.groups.map (Group.moveTo (Placed.makeRoom before.length)) ∧
      a.spawns = session.spawns.map fun s =>
        ⟨s.call.moveTo (Placed.makeRoom before.length), s.toolId⟩ := by
  intro session
  have inOrder := Placed.inOrder_ofEvents (before ++ e :: after)
  rw [Placed.ofEvents_insert] at inOrder ⊢
  have apart : ∀ q ∈ Placed.ofEvents (before ++ after), ∀ r ∈ Placed.ofEvents (before ++ after),
      Placed.makeRoom before.length q.position = Placed.makeRoom before.length r.position →
        q.position = r.position := fun _ _ _ _ => Placed.makeRoom_inj
  have groups := groups_moveTo apart results options
  have spawns := Roster.spawns_moveTo apart options
  rw [Placed.map_makeRoom_ofEvents] at groups spawns
  exact ⟨_, gains_ofPlaced inOrder hp results, rfl, groups, spawns⟩

end Assembly

/-- **Insertion**: if the two tools differ, an event that is no result and no spawn call with an id
changes one thing in the groups of the session into which it is put. If its parent id names a spawn, it
is put among the nested events of that spawn's entry. Otherwise, if it asks about a spawn in the
background, it is put among the polls of that spawn's entry, whose last poll status is looked up again.
Otherwise it becomes a message, between the groups whose anchors stand before it and the others. -/
theorem Assembly.groups_of_event_inserted (before after : List Event) (e : Event)
    (results : ResultIndex) (options : Options) (hne : options.spawnTool ≠ options.pollTool)
    (hresult : e.isResult = false)
    (hcall : e.isCallOf options.spawnTool → e.metadata.toolId? = none) :
    let p : Placed := ⟨before.length, e⟩
    let session := ofPlaced (Placed.ofEvents (before ++ after)) results options
    let old := session.groups.map (Group.moveTo (Placed.makeRoom before.length))
    let new := (ofPlaced (Placed.ofEvents (before ++ e :: after)) results options).groups
    (∀ s ∈ session.spawns, (old.flatMap Group.entries).countP (·.isOf s.toolId) = 1) ∧
    (∀ s ∈ session.spawns, e.metadata.parentId? = some s.toolId →
      new = old.map (Group.amend s.toolId (Entry.addNested p))) ∧
    ((∀ s ∈ session.spawns, e.metadata.parentId? ≠ some s.toolId) →
      (∀ s ∈ session.spawns, e.asksAbout options.pollTool s →
        new = old.map (Group.amend s.toolId (Entry.addPoll results p))) ∧
      ((∀ s ∈ session.spawns, ¬e.asksAbout options.pollTool s) → ∃ gs gs', old = gs ++ gs' ∧
        new = gs ++ .message p (results.resultOf e) :: gs' ∧
        (∀ g ∈ gs, ∃ q, g.anchor? = some q ∧ q.position < before.length) ∧
        ∀ g ∈ gs', ∃ q, g.anchor? = some q ∧ before.length < q.position)) := by
  intro p session old new
  have hp : Spawn.ofPlaced? options.spawnTool p = none := by
    rw [Option.eq_none_iff_forall_ne_some]
    intro s hs
    obtain ⟨hspawn, hid, -⟩ := Spawn.ofPlaced?_eq_some_iff.mp hs
    rw [hcall hspawn] at hid
    cases hid
  obtain ⟨a, gains, found, groups, spawns⟩ := exists_gains_ofEvents before after hp results
  have free := gains.fits.free_of_ne hne
  have mem : ∀ s ∈ session.spawns,
      ⟨s.call.moveTo (Placed.makeRoom before.length), s.toolId⟩ ∈ a.spawns := by
    intro s hs
    rw [spawns]
    exact List.mem_map_of_mem hs
  change a.groups = old at groups
  rw [← groups]
  refine ⟨?_, ?_, ?_⟩
  · intro s hs
    have one := gains.fits.countP_isOf free (mem s hs)
    exact one
  · intro s hs hparent
    exact gains.groups_eq_map (gains.role_eq_nested hresult (mem s hs) hparent) rfl
  · intro hparent
    have noParent : ∀ t ∈ a.spawns, e.metadata.parentId? ≠ some t.toolId := by
      rw [spawns, List.forall_mem_map]
      exact hparent
    rw [← found]
    constructor
    · intro s hs hasks
      exact gains.groups_eq_map (gains.role_eq_poll noParent (mem s hs) hasks) rfl
    · intro hasks
      have asksNone : ∀ t ∈ a.spawns, ¬e.asksAbout options.pollTool t := by
        rw [spawns, List.forall_mem_map]
        exact hasks
      exact gains.groups_eq_insert (gains.role_eq_message noParent hresult asksNone) free

/-- A poll that comes after another one of the same spawn, and before that spawn, is the last one. -/
theorem Assembly.groups_of_event_inserted_before_its_spawn :
    let call (tool id task : String) : Event :=
      { kind := .toolCall, time := ⟨0, 0⟩,
        metadata :=
          { toolId := some id, toolName := some tool, taskId := some task, background := some true } }
    let result (id status : String) : Event :=
      { kind := .toolResult, time := ⟨0, 0⟩,
        metadata := { toolId := some id, status := some status } }
    let before := [call "TaskOutput" "p" "b", call "Task" "a" ""]
    let e := call "TaskOutput" "q" "b"
    let after := [call "Task" "b" "", result "p" "running", result "q" "done"]
    let index := ResultIndex.ofPlaced (Placed.ofEvents after)
    let session := ofPlaced (Placed.ofEvents (before ++ after)) index {}
    let old := session.groups.map (Group.moveTo (Placed.makeRoom 2))
    let new := (ofPlaced (Placed.ofEvents (before ++ e :: after)) index {}).groups
    "Task" ≠ "TaskOutput" ∧ e.isResult = false ∧ e.isCallOf "Task" = false ∧
      (∀ s ∈ session.spawns, e.metadata.parentId? ≠ some s.toolId) ∧
      (∃ s ∈ session.spawns, e.asksAbout "TaskOutput" s ∧
        new = old.map (Group.amend s.toolId (Entry.addPoll index ⟨2, e⟩))) ∧
      (old.flatMap Group.entries).map (fun e => (e.polls.map (·.position), e.lastPollStatus)) =
        [([], none), ([0], some "running")] ∧
      (new.flatMap Group.entries).map (fun e => (e.polls.map (·.position), e.lastPollStatus)) =
        [([], none), ([0, 2], some "done")] := by
  intro call result before e after index session old new
  have noSpawnCall : e.isCallOf "Task" = false := by decide
  have noParent : ∀ s ∈ session.spawns, e.metadata.parentId? ≠ some s.toolId := by
    intro s _
    simp [e, call, Metadata.parentId?, nonEmpty]
  have spawn : ⟨⟨2, call "Task" "b" ""⟩, "b"⟩ ∈ session.spawns := by
    apply List.mem_of_getElem? (i := 1)
    rfl
  have asks : e.asksAbout "TaskOutput" ⟨⟨2, call "Task" "b" ""⟩, "b"⟩ := by decide
  have inserted := groups_of_event_inserted before after e index {} (by decide) (by decide)
    fun hcall => absurd hcall (by rw [noSpawnCall]; decide)
  exact ⟨by decide, by decide, noSpawnCall, noParent,
    ⟨_, spawn, asks, (inserted.2.2 noParent).1 _ spawn asks⟩, by decide +kernel, by decide +kernel⟩

end AgentThreads
