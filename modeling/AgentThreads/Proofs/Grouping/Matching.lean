import AgentThreads.Grouping.Assembly
import AgentThreads.Proofs.Grouping.Casting
import AgentThreads.Proofs.Grouping.Results
import Mathlib.Data.List.Forall2

/-!
# Matching sessions

Of an event a grouping reads what kind of event it is, what it calls, its ids and, of spawn calls,
how far apart they are. Of ids and places it reads which are equal. A `Matching` says of the events
and ids of two sessions which correspond, such that none of this tells them apart. Sessions whose
events correspond have groups that correspond, pass by pass.
-/

namespace AgentThreads

open List (Forall₂)

/-- Searches with tests that agree find elements that correspond. -/
theorem rel_find? {α β : Type} {R : α → β → Prop} {p : α → Bool} {q : β → Bool}
    (hpq : ∀ {a b}, R a b → p a = q b) {l : List α} {l' : List β} (h : Forall₂ R l l') :
    Option.Rel R (l.find? p) (l'.find? q) := by
  induction h with
  | nil => exact .none
  | @cons a b _ _ hab _ ih =>
    rw [List.find?_cons, List.find?_cons, hpq hab]
    cases q b with
    | true => exact .some hab
    | false => exact ih

/-- Filters with tests that agree keep elements that correspond. -/
theorem rel_filter {α β : Type} {R : α → β → Prop} {p : α → Bool} {q : β → Bool}
    (hpq : ∀ {a b}, R a b → p a = q b) {l : List α} {l' : List β} (h : Forall₂ R l l') :
    Forall₂ R (l.filter p) (l'.filter q) :=
  List.rel_filter (fun _ _ hab => Bool.eq_iff_iff.mp (hpq hab)) h

theorem rel_cases {α β : Type} {R : α → β → Prop} {a : Option α} {b : Option β}
    (h : Option.Rel R a b) :
    (a = none ∧ b = none) ∨ ∃ x y, a = some x ∧ b = some y ∧ R x y := by
  cases h with
  | none => exact .inl ⟨rfl, rfl⟩
  | some hxy => exact .inr ⟨_, _, rfl, rfl, hxy⟩

theorem rel_bind {α β γ δ : Type} {R : α → β → Prop} {S : γ → δ → Prop} {a : Option α}
    {b : Option β} {f : α → Option γ} {g : β → Option δ} (h : Option.Rel R a b)
    (hfg : ∀ {x y}, R x y → Option.Rel S (f x) (g y)) : Option.Rel S (a.bind f) (b.bind g) := by
  cases h with
  | none => exact .none
  | some hxy => exact hfg hxy

theorem bind_eq_of_rel {α β γ : Type} {R : α → β → Prop} {a : Option α} {b : Option β}
    {f : α → Option γ} {g : β → Option γ} (h : Option.Rel R a b)
    (hfg : ∀ {x y}, R x y → f x = g y) : a.bind f = b.bind g := by
  cases h with
  | none => rfl
  | some hxy => exact hfg hxy

theorem any_eq_of_rel {α β : Type} {R : α → β → Prop} {p : α → Bool} {q : β → Bool}
    (hpq : ∀ {a b}, R a b → p a = q b) {l : List α} {l' : List β} (h : Forall₂ R l l') :
    l.any p = l'.any q := by
  induction h with
  | nil => rfl
  | cons hab _ ih => rw [List.any_cons, List.any_cons, hpq hab, ih]

theorem rel_getLast? {α β : Type} {R : α → β → Prop} {l : List α} {l' : List β}
    (h : Forall₂ R l l') : Option.Rel R l.getLast? l'.getLast? := by
  have first : ∀ {r : List α} {r' : List β}, Forall₂ R r r' → Option.Rel R r.head? r'.head?
    | _, _, .nil => .none
    | _, _, .cons hab _ => .some hab
  rw [← List.head?_reverse, ← List.head?_reverse]
  exact first (List.rel_reverse h)

/-- Which events and which ids of two sessions correspond. -/
structure Matching (o o' : Options) where
  /-- The events that correspond. -/
  event : Placed → Placed → Prop
  /-- The ids that correspond. -/
  id : String → String → Prop
  /-- An id corresponds to one id. -/
  id_iff {i i' j j'} : id i i' → id j j' → (i = j ↔ i' = j')
  /-- Events at one place correspond to events at one place. -/
  place_iff {p p' q q'} : event p p' → event q q' →
    (p.position = q.position ↔ p'.position = q'.position)
  /-- Results correspond to results. -/
  isResult {p p'} : event p p' → p.event.isResult = p'.event.isResult
  /-- Calls correspond to calls. -/
  isCall {p p'} : event p p' → p.event.isCall = p'.event.isCall
  /-- Calls of the spawn tool correspond to calls of the spawn tool. -/
  isSpawnCall {p p'} : event p p' →
    p.event.isCallOf o.spawnTool = p'.event.isCallOf o'.spawnTool
  /-- Calls of the poll tool correspond to calls of the poll tool. -/
  isPollCall {p p'} : event p p' → p.event.isCallOf o.pollTool = p'.event.isCallOf o'.pollTool
  /-- Calls in the background correspond to calls in the background. -/
  background {p p'} : event p p' →
    p.event.metadata.runsInBackground = p'.event.metadata.runsInBackground
  /-- Corresponding events have one status. -/
  status {p p'} : event p p' → p.event.metadata.status = p'.event.metadata.status
  /-- The tool ids of corresponding events correspond. -/
  toolId? {p p'} : event p p' → Option.Rel id p.event.metadata.toolId? p'.event.metadata.toolId?
  /-- The parents' ids of corresponding events correspond. -/
  parentId? {p p'} : event p p' →
    Option.Rel id p.event.metadata.parentId? p'.event.metadata.parentId?
  /-- The tasks' ids of corresponding events correspond. -/
  taskId? {p p'} : event p p' → Option.Rel id p.event.metadata.taskId? p'.event.metadata.taskId?
  /-- Spawn calls are as near as those they correspond to. -/
  near_iff {p p' q q'} : event p p' → event q q' → p.event.isCallOf o.spawnTool →
    q.event.isCallOf o.spawnTool →
    (Instant.millisBetween q.event.time p.event.time ≤ o.thresholdMs ↔
      Instant.millisBetween q'.event.time p'.event.time ≤ o'.thresholdMs)

namespace Matching

variable {o o' : Options} (m : Matching o o')

/-! ### What corresponds -/

/-- Spawns that correspond. -/
def spawn (s s' : Spawn) : Prop :=
  m.event s.call s'.call ∧ m.id s.toolId s'.toolId ∧ s.call.event.isCallOf o.spawnTool

/-- Repeats that correspond. -/
def repeated (x x' : Repeat) : Prop :=
  m.spawn x.first x'.first ∧ m.spawn x.later x'.later

/-- Rosters that correspond. -/
def roster (r r' : Roster) : Prop :=
  Forall₂ m.spawn r.holders r'.holders ∧ Forall₂ m.repeated r.repeats r'.repeats

/-- Clusters that correspond. -/
def cluster (c c' : Cluster) : Prop :=
  m.spawn c.anchor c'.anchor ∧ Forall₂ m.spawn c.others c'.others

/-- Roles that correspond. -/
inductive RoleRel : Role → Role → Prop where
  /-- A result. -/
  | result : RoleRel .result .result
  /-- An event nested under a spawn. -/
  | nested {s s' : Spawn} : m.spawn s s' → RoleRel (.nested s) (.nested s')
  /-- A poll. -/
  | poll {s s' : Spawn} : m.spawn s s' → RoleRel (.poll s) (.poll s')
  /-- A spawn. -/
  | spawn {s s' : Spawn} : m.spawn s s' → RoleRel (.spawn s) (.spawn s')
  /-- A message. -/
  | message : RoleRel .message .message

/-- Events with their roles that correspond. -/
def part (x x' : Placed × Role) : Prop :=
  m.event x.1 x'.1 ∧ m.RoleRel x.2 x'.2

/-- Indices that find results that correspond. -/
def index (i i' : ResultIndex) : Prop :=
  ∀ {k k' : String}, m.id k k' → Option.Rel m.event (i.find? k) (i'.find? k')

/-- Assemblies that correspond. -/
structure AssemblyRel (a a' : Assembly) : Prop where
  /-- The casts correspond. -/
  cast : Forall₂ m.part a.cast a'.cast
  /-- The spawns correspond. -/
  spawns : Forall₂ m.spawn a.spawns a'.spawns
  /-- The repeats correspond. -/
  repeats : Forall₂ m.repeated a.repeats a'.repeats
  /-- The clusters correspond. -/
  clusters : Forall₂ m.cluster a.clusters a'.clusters
  /-- The indices of results correspond. -/
  results : m.index a.results a'.results

/-- Entries that correspond. -/
structure EntryRel (e e' : Entry) : Prop where
  /-- The spawns correspond. -/
  spawn : m.event e.spawn e'.spawn
  /-- The results correspond. -/
  result : Option.Rel m.event e.result e'.result
  /-- The nested events correspond. -/
  nested : Forall₂ m.event e.nested e'.nested
  /-- The polls correspond. -/
  polls : Forall₂ m.event e.polls e'.polls
  /-- The last polls gave one status. -/
  lastPollStatus : e.lastPollStatus = e'.lastPollStatus

/-- Groups that correspond. -/
inductive GroupRel : Group → Group → Prop where
  /-- Single events. -/
  | message {p p' : Placed} {r r' : Option Placed} :
    m.event p p' → Option.Rel m.event r r' → GroupRel (.message p r) (.message p' r')
  /-- Single subagents. -/
  | subagent {e e' : Entry} : m.EntryRel e e' → GroupRel (.subagent e) (.subagent e')
  /-- Parallel subagents. -/
  | parallel {es es' : List Entry} :
    Forall₂ m.EntryRel es es' → GroupRel (.parallel es) (.parallel es')

/-! ### Comparisons -/

variable {m}

theorem beq_id {i i' j j' : String} (hi : m.id i i') (hj : m.id j j') : (i == j) = (i' == j') := by
  rw [Bool.eq_iff_iff, beq_iff_eq, beq_iff_eq]
  exact m.id_iff hi hj

theorem beq_place {p p' q q' : Placed} (hp : m.event p p') (hq : m.event q q') :
    (p.position == q.position) = (p'.position == q'.position) := by
  rw [Bool.eq_iff_iff, beq_iff_eq, beq_iff_eq]
  exact m.place_iff hp hq

theorem isNear_eq {s s' t t' : Spawn} (hs : m.spawn s s') (ht : m.spawn t t') :
    s.isNear o.thresholdMs t = s'.isNear o'.thresholdMs t' :=
  decide_eq_decide.mpr (m.near_iff hs.1 ht.1 hs.2.2 ht.2.2)

/-- Searches by ids that correspond. -/
theorem rel_find?_id {l l' : List Spawn} (hl : Forall₂ m.spawn l l') {i i' : String}
    (hi : m.id i i') :
    Option.Rel m.spawn (l.find? (·.toolId == i)) (l'.find? (·.toolId == i')) :=
  rel_find? (fun hs => beq_id hs.2.1 hi) hl

/-- Results of events that correspond. -/
theorem rel_resultOf {i i' : ResultIndex} (hi : m.index i i') {p p' : Placed} (hp : m.event p p') :
    Option.Rel m.event (i.resultOf p.event) (i'.resultOf p'.event) := by
  unfold ResultIndex.resultOf
  rw [m.isCall hp]
  split
  · exact rel_bind (m.toolId? hp) hi
  · exact .none

/-- The indices of sessions that correspond. -/
theorem index_ofPlaced {events events' : List Placed} (h : Forall₂ m.event events events') :
    m.index (ResultIndex.ofPlaced events) (ResultIndex.ofPlaced events') := by
  intro k k' hk
  rw [ResultIndex.find?_ofPlaced, ResultIndex.find?_ofPlaced]
  refine rel_find? (fun {p p'} hp => ?_) (List.rel_reverse h)
  unfold ResultIndex.answers
  rw [m.isResult hp]
  rcases rel_cases (m.toolId? hp) with ⟨hid, hid'⟩ | ⟨j, j', hid, hid', hj⟩
  · rw [hid, hid']
    rfl
  · rw [hid, hid', Option.some_beq_some, Option.some_beq_some, beq_id hj hk]

/-! ### The roster -/

theorem rel_ofPlaced? {p p' : Placed} (hp : m.event p p') :
    Option.Rel m.spawn (Spawn.ofPlaced? o.spawnTool p) (Spawn.ofPlaced? o'.spawnTool p') := by
  unfold Spawn.ofPlaced?
  rw [← m.isSpawnCall hp]
  split
  · case isTrue hcall =>
    rcases rel_cases (m.toolId? hp) with ⟨hid, hid'⟩ | ⟨i, i', hid, hid', hi⟩ <;> rw [hid, hid']
    · exact .none
    · exact .some ⟨hp, hi, hcall⟩
  · exact .none

/-- Entering spawn calls that correspond. -/
theorem roster_enter {r r' : Roster} (hr : m.roster r r') {s s' : Spawn} (hs : m.spawn s s') :
    m.roster (r.enter s) (r'.enter s') := by
  unfold Roster.enter
  rcases rel_cases (rel_find?_id hr.1 hs.2.1) with ⟨hf, hf'⟩ | ⟨t, t', hf, hf', ht⟩ <;>
    rw [Roster.holder?, Roster.holder?, hf, hf']
  · exact ⟨List.rel_append hr.1 (.cons hs .nil), hr.2⟩
  · exact ⟨hr.1, List.rel_append hr.2 (.cons ⟨ht, hs⟩ .nil)⟩

/-- The rosters of sessions that correspond. -/
theorem roster_ofPlaced {events events' : List Placed} (h : Forall₂ m.event events events') :
    m.roster (Roster.ofPlaced o.spawnTool events) (Roster.ofPlaced o'.spawnTool events') :=
  have calls := List.rel_filterMap (P := m.spawn) (fun _ _ hp => rel_ofPlaced? hp) h
  List.rel_foldl (P := m.roster) (R := m.spawn) (fun _ _ hr _ _ hs => roster_enter hr hs)
    ⟨.nil, .nil⟩ calls

theorem isTopLevel_eq {r r' : Roster} (hr : m.roster r r') {s s' : Spawn} (hs : m.spawn s s') :
    r.isTopLevel s = r'.isTopLevel s' := by
  unfold Roster.isTopLevel
  rcases rel_cases (m.parentId? hs.1) with ⟨hid, hid'⟩ | ⟨i, i', hid, hid', hi⟩ <;> rw [hid, hid']
  change (i == s.toolId || (r.holder? i).isNone) = (i' == s'.toolId || (r'.holder? i').isNone)
  have isNone : (r.holder? i).isNone = (r'.holder? i').isNone := by
    rcases rel_cases (rel_find?_id hr.1 hi) with ⟨hf, hf'⟩ | ⟨t, t', hf, hf', -⟩ <;>
      simp [Roster.holder?, hf, hf']
  rw [beq_id hi hs.2.1, isNone]

/-- The spawns of rosters that correspond. -/
theorem rel_spawns {r r' : Roster} (hr : m.roster r r') : Forall₂ m.spawn r.spawns r'.spawns :=
  rel_filter (fun hs => isTopLevel_eq hr hs) hr.1

/-! ### The clusters -/

/-- The clusters of spawns that correspond. -/
theorem rel_ofSpawns {l : List Spawn} : ∀ {l' : List Spawn}, Forall₂ m.spawn l l' →
    Forall₂ m.cluster (Cluster.ofSpawns o.thresholdMs l) (Cluster.ofSpawns o'.thresholdMs l') := by
  induction l using Cluster.ofSpawns.induct o.thresholdMs with
  | case1 =>
    intro l' h
    cases h
    simp [Cluster.ofSpawns]
  | case2 anchor later ih =>
    intro l' h
    cases h with
    | cons hanchor hlater =>
      rw [Cluster.ofSpawns, Cluster.ofSpawns]
      refine .cons ⟨hanchor, ?_⟩ (ih ?_)
      · exact rel_filter (fun hs => isNear_eq hanchor hs) hlater
      · exact rel_filter (fun hs => by rw [isNear_eq hanchor hs]) hlater

theorem rel_members {c c' : Cluster} (hc : m.cluster c c') :
    Forall₂ m.spawn c.members c'.members :=
  .cons hc.1 hc.2

/-! ### The roles -/

variable {spawns spawns' : List Spawn} (hs : Forall₂ m.spawn spawns spawns') {p p' : Placed}
  (hp : m.event p p')
include hs hp

theorem rel_nestedUnder? :
    Option.Rel m.spawn (Role.nestedUnder? spawns p) (Role.nestedUnder? spawns' p') := by
  refine rel_bind (m.parentId? hp) fun hi => rel_bind (rel_find?_id hs hi) fun {s s'} ht => ?_
  rw [beq_place ht.1 hp]
  split
  · exact .none
  · exact .some ht

theorem rel_pollOf? :
    Option.Rel m.spawn (Role.pollOf? o.pollTool spawns p) (Role.pollOf? o'.pollTool spawns' p') := by
  unfold Role.pollOf?
  rw [m.isPollCall hp]
  split
  · refine rel_bind (m.taskId? hp) fun hi => rel_find? (fun ht => ?_) hs
    rw [m.background ht.1, beq_id ht.2.1 hi]
  · exact .none

/-- The roles of events that correspond. -/
theorem roleRel_ofPlaced :
    m.RoleRel (Role.ofPlaced o.pollTool spawns p) (Role.ofPlaced o'.pollTool spawns' p') := by
  unfold Role.ofPlaced
  rw [m.isResult hp]
  split
  · exact .result
  rcases rel_cases (rel_nestedUnder? hs hp) with ⟨hf, hf'⟩ | ⟨t, t', hf, hf', ht⟩ <;> rw [hf, hf']
  · rcases rel_cases (rel_pollOf? hs hp) with ⟨hf, hf'⟩ | ⟨t, t', hf, hf', ht⟩ <;> rw [hf, hf']
    · have self := rel_find? (fun ht => beq_place ht.1 hp) hs
      rcases rel_cases self with ⟨hf, hf'⟩ | ⟨t, t', hf, hf', ht⟩ <;> rw [hf, hf']
      · exact .message
      · exact .spawn ht
    · exact .poll ht
  · exact .nested ht

omit hs hp

/-! ### The assembly -/

theorem rel_assign {events events' : List Placed} (hs : Forall₂ m.spawn spawns spawns')
    (h : Forall₂ m.event events events') :
    Forall₂ m.part (Role.assign o.pollTool spawns events)
      (Role.assign o'.pollTool spawns' events') :=
  List.rel_map (P := m.part) (fun _ _ hp => ⟨hp, roleRel_ofPlaced hs hp⟩) h

/-- The assemblies of sessions that correspond. -/
theorem assemblyRel_ofPlaced {events events' : List Placed} (h : Forall₂ m.event events events')
    {i i' : ResultIndex} (hi : m.index i i') :
    m.AssemblyRel (Assembly.ofPlaced events i o) (Assembly.ofPlaced events' i' o') where
  cast := rel_assign (rel_spawns (roster_ofPlaced h)) h
  spawns := rel_spawns (roster_ofPlaced h)
  repeats := (roster_ofPlaced h).2
  clusters := rel_ofSpawns (rel_spawns (roster_ofPlaced h))
  results := hi

/-- Events picked by roles that correspond. -/
theorem rel_playing {test test' : Role → Bool}
    (ht : ∀ {r r'}, m.RoleRel r r' → test r = test' r') {cast cast' : Role.Cast}
    (h : Forall₂ m.part cast cast') :
    Forall₂ m.event (cast.playing test) (cast'.playing test') :=
  List.rel_map (R := m.part) (fun _ _ hx => hx.1) (rel_filter (fun hx => ht hx.2) h)

section Assembly

variable {a a' : Assembly} (h : m.AssemblyRel a a')
include h

theorem rel_nested {s s' : Spawn} (hs : m.spawn s s') :
    Forall₂ m.event (a.entry s).nested (a'.entry s').nested := by
  change Forall₂ m.event (a.cast.nestedUnder _) (a'.cast.nestedUnder _)
  rw [Role.Cast.nestedUnder_eq, Role.Cast.nestedUnder_eq]
  refine rel_playing (fun hr => ?_) h.cast
  cases hr with
  | nested ht => exact beq_id ht.2.1 hs.2.1
  | result | poll | spawn | message => rfl

theorem rel_polls {s s' : Spawn} (hs : m.spawn s s') :
    Forall₂ m.event (a.entry s).polls (a'.entry s').polls := by
  change Forall₂ m.event (a.cast.pollsOf _) (a'.cast.pollsOf _)
  rw [Role.Cast.pollsOf_eq, Role.Cast.pollsOf_eq]
  refine rel_playing (fun hr => ?_) h.cast
  cases hr with
  | poll ht => exact beq_id ht.2.1 hs.2.1
  | result | nested | spawn | message => rfl

/-- The entries of spawns that correspond. -/
theorem entryRel {s s' : Spawn} (hs : m.spawn s s') : m.EntryRel (a.entry s) (a'.entry s') where
  spawn := hs.1
  result := rel_resultOf h.results hs.1
  nested := rel_nested h hs
  polls := rel_polls h hs
  lastPollStatus := bind_eq_of_rel (rel_getLast? (rel_polls h hs)) fun hp =>
    bind_eq_of_rel (rel_resultOf h.results hp) m.status

theorem isRepeat_eq {p p' : Placed} (hp : m.event p p') : a.isRepeat p = a'.isRepeat p' :=
  any_eq_of_rel (fun hx => beq_place hx.2.1 hp) h.repeats

theorem isSpawnAt_eq {s s' : Spawn} (hs : m.spawn s s') :
    a.isSpawnAt s.call.position = a'.isSpawnAt s'.call.position := by
  refine any_eq_of_rel ?_ h.cast
  rintro ⟨p, role⟩ ⟨p', role'⟩ ⟨hp, hrole⟩
  have place := beq_place hp hs.1
  cases hrole with
  | spawn _ => exact place
  | result | nested | poll | message => rfl

theorem rel_clusterGroup? {s s' : Spawn} (hs : m.spawn s s') {c c' : Cluster}
    (hc : m.cluster c c') :
    Option.Rel m.GroupRel (a.clusterGroup? s c) (a'.clusterGroup? s' c') := by
  have leads : (a.leader? c).any (·.call.position == s.call.position) =
      (a'.leader? c').any (·.call.position == s'.call.position) := by
    have leader := rel_find? (fun ht => isSpawnAt_eq h ht) (rel_members hc)
    rcases rel_cases leader with ⟨hf, hf'⟩ | ⟨t, t', hf, hf', ht⟩
    · simp [Assembly.leader?, hf, hf']
    · simp [Assembly.leader?, hf, hf', beq_place ht.1 hs.1]
  have alone : c.others.isEmpty = c'.others.isEmpty := by
    rw [Bool.eq_iff_iff, List.isEmpty_iff_length_eq_zero, List.isEmpty_iff_length_eq_zero,
      hc.2.length_eq]
  unfold Assembly.clusterGroup?
  rw [leads, alone]
  split
  · exact .some (.subagent (entryRel h hs))
  split
  · exact .some (.parallel (List.rel_map (fun _ _ ht => entryRel h ht) (rel_members hc)))
  · exact .none

/-- The groups at places that correspond. -/
theorem rel_groupAt? {x x' : Placed × Role} (hx : m.part x x') :
    Option.Rel m.GroupRel (a.groupAt? x) (a'.groupAt? x') := by
  obtain ⟨p, role⟩ := x
  obtain ⟨p', role'⟩ := x'
  obtain ⟨hp, hrole⟩ := hx
  cases hrole with
  | result | nested | poll => exact .none
  | spawn hs =>
    have contains {c c' : Cluster} (hc : m.cluster c c') : c.contains _ = c'.contains _ :=
      any_eq_of_rel (fun ht => beq_place ht.1 hs.1) (rel_members hc)
    exact rel_bind (rel_find? (fun hc => contains hc) h.clusters) (rel_clusterGroup? h hs)
  | message =>
    refine .some (.message hp ?_)
    rw [isRepeat_eq h hp]
    split
    · exact .none
    · exact rel_resultOf h.results hp

/-- The groups of sessions that correspond. -/
theorem rel_groups : Forall₂ m.GroupRel a.groups a'.groups :=
  List.rel_filterMap (fun _ _ hx => rel_groupAt? h hx) h.cast

end Assembly

end Matching

end AgentThreads
