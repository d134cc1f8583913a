import AgentThreads.Proofs.Grouping.Shifting

/-!
# Relocation

What a grouping takes from an index of results, and what from the places of the events. The results
are filled in at the end: the groups are those without an index, with what the index gives for the
events in them. And of places only their difference counts: events that are moved to other places,
no two of them to one place, have the same groups there. The index stays where it is.
-/

namespace AgentThreads

open List (Forall₂)

/-! ### Results filled in -/

/-- The entry with what an index gives for its events. -/
def Entry.withResults (results : ResultIndex) (e : Entry) : Entry :=
  { e with
    result := results.resultOf e.spawn.event
    lastPollStatus := do
      let poll ← e.polls.getLast?
      let result ← results.resultOf poll.event
      result.event.metadata.status }

/-- The group with what an index gives for its events, unless they repeat an id. -/
def Group.withResults (results : ResultIndex) (repeats : Placed → Bool) : Group → Group
  | message event _ =>
    message event (if repeats event then none else results.resultOf event.event)
  | subagent entry => subagent (entry.withResults results)
  | parallel entries => parallel (entries.map (Entry.withResults results))

/-- The results are filled in at the end. -/
theorem Assembly.groups_withResults (events : List Placed) (results : ResultIndex)
    (options : Options) :
    (ofPlaced events results options).groups = (ofPlaced events [] options).groups.map
      (Group.withResults results (ofPlaced events [] options).isRepeat) := by
  rw [groups, groups, List.map_filterMap]
  refine List.filterMap_congr fun x _ => ?_
  obtain ⟨p, role⟩ := x
  cases role with
  | message => rfl
  | spawn s =>
    change Option.bind _ _ = Option.map _ (Option.bind _ _)
    rw [Option.map_bind]
    refine Option.bind_congr fun c _ => ?_
    change clusterGroup? _ s c = Option.map _ (clusterGroup? _ s c)
    unfold clusterGroup?
    split
    · rfl
    · rw [apply_ite (Option.map _), Option.map_some, Group.withResults, List.map_map]
      rfl
  | result | nested | poll => rfl

/-! ### Other places -/

/-- The event at another place. -/
def Placed.moveTo (place : Nat → Nat) (p : Placed) : Placed :=
  ⟨place p.position, p.event⟩

/-- The entry with its events at other places; its result is that of the index. -/
def Entry.moveTo (place : Nat → Nat) (e : Entry) : Entry :=
  { e with
    spawn := e.spawn.moveTo place
    nested := e.nested.map (Placed.moveTo place)
    polls := e.polls.map (Placed.moveTo place) }

/-- The group with its events at other places; its results are those of the index. -/
def Group.moveTo (place : Nat → Nat) : Group → Group
  | message event result => message (event.moveTo place) result
  | subagent entry => subagent (entry.moveTo place)
  | parallel entries => parallel (entries.map (Entry.moveTo place))

namespace Matching

variable (options : Options) {place : Nat → Nat} {events : List Placed}
  (apart : ∀ p ∈ events, ∀ q ∈ events, place p.position = place q.position →
    p.position = q.position)

/-- An event corresponds to itself at another place. -/
def relocate : Matching options options where
  event p p' := p ∈ events ∧ p.moveTo place = p'
  id := Eq
  id_iff := Eq.congr
  place_iff := by
    rintro p _ q _ ⟨hp, rfl⟩ ⟨hq, rfl⟩
    exact ⟨congrArg place, apart p hp q hq⟩
  isResult := by rintro p _ ⟨-, rfl⟩; rfl
  isCall := by rintro p _ ⟨-, rfl⟩; rfl
  isSpawnCall := by rintro p _ ⟨-, rfl⟩; rfl
  isPollCall := by rintro p _ ⟨-, rfl⟩; rfl
  background := by rintro p _ ⟨-, rfl⟩; rfl
  status := by rintro p _ ⟨-, rfl⟩; rfl
  toolId? := by rintro p _ ⟨-, rfl⟩; exact rel_eq_refl _
  parentId? := by rintro p _ ⟨-, rfl⟩; exact rel_eq_refl _
  taskId? := by rintro p _ ⟨-, rfl⟩; exact rel_eq_refl _
  near_iff := by rintro p _ q _ ⟨-, rfl⟩ ⟨-, rfl⟩ _ _; rfl

theorem relocate_events :
    Forall₂ (relocate options apart).event events (events.map (Placed.moveTo place)) :=
  List.forall₂_map_right_iff.mpr (List.forall₂_same.mpr fun _ hp => ⟨hp, rfl⟩)

/-- Without an index nothing is found. -/
theorem index_nil {o o' : Options} (m : Matching o o') : m.index [] [] :=
  fun _ => .none

variable {options} {apart}

theorem entry_relocate {e e' : Entry} (h : (relocate options apart).EntryRel e e')
    (results : ResultIndex) :
    (e.withResults results).moveTo place = e'.withResults results := by
  obtain ⟨spawn, result, nested, polls, status⟩ := e'
  obtain ⟨⟨-, rfl⟩, -, hnested, hpolls, -⟩ := h
  obtain rfl := map_eq_of_forall₂ hnested fun _ _ hp => hp.2
  obtain rfl := map_eq_of_forall₂ hpolls fun _ _ hp => hp.2
  simp only [Entry.moveTo, Entry.withResults, List.getLast?_map]
  cases e.polls.getLast? <;> rfl

theorem group_relocate {g g' : Group} (h : (relocate options apart).GroupRel g g')
    (results : ResultIndex) {repeats repeats' : Placed → Bool}
    (hrepeats : ∀ {p p'}, (relocate options apart).event p p' → repeats p = repeats' p') :
    (g.withResults results repeats).moveTo place = g'.withResults results repeats' := by
  cases h with
  | message hp _ =>
    have same := hrepeats hp
    obtain ⟨-, rfl⟩ := hp
    rw [Group.withResults, Group.withResults, Group.moveTo, same]
    rfl
  | subagent he => rw [Group.withResults, Group.withResults, Group.moveTo, entry_relocate he]
  | parallel hes =>
    rw [Group.withResults, Group.withResults, Group.moveTo, List.map_map]
    exact congrArg _ (map_eq_map_of_forall₂ hes fun _ _ he => entry_relocate he results)

end Matching

/-- Events that are moved to other places have the same groups there. -/
theorem Assembly.groups_moveTo {place : Nat → Nat} {events : List Placed}
    (apart : ∀ p ∈ events, ∀ q ∈ events, place p.position = place q.position →
      p.position = q.position) (results : ResultIndex) (options : Options) :
    (ofPlaced (events.map (Placed.moveTo place)) results options).groups =
      (ofPlaced events results options).groups.map (Group.moveTo place) := by
  have assemblies := Matching.assemblyRel_ofPlaced (Matching.relocate_events options apart)
    (Matching.index_nil _)
  rw [groups_withResults, groups_withResults events, List.map_map]
  refine (map_eq_map_of_forall₂ (Matching.rel_groups assemblies) fun _ _ hg => ?_).symm
  exact Matching.group_relocate hg results (Matching.isRepeat_eq assemblies)

end AgentThreads
