import AgentThreads.Proofs.Grouping.Matching

/-!
# Shifting

Where a session begins does not matter to its groups. Events that are moved on by some places
correspond to themselves, so their groups are the same groups, moved on.
-/

namespace AgentThreads

open List (Forall₂)

/-- The event, so many places further on. -/
def Placed.shift (places : Nat) (p : Placed) : Placed :=
  ⟨p.position + places, p.event⟩

/-- The spawn, so many places further on. -/
def Spawn.shift (places : Nat) (s : Spawn) : Spawn :=
  ⟨s.call.shift places, s.toolId⟩

/-- The entry, so many places further on. -/
def Entry.shift (places : Nat) (e : Entry) : Entry where
  spawn := e.spawn.shift places
  result := e.result.map (Placed.shift places)
  nested := e.nested.map (Placed.shift places)
  polls := e.polls.map (Placed.shift places)
  lastPollStatus := e.lastPollStatus

/-- The group, so many places further on. -/
def Group.shift (places : Nat) : Group → Group
  | message event result => message (event.shift places) (result.map (Placed.shift places))
  | subagent entry => subagent (entry.shift places)
  | parallel entries => parallel (entries.map (Entry.shift places))

/-- The events of two sessions, one after the other. -/
theorem Placed.ofEvents_append (before after : List Event) :
    ofEvents (before ++ after) =
      ofEvents before ++ (ofEvents after).map (shift before.length) := by
  unfold ofEvents
  rw [List.zipIdx_append, List.map_append, Nat.zero_add]
  congr 1
  rw [List.zipIdx_eq_map_add, List.map_map, List.map_map]
  refine List.map_congr_left fun x _ => ?_
  rw [Function.comp_apply, Function.comp_apply, shift, Nat.add_comm]

/-! ### Images -/

theorem map_eq_map_of_forall₂ {α β γ : Type} {R : α → β → Prop} {f : α → γ} {g : β → γ}
    {l : List α} {l' : List β} (h : Forall₂ R l l') (hfg : ∀ a b, R a b → f a = g b) :
    l.map f = l'.map g := by
  rw [← List.forall₂_eq_eq_eq, List.forall₂_map_left_iff, List.forall₂_map_right_iff]
  exact h.imp hfg

theorem map_eq_of_forall₂ {α β : Type} {R : α → β → Prop} {f : α → β}
    {l : List α} {l' : List β} (h : Forall₂ R l l') (hf : ∀ a b, R a b → f a = b) :
    l.map f = l' :=
  (map_eq_map_of_forall₂ (g := id) h hf).trans l'.map_id

theorem map_eq_of_rel {α β : Type} {R : α → β → Prop} {f : α → β} {a : Option α} {b : Option β}
    (h : Option.Rel R a b) (hf : ∀ a b, R a b → f a = b) : a.map f = b := by
  cases h with
  | none => rfl
  | some hab => rw [Option.map_some, hf _ _ hab]

theorem rel_eq_refl {α : Type} : ∀ a : Option α, Option.Rel Eq a a
  | none => .none
  | some _ => .some rfl

/-! ### Moved sessions -/

namespace Matching

/-- An event corresponds to itself, so many places further on. -/
def shift (options : Options) (places : Nat) : Matching options options where
  event p p' := p.shift places = p'
  id := Eq
  id_iff := by rintro i _ j _ rfl rfl; rfl
  place_iff := by rintro p _ q _ rfl rfl; exact Nat.add_right_cancel_iff.symm
  isResult := by rintro p _ rfl; rfl
  isCall := by rintro p _ rfl; rfl
  isSpawnCall := by rintro p _ rfl; rfl
  isPollCall := by rintro p _ rfl; rfl
  background := by rintro p _ rfl; rfl
  status := by rintro p _ rfl; rfl
  toolId? := by rintro p _ rfl; exact rel_eq_refl _
  parentId? := by rintro p _ rfl; exact rel_eq_refl _
  taskId? := by rintro p _ rfl; exact rel_eq_refl _
  near_iff := by rintro p _ q _ rfl rfl _ _; rfl

theorem shift_events (options : Options) (places : Nat) (events : List Placed) :
    Forall₂ (shift options places).event events (events.map (Placed.shift places)) :=
  List.forall₂_map_right_iff.mpr (List.forall₂_same.mpr fun _ _ => rfl)

variable {options : Options} {places : Nat}

theorem spawn_shift {s s' : Spawn} (h : (shift options places).spawn s s') :
    s.shift places = s' := by
  obtain ⟨call, toolId⟩ := s'
  obtain ⟨hcall, hid, -⟩ := h
  rw [Spawn.shift, hcall, hid]

theorem entry_shift {e e' : Entry} (h : (shift options places).EntryRel e e') :
    e.shift places = e' := by
  obtain ⟨spawn, result, nested, polls, status⟩ := e'
  obtain ⟨hspawn, hresult, hnested, hpolls, hstatus⟩ := h
  rw [Entry.shift, hspawn, hstatus, map_eq_of_rel hresult fun _ _ heq => heq,
    map_eq_of_forall₂ hnested fun _ _ heq => heq, map_eq_of_forall₂ hpolls fun _ _ heq => heq]

theorem group_shift {g g' : Group} (h : (shift options places).GroupRel g g') :
    g.shift places = g' := by
  cases h with
  | message hp hr => rw [Group.shift, hp, map_eq_of_rel hr fun _ _ heq => heq]
  | subagent he => rw [Group.shift, entry_shift he]
  | parallel hes => rw [Group.shift, map_eq_of_forall₂ hes fun _ _ => entry_shift]

end Matching

/-- The spawns of events that are moved on. -/
theorem Roster.spawns_shift (options : Options) (places : Nat) (events : List Placed) :
    (ofPlaced options.spawnTool (events.map (Placed.shift places))).spawns =
      (ofPlaced options.spawnTool events).spawns.map (Spawn.shift places) := by
  have rosters := Matching.roster_ofPlaced (Matching.shift_events options places events)
  exact (map_eq_of_forall₂ (Matching.rel_spawns rosters) fun _ _ => Matching.spawn_shift).symm

/-- The result that a call has among events that are moved on. -/
theorem ResultIndex.resultOf_shift (places : Nat) (events : List Placed) (p : Placed) :
    (ofPlaced (events.map (Placed.shift places))).resultOf p.event =
      ((ofPlaced events).resultOf p.event).map (Placed.shift places) := by
  have moved := Matching.shift_events {} places events
  have result := Matching.rel_resultOf (p := p) (Matching.index_ofPlaced moved) rfl
  exact (map_eq_of_rel result fun _ _ heq => heq).symm

/-- The groups of events that are moved on. -/
theorem Assembly.groups_shift (options : Options) (places : Nat) (events : List Placed) :
    (ofPlaced (events.map (Placed.shift places))
      (ResultIndex.ofPlaced (events.map (Placed.shift places))) options).groups =
    (ofPlaced events (ResultIndex.ofPlaced events) options).groups.map (Group.shift places) := by
  have moved := Matching.shift_events options places events
  have assemblies := Matching.assemblyRel_ofPlaced moved (Matching.index_ofPlaced moved)
  exact (map_eq_of_forall₂ (Matching.rel_groups assemblies) fun _ _ => Matching.group_shift).symm

end AgentThreads
