import AgentThreads.Proofs.Grouping.Separation
import AgentThreads.Proofs.Grouping.Shifting

/-!
# Renaming

Identifiers are opaque. Two sessions whose events stand in step, where the ids of the second are those
of the first under a renaming that keeps them apart, have groups in step: of ids a grouping reads only
which are equal, of tool names only whether they are the two that it knows, of times only how far
apart spawn calls are, and of names, contents and other keys nothing.
-/

namespace AgentThreads

open List (Forall₂)

/-- The ids of the second event are those of the first renamed, and else a grouping reads the same of
both. -/
structure Event.Renamed (ρ : String → String) (o o' : Options) (e e' : Event) : Prop where
  /-- They are of one kind. -/
  kind : e'.kind = e.kind
  /-- Both run in the background, or neither. -/
  background : e'.metadata.runsInBackground = e.metadata.runsInBackground
  /-- They have one status. -/
  status : e'.metadata.status = e.metadata.status
  /-- Both call the spawn tool of their session, or neither. -/
  isSpawnCall : e'.isCallOf o'.spawnTool = e.isCallOf o.spawnTool
  /-- Both call the poll tool of their session, or neither. -/
  isPollCall : e'.isCallOf o'.pollTool = e.isCallOf o.pollTool
  /-- The tool id is renamed. -/
  toolId? : e'.metadata.toolId? = e.metadata.toolId?.map ρ
  /-- The parent's id is renamed. -/
  parentId? : e'.metadata.parentId? = e.metadata.parentId?.map ρ
  /-- The task's id is renamed. -/
  taskId? : e'.metadata.taskId? = e.metadata.taskId?.map ρ

/-- The ids that the events of a session carry. -/
def Session.ids (events : List Event) : List String :=
  events.flatMap Event.ids

/-- The two sessions are in step, the ids of the second being those of the first renamed. -/
structure Session.Renamed (ρ : String → String) (o o' : Options) (events events' : List Event) :
    Prop where
  /-- The sessions have one threshold. -/
  threshold : o'.thresholdMs = o.thresholdMs
  /-- Ids that differ are renamed to ids that differ. -/
  apart : ∀ i ∈ ids events, ∀ j ∈ ids events, ρ i = ρ j → i = j
  /-- Spawn calls are as far from each other in both sessions. -/
  distance : ∀ x ∈ events.zip events', ∀ y ∈ events.zip events',
    x.1.isCallOf o.spawnTool → y.1.isCallOf o.spawnTool →
      Instant.millisBetween y.2.time x.2.time = Instant.millisBetween y.1.time x.1.time
  /-- Each event is renamed. -/
  events : Forall₂ (Event.Renamed ρ o o') events events'

/-! ### Events put in place of others -/

/-- The event that stands at the same place in a session. -/
def Placed.standIn (events : List Event) (p : Placed) : Placed :=
  ⟨p.position, events.getD p.position p.event⟩

/-- The entry with other events in place of its own. -/
def Entry.replace (f : Placed → Placed) (e : Entry) : Entry where
  spawn := f e.spawn
  result := e.result.map f
  nested := e.nested.map f
  polls := e.polls.map f
  lastPollStatus := e.lastPollStatus

/-- The group with other events in place of its own. -/
def Group.replace (f : Placed → Placed) : Group → Group
  | message event result => message (f event) (result.map f)
  | subagent entry => subagent (entry.replace f)
  | parallel entries => parallel (entries.map (Entry.replace f))

namespace Placed

variable {events events' : List Event} {p p' : Placed}

/-- The events stand at one place of two sessions. -/
def AtOnePlace (events events' : List Event) (p p' : Placed) : Prop :=
  p.position = p'.position ∧ events[p.position]? = some p.event ∧
    events'[p.position]? = some p'.event

theorem AtOnePlace.mem_zip (h : AtOnePlace events events' p p') :
    (p.event, p'.event) ∈ events.zip events' := by
  obtain ⟨-, here, there⟩ := h
  apply List.mem_of_getElem? (i := p.position)
  rw [List.getElem?_zip_eq_some]
  exact ⟨here, there⟩

theorem AtOnePlace.standIn_eq (h : AtOnePlace events events' p p') : p.standIn events' = p' := by
  obtain ⟨position, event⟩ := p'
  obtain ⟨rfl, -, there⟩ := h
  rw [standIn, List.getD_eq_getElem?_getD, there, Option.getD_some]

/-- What an event of a session carries, the session carries. -/
theorem AtOnePlace.mem_ids (h : AtOnePlace events events' p p') {i : String}
    (hi : i ∈ p.event.ids) : i ∈ Session.ids events := by
  apply List.mem_flatMap.mpr
  exact ⟨p.event, List.mem_of_getElem? h.2.1, hi⟩

theorem forall₂_atOnePlace (h : events.length = events'.length) :
    Forall₂ (AtOnePlace events events') (ofEvents events) (ofEvents events') := by
  rw [List.forall₂_iff_get]
  refine ⟨by simp [ofEvents, h], fun i hi hi' => ?_⟩
  simp only [ofEvents, List.length_map, List.length_zipIdx] at hi hi'
  simp [AtOnePlace, ofEvents, hi, hi']

end Placed

namespace Matching

section Replaced

variable {o o' : Options} {m : Matching o o'} {f : Placed → Placed}
  (hf : ∀ {p p'}, m.event p p' → f p = p')
include hf

theorem replace_entry {e e' : Entry} (h : m.EntryRel e e') : e.replace f = e' := by
  obtain ⟨spawn, result, nested, polls, status⟩ := e'
  obtain ⟨hspawn, hresult, hnested, hpolls, hstatus⟩ := h
  rw [Entry.replace, hf hspawn, hstatus, map_eq_of_rel hresult fun _ _ hp => hf hp,
    map_eq_of_forall₂ hnested fun _ _ hp => hf hp, map_eq_of_forall₂ hpolls fun _ _ hp => hf hp]

/-- Where each event corresponds to one event only, so does each group to one group. -/
theorem replace_group {g g' : Group} (h : m.GroupRel g g') : g.replace f = g' := by
  cases h with
  | message hp hr => rw [Group.replace, hf hp, map_eq_of_rel hr fun _ _ hp => hf hp]
  | subagent he => rw [Group.replace, replace_entry hf he]
  | parallel hes => rw [Group.replace, map_eq_of_forall₂ hes fun _ _ he => replace_entry hf he]

end Replaced

section Renamed

variable {ρ : String → String} {o o' : Options} {events events' : List Event}

theorem rel_map {a a' : Option String} (ha : a' = a.map ρ)
    (mem : ∀ i, a = some i → i ∈ Session.ids events) :
    Option.Rel (fun i i' => i ∈ Session.ids events ∧ ρ i = i') a a' := by
  subst ha
  cases a with
  | none => exact .none
  | some i => exact .some ⟨mem i rfl, rfl⟩

variable (h : Session.Renamed ρ o o' events events')
include h

theorem renamed_of_atOnePlace {p p' : Placed} (hp : Placed.AtOnePlace events events' p p') :
    Event.Renamed ρ o o' p.event p'.event :=
  (List.forall₂_iff_zip.mp h.events).2 hp.mem_zip

/-- Events at one place correspond, and so do ids of which one is renamed to the other. -/
def ofRenamed : Matching o o' where
  event := Placed.AtOnePlace events events'
  id i i' := i ∈ Session.ids events ∧ ρ i = i'
  id_iff := by
    rintro i _ j _ ⟨hi, rfl⟩ ⟨hj, rfl⟩
    exact ⟨congrArg ρ, h.apart i hi j hj⟩
  place_iff := by
    intro p p' q q' hp hq
    rw [hp.1, hq.1]
  isResult := by
    intro p p' hp
    rw [Event.isResult, Event.isResult, (renamed_of_atOnePlace h hp).kind]
  isCall := by
    intro p p' hp
    rw [Event.isCall, Event.isCall, (renamed_of_atOnePlace h hp).kind]
  isSpawnCall := by
    intro p p' hp
    exact (renamed_of_atOnePlace h hp).isSpawnCall.symm
  isPollCall := by
    intro p p' hp
    exact (renamed_of_atOnePlace h hp).isPollCall.symm
  background := by
    intro p p' hp
    exact (renamed_of_atOnePlace h hp).background.symm
  status := by
    intro p p' hp
    exact (renamed_of_atOnePlace h hp).status.symm
  toolId? := by
    intro p p' hp
    apply rel_map (renamed_of_atOnePlace h hp).toolId?
    exact fun i hi => hp.mem_ids (Event.toolId_mem_ids hi)
  parentId? := by
    intro p p' hp
    apply rel_map (renamed_of_atOnePlace h hp).parentId?
    exact fun i hi => hp.mem_ids (Event.parentId_mem_ids hi)
  taskId? := by
    intro p p' hp
    apply rel_map (renamed_of_atOnePlace h hp).taskId?
    exact fun i hi => hp.mem_ids (Event.taskId_mem_ids hi)
  near_iff := by
    intro p p' q q' hp hq hcall hcall'
    rw [h.distance _ hp.mem_zip _ hq.mem_zip hcall hcall', h.threshold]

end Renamed

end Matching

/-- **Renaming**: sessions in step, the ids of the second being those of the first renamed, have the
same groups position by position: those of the second are those of the first with the events of the
second in their places. -/
theorem Grouping.groups_of_renamed (ρ : String → String) (o o' : Options)
    (events events' : List Event) (h : Session.Renamed ρ o o' events events') :
    (ofEvents events' o').groups =
      (ofEvents events o).groups.map (Group.replace (Placed.standIn events')) := by
  have inStep : Forall₂ (Matching.ofRenamed h).event _ _ :=
    Placed.forall₂_atOnePlace h.events.length_eq
  have assemblies := Matching.assemblyRel_ofPlaced inStep (Matching.index_ofPlaced inStep)
  symm
  apply map_eq_of_forall₂ (Matching.rel_groups assemblies)
  intro g g' hg
  exact Matching.replace_group (m := Matching.ofRenamed h) Placed.AtOnePlace.standIn_eq hg

/-- Two parallel subagents, one with a nested call and one with a poll. The renaming exchanges the
ids of the spawns, so their results stand in the index the other way round; the tools, the contents
and the times are others too. -/
theorem Grouping.groups_of_renamed_exchanged :
    let exchange (i : String) : String := if i = "a" then "b" else if i = "b" then "a" else i
    let event (kind : Event.Kind) (tool id parent task : String) (seconds : Int) : Event :=
      { id := some tool, kind, time := ⟨seconds, 0⟩, content := .int seconds,
        metadata :=
          { toolId := some id, toolName := some tool, parentId := some parent, taskId := some task,
            background := some true, status := some "done" } }
    let session (spawn poll a b : String) (start : Int) : List Event :=
      [event .toolCall spawn a "" "" start, event .toolCall spawn b "" "" (start + 1),
        event .toolCall "Read" "c" b "" 0, event .toolCall poll "p" "" a start,
        event .toolResult "" b "" "" 7, event .toolResult "" a a b 8,
        event .toolResult "" "p" "" "" 9]
    let options : Options := {}
    let options' : Options := { spawnTool := "Agent", pollTool := "Wait" }
    let events := session "Task" "TaskOutput" "a" "b" 0
    let events' := session "Agent" "Wait" "b" "a" 3600
    Session.Renamed exchange options options' events events' ∧
      (ofEvents events' options').groups =
        (ofEvents events options).groups.map (Group.replace (Placed.standIn events')) := by
  intro exchange event session options options' events events'
  have h : Session.Renamed exchange options options' events events' := by
    refine ⟨rfl, by decide +kernel, by decide +kernel, ?_⟩
    repeat' constructor
  exact ⟨h, groups_of_renamed exchange options options' events events' h⟩

end AgentThreads
