import AgentThreads.Grouping.Role
import AgentThreads.Proofs.Grouping.Discovery

/-!
# Casting

Which role an event has among the spawns of its session. A spawn is under no other spawn, so its
call is a spawn unless it polls; and it polls only if the two tools have the same name.
-/

namespace AgentThreads

/-- A call is no result. -/
theorem Event.isResult_eq_false_of_isCallOf {tool : String} {e : Event} (h : e.isCallOf tool) :
    e.isResult = false := by
  simp only [isCallOf, isCall, Bool.and_eq_true, beq_iff_eq] at h
  simp [isResult, h.1]

/-- A call of one tool is no call of another. -/
theorem Event.eq_of_isCallOf {tool other : String} {e : Event} (h : e.isCallOf tool)
    (h' : e.isCallOf other) : tool = other := by
  simp only [isCallOf, Bool.and_eq_true, beq_iff_eq] at h h'
  exact Option.some_inj.mp (h.2.symm.trans h'.2)

namespace Role

variable {pollTool : String} {spawns : List Spawn} {p : Placed} {s : Spawn}

/-! ### What a role says -/

theorem ofPlaced_eq_result_iff : ofPlaced pollTool spawns p = .result ↔ p.event.isResult := by
  unfold ofPlaced
  repeat' split
  all_goals simp [*]

theorem ofPlaced_eq_nested_iff :
    ofPlaced pollTool spawns p = .nested s ↔
      p.event.isResult = false ∧ nestedUnder? spawns p = some s := by
  unfold ofPlaced
  repeat' split
  all_goals simp [*]

theorem ofPlaced_eq_poll_iff :
    ofPlaced pollTool spawns p = .poll s ↔
      p.event.isResult = false ∧ nestedUnder? spawns p = none ∧
        pollOf? pollTool spawns p = some s := by
  unfold ofPlaced
  repeat' split
  all_goals simp [*]

theorem ofPlaced_eq_spawn_iff :
    ofPlaced pollTool spawns p = .spawn s ↔
      p.event.isResult = false ∧ nestedUnder? spawns p = none ∧
        pollOf? pollTool spawns p = none ∧
        spawns.find? (·.call.position == p.position) = some s := by
  unfold ofPlaced
  repeat' split
  all_goals simp [*]

theorem ofPlaced_eq_message_iff :
    ofPlaced pollTool spawns p = .message ↔
      p.event.isResult = false ∧ nestedUnder? spawns p = none ∧
        pollOf? pollTool spawns p = none ∧
        spawns.find? (·.call.position == p.position) = none := by
  unfold ofPlaced
  repeat' split
  all_goals simp [*]

/-! ### Casts -/

/-- The events whose role passes a test. -/
def Cast.playing (cast : Cast) (test : Role → Bool) : List Placed :=
  (cast.filter fun x => test x.2).map (·.1)

theorem Cast.mem_playing_iff {cast : Cast} {test : Role → Bool} {p : Placed} :
    p ∈ cast.playing test ↔ ∃ role, (p, role) ∈ cast ∧ test role := by
  simp [playing]

theorem Cast.nestedUnder_eq (cast : Cast) (toolId : String) :
    cast.nestedUnder toolId = cast.playing (isNestedUnder toolId) :=
  rfl

theorem Cast.pollsOf_eq (cast : Cast) (toolId : String) :
    cast.pollsOf toolId = cast.playing (isPollOf toolId) :=
  rfl

end Role

namespace Spawn.Discovered

variable {tool pollTool : String} {events : List Placed} {spawns : List Spawn} {p : Placed}
  {s : Spawn}

/-! ### What an event is to a spawn -/

/-- An event is nested under the spawn that its parent id names, unless it is that spawn. -/
theorem nestedUnder?_eq_some_iff (h : Discovered tool events spawns) :
    Role.nestedUnder? spawns p = some s ↔
      s ∈ spawns ∧ p.event.metadata.parentId? = some s.toolId ∧ s.call.position ≠ p.position := by
  simp only [Role.nestedUnder?, Option.bind_eq_bind, Option.bind_eq_some_iff, h.find?_toolId_iff]
  constructor
  · rintro ⟨parent, hparent, t, ⟨ht, rfl⟩, hif⟩
    split at hif
    · cases hif
    · case isFalse hpos =>
      obtain rfl := Option.some_inj.mp hif
      exact ⟨ht, hparent, by simpa using hpos⟩
  · rintro ⟨hs, hparent, hpos⟩
    exact ⟨_, hparent, s, ⟨hs, rfl⟩, by simp [hpos]⟩

/-- A call of the poll tool polls the background spawn that its task id names. -/
theorem pollOf?_eq_some_iff (h : Discovered tool events spawns) :
    Role.pollOf? pollTool spawns p = some s ↔
      p.event.isCallOf pollTool ∧ s ∈ spawns ∧ s.call.event.metadata.runsInBackground ∧
        p.event.metadata.taskId? = some s.toolId := by
  unfold Role.pollOf?
  split
  · case isTrue hcall =>
    simp only [Option.bind_eq_bind, Option.bind_eq_some_iff, hcall, true_and]
    constructor
    · rintro ⟨task, htask, hf⟩
      have hp := List.find?_some hf
      simp only [Bool.and_eq_true, beq_iff_eq] at hp
      exact ⟨List.mem_of_find?_eq_some hf, hp.1, hp.2 ▸ htask⟩
    · rintro ⟨hs, hback, htask⟩
      refine ⟨_, htask, ?_⟩
      cases hf : spawns.find? fun t =>
          t.call.event.metadata.runsInBackground && t.toolId == s.toolId with
      | none => exact absurd (List.find?_eq_none.mp hf s hs) (by simp [hback])
      | some t =>
        have hp := List.find?_some hf
        simp only [Bool.and_eq_true, beq_iff_eq] at hp
        rw [List.inj_on_of_nodup_map h.ids (List.mem_of_find?_eq_some hf) hs hp.2]
  · case isFalse hcall => simp [hcall]

/-! ### What a spawn is -/

theorem nestedUnder?_call (h : Discovered tool events spawns) (hs : s ∈ spawns) :
    Role.nestedUnder? spawns s.call = none := by
  refine Option.eq_none_iff_forall_ne_some.mpr fun t ht => ?_
  obtain ⟨htm, hparent, hpos⟩ := h.nestedUnder?_eq_some_iff.mp ht
  exact hpos (by rw [h.top s hs t htm hparent])

theorem isResult_call (h : Discovered tool events spawns) (hs : s ∈ spawns) :
    s.call.event.isResult = false :=
  Event.isResult_eq_false_of_isCallOf (h.isCallOf hs)

/-- A spawn polls nothing if the two tools differ. -/
theorem pollOf?_call (h : Discovered tool events spawns) (hs : s ∈ spawns) (hne : tool ≠ pollTool) :
    Role.pollOf? pollTool spawns s.call = none := by
  unfold Role.pollOf?
  rw [if_neg]
  exact fun hcall => hne (Event.eq_of_isCallOf (h.isCallOf hs) hcall)

/-- The call of a spawn has no other role than that of the spawn or of a poll. -/
theorem ofPlaced_call_eq_poll_iff (h : Discovered tool events spawns) (hs : s ∈ spawns)
    {t : Spawn} :
    Role.ofPlaced pollTool spawns s.call = .poll t ↔
      Role.pollOf? pollTool spawns s.call = some t := by
  simp [Role.ofPlaced_eq_poll_iff, h.isResult_call hs, h.nestedUnder?_call hs]

variable (ho : Placed.InOrder events)
include ho

theorem ofPlaced_eq_spawn_iff (h : Discovered tool events spawns) (hp : p ∈ events) :
    Role.ofPlaced pollTool spawns p = .spawn s ↔
      s ∈ spawns ∧ s.call = p ∧ Role.pollOf? pollTool spawns p = none := by
  rw [Role.ofPlaced_eq_spawn_iff, h.find?_position_iff ho hp]
  constructor
  · rintro ⟨-, -, hpoll, hs, hcall⟩
    exact ⟨hs, hcall, hpoll⟩
  · rintro ⟨hs, rfl, hpoll⟩
    exact ⟨h.isResult_call hs, h.nestedUnder?_call hs, hpoll, hs, rfl⟩

end Spawn.Discovered

end AgentThreads
