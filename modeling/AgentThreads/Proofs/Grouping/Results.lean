import AgentThreads.Grouping.ResultIndex
import AgentThreads.Proofs.Keyed

/-!
# The results that an index finds

A search by a key finds what was last inserted under it. So an index of results finds, for a tool
id, the last result that carries it.
-/

namespace AgentThreads

namespace ResultIndex

/-- The event is a result that carries a tool id. -/
def answers (toolId : String) (p : Placed) : Bool :=
  p.event.isResult && p.event.metadata.toolId? == some toolId

theorem find?_enter (index : ResultIndex) (p : Placed) (toolId : String) :
    (enter index p).find? toolId = if answers toolId p then some p else index.find? toolId := by
  unfold enter answers
  cases hres : p.event.isResult with
  | false => simp
  | true =>
    cases hid : p.event.metadata.toolId? with
    | none => simp
    | some id =>
      simp only [Bool.true_and, beq_iff_eq, Option.some.injEq, find?, Keyed.find?_insert]
      by_cases heq : toolId = id
      · simp [heq]
      · simp [heq, Ne.symm heq]

/-- An index finds the last result entered that carries the tool id. -/
theorem find?_foldl_enter (events : List Placed) (index : ResultIndex) (toolId : String) :
    (events.foldl enter index).find? toolId =
      (events.reverse.find? (answers toolId)).or (index.find? toolId) := by
  induction events generalizing index with
  | nil => simp
  | cons p events ih =>
    rw [List.foldl_cons, ih, find?_enter, List.reverse_cons, List.find?_append, Option.or_assoc]
    by_cases h : answers toolId p <;> simp [h]

/-- The index of events finds the last result among them that carries the tool id. -/
theorem find?_ofPlaced (events : List Placed) (toolId : String) :
    (ofPlaced events).find? toolId = events.reverse.find? (answers toolId) := by
  rw [ofPlaced, find?_foldl_enter]
  exact Option.or_none

/-! ### The entries of an index -/

theorem sorted_enter {index : ResultIndex} (h : Keyed.Sorted index) (p : Placed) :
    Keyed.Sorted (enter index p) := by
  unfold enter
  split
  · exact h.insert ..
  · exact h

/-- An index is in order by tool id. -/
theorem sorted_ofPlaced (events : List Placed) : Keyed.Sorted (ofPlaced events) :=
  List.foldlRecOn events enter Keyed.sorted_nil fun _ h p _ => sorted_enter h p

/-- What an index holds are events that were entered. -/
theorem mem_of_mem_ofPlaced {events : List Placed} {m : String × Placed}
    (hm : m ∈ ofPlaced events) : m.2 ∈ events := by
  have held : ∀ m ∈ ofPlaced events, m.2 ∈ events := by
    refine List.foldlRecOn (motive := fun index => ∀ m ∈ index, m.2 ∈ events) events enter ?_ ?_
    · intro m hm
      cases hm
    · intro index h p hp m hm
      unfold enter at hm
      split at hm
      · rcases Keyed.mem_of_mem_insert hm with rfl | hm
        · exact hp
        · exact h m hm
      · exact h m hm
  exact held m hm

end ResultIndex

end AgentThreads
