import AgentThreads.Proofs.Grouping.Emission
import AgentThreads.Proofs.Grouping.Results
import Mathlib.Data.List.Find

/-!
# Separation

Events that share no place and no id with others are apart from them. No call among them holds an id
that the others carry, so the roster of both, one after the other, is made of the two rosters, and the
spawns of both are the spawns of each.
-/

namespace AgentThreads

/-! ### A list beside another -/

/-- A list with another before it or after it. -/
def Beside {α : Type} (l rest whole : List α) : Prop :=
  whole = l ++ rest ∨ whole = rest ++ l

namespace Beside

variable {α : Type} {l rest whole : List α} (h : Beside l rest whole) {test : α → Bool}
  (hrest : ∀ a ∈ rest, test a = false)
include h hrest

/-- What is nowhere in the rest is looked for in the list alone. -/
theorem filter_eq : whole.filter test = l.filter test := by
  have none : rest.filter test = [] := List.filter_eq_nil_iff.mpr (by simpa using hrest)
  rcases h with rfl | rfl
  · rw [List.filter_append, none, List.append_nil]
  · rw [List.filter_append, none, List.nil_append]

theorem find?_eq : whole.find? test = l.find? test := by
  rw [← List.head?_filter, ← List.head?_filter, h.filter_eq hrest]

theorem any_eq : whole.any test = l.any test := by
  have none : rest.any test = false := List.any_eq_false.mpr (by simpa using hrest)
  rcases h with rfl | rfl
  · rw [List.any_append, none, Bool.or_false]
  · rw [List.any_append, none, Bool.false_or]

end Beside

/-! ### Events apart -/

/-- The ids that an event carries: its own, its parent's and its task's. -/
def Event.ids (e : Event) : List String :=
  e.metadata.toolId?.toList ++ e.metadata.parentId?.toList ++ e.metadata.taskId?.toList

theorem Event.toolId_mem_ids {e : Event} {id : String} (h : e.metadata.toolId? = some id) :
    id ∈ e.ids := by
  simp [ids, h]

theorem Event.parentId_mem_ids {e : Event} {id : String} (h : e.metadata.parentId? = some id) :
    id ∈ e.ids := by
  simp [ids, h]

theorem Event.taskId_mem_ids {e : Event} {id : String} (h : e.metadata.taskId? = some id) :
    id ∈ e.ids := by
  simp [ids, h]

/-- A spawn call carries its id. -/
theorem Spawn.toolId_mem_ids {tool : String} {s : Spawn} (h : ofPlaced? tool s.call = some s) :
    s.toolId ∈ s.call.event.ids :=
  Event.toolId_mem_ids (ofPlaced?_eq_some_iff.mp h).2.1

/-- No event shares its place or one of its ids with one of the others. -/
def Placed.Apart (events others : List Placed) : Prop :=
  ∀ p ∈ events, ∀ q ∈ others, p.position ≠ q.position ∧ ∀ id ∈ p.event.ids, id ∉ q.event.ids

theorem Placed.Apart.symm {events others : List Placed} (h : Apart events others) :
    Apart others events := by
  intro q hq p hp
  obtain ⟨place, ids⟩ := h p hp q hq
  exact ⟨place.symm, fun id hid hid' => ids id hid' hid⟩

/-! ### The roster -/

namespace Roster

/-- A roster and another after it. -/
def append (r later : Roster) : Roster :=
  ⟨r.holders ++ later.holders, r.repeats ++ later.repeats⟩

theorem holder?_append (r later : Roster) (id : String) :
    (r.append later).holder? id = (r.holder? id).or (later.holder? id) :=
  List.find?_append

/-- A call whose id is not held yet is entered behind. -/
theorem append_enter {r : Roster} {s : Spawn} (hs : r.holder? s.toolId = none) (later : Roster) :
    (r.append later).enter s = r.append (later.enter s) := by
  have held : (r.append later).holder? s.toolId = later.holder? s.toolId := by
    rw [holder?_append, hs, Option.none_or]
  unfold enter
  rw [held]
  cases later.holder? s.toolId <;> simp [append]

theorem append_foldl_enter {r : Roster} {calls : List Spawn}
    (hcalls : ∀ s ∈ calls, r.holder? s.toolId = none) (later : Roster) :
    calls.foldl enter (r.append later) = r.append (calls.foldl enter later) := by
  induction calls generalizing later with
  | nil => rfl
  | cons s calls ih =>
    rw [List.foldl_cons, append_enter (hcalls s List.mem_cons_self)]
    exact ih (fun t ht => hcalls t (List.mem_cons_of_mem s ht)) _

/-- Whether a call is under another depends on who holds its parent's id. -/
theorem isTopLevel_congr {r r' : Roster} {s : Spawn}
    (h : ∀ parent, s.call.event.metadata.parentId? = some parent →
      r.holder? parent = r'.holder? parent) : r.isTopLevel s = r'.isTopLevel s := by
  unfold isTopLevel
  cases hparent : s.call.event.metadata.parentId? with
  | none => rfl
  | some parent => simp only [h parent hparent]

variable {tool : String} {events others : List Placed}

theorem holder?_eq_none_of_ids {id : String} (h : ∀ p ∈ events, id ∉ p.event.ids) :
    (ofPlaced tool events).holder? id = none :=
  holder?_eq_none_iff.mpr fun p hp _ hid => h p hp (Event.toolId_mem_ids hid)

variable (apart : Placed.Apart events others)
include apart

/-- The roster of events that are apart from those before them is that of both. -/
theorem ofPlaced_append :
    ofPlaced tool (events ++ others) = (ofPlaced tool events).append (ofPlaced tool others) := by
  have new : ∀ s ∈ Spawn.callsAmong tool others, (ofPlaced tool events).holder? s.toolId = none := by
    intro s hs
    obtain ⟨hq, hcall⟩ := Spawn.mem_callsAmong_iff.mp hs
    exact holder?_eq_none_of_ids fun p hp hid =>
      (apart p hp s.call hq).2 s.toolId hid (Spawn.toolId_mem_ids hcall)
  have empty : (ofPlaced tool events).append {} = ofPlaced tool events := by simp [append]
  rw [ofPlaced, List.filterMap_append, List.foldl_append]
  change (Spawn.callsAmong tool others).foldl enter (ofPlaced tool events) = _
  rw [← empty, append_foldl_enter new, empty]
  rfl

/-- A call is under no call that is apart from it. -/
theorem holder?_parent_eq_none {s : Spawn} (hs : s ∈ (ofPlaced tool events).holders)
    {parent : String} (hparent : s.call.event.metadata.parentId? = some parent) :
    (ofPlaced tool others).holder? parent = none := by
  have calls := (records_ofPlaced tool events).sublist.subset hs
  have hp := (Spawn.mem_callsAmong_iff.mp calls).1
  exact holder?_eq_none_of_ids fun q hq =>
    (apart s.call hp q hq).2 parent (Event.parentId_mem_ids hparent)

/-- The spawns of events that are apart from those before them come after the spawns of those. -/
theorem spawns_append : (ofPlaced tool (events ++ others)).spawns =
    (ofPlaced tool events).spawns ++ (ofPlaced tool others).spawns := by
  rw [ofPlaced_append apart, spawns, append, List.filter_append]
  congr 1
  · refine List.filter_congr fun s hs => isTopLevel_congr fun parent hparent => ?_
    rw [← append, holder?_append, holder?_parent_eq_none apart hs hparent, Option.or_none]
  · refine List.filter_congr fun s hs => isTopLevel_congr fun parent hparent => ?_
    rw [← append, holder?_append, holder?_parent_eq_none apart.symm hs hparent, Option.none_or]

end Roster

end AgentThreads
