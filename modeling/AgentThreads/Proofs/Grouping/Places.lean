import AgentThreads.Grouping.Placed
import Mathlib.Data.List.Nodup

/-!
# Places

The events of a session stand in the order of their places, and no two of them at one place. So a
place tells which event is meant, also among events that are equal.
-/

namespace AgentThreads

/-- Where no two elements share a key, a search for a key finds the one that has it. -/
theorem find?_key_eq_some_iff {α κ : Type} [DecidableEq κ] {key : α → κ} {l : List α}
    (h : (l.map key).Nodup) {k : κ} {a : α} :
    l.find? (fun b => key b == k) = some a ↔ a ∈ l ∧ key a = k := by
  refine ⟨fun hf => ⟨List.mem_of_find?_eq_some hf, by simpa using List.find?_some hf⟩, ?_⟩
  rintro ⟨ha, rfl⟩
  have found : (l.find? fun b => key b == key a).isSome :=
    List.find?_isSome.mpr ⟨a, ha, beq_self_eq_true (key a)⟩
  obtain ⟨b, hb⟩ := Option.isSome_iff_exists.mp found
  have same : key b = key a := by simpa using List.find?_some hb
  rw [hb, List.inj_on_of_nodup_map h (List.mem_of_find?_eq_some hb) ha same]

/-- Where the elements stand in a strict order, a search finds the first that passes the test. -/
theorem find?_eq_some_iff_first {α : Type} {R : α → α → Prop} (asymm : ∀ a b, R a b → ¬R b a)
    {l : List α} (h : l.Pairwise R) {test : α → Bool} {a : α} :
    l.find? test = some a ↔ a ∈ l ∧ test a ∧ ∀ b ∈ l, test b → b = a ∨ R a b := by
  induction l with
  | nil => simp
  | cons x l ih =>
    obtain ⟨hx, hl⟩ := List.pairwise_cons.mp h
    by_cases hpass : test x
    · rw [List.find?_cons_of_pos hpass]
      constructor
      · rintro ⟨⟩
        refine ⟨List.mem_cons_self, hpass, fun b hb _ => ?_⟩
        rcases List.mem_cons.mp hb with rfl | hb
        · exact .inl rfl
        · exact .inr (hx b hb)
      · rintro ⟨ha, -, hfirst⟩
        rcases List.mem_cons.mp ha with rfl | ha
        · rfl
        · rcases hfirst x List.mem_cons_self hpass with rfl | hax
          · rfl
          · exact absurd (hx a ha) (asymm a x hax)
    · rw [List.find?_cons_of_neg hpass, ih hl]
      constructor
      · rintro ⟨ha, hta, hfirst⟩
        refine ⟨List.mem_cons_of_mem x ha, hta, fun b hb htb => ?_⟩
        rcases List.mem_cons.mp hb with rfl | hb
        · exact absurd htb hpass
        · exact hfirst b hb htb
      · rintro ⟨ha, hta, hfirst⟩
        rcases List.mem_cons.mp ha with rfl | ha
        · exact absurd hta hpass
        · exact ⟨ha, hta, fun b hb => hfirst b (List.mem_cons_of_mem x hb)⟩

namespace Placed

/-- The events stand in the order of their places, no two at one place. -/
def InOrder (events : List Placed) : Prop :=
  events.Pairwise fun p q => p.position < q.position

/-- What stands at a place of a session. -/
theorem mem_ofEvents_iff {events : List Event} {p : Placed} :
    p ∈ ofEvents events ↔ events[p.position]? = some p.event := by
  obtain ⟨position, event⟩ := p
  simp [ofEvents, List.mem_zipIdx_iff_getElem?]

theorem map_event_ofEvents (events : List Event) : (ofEvents events).map (·.event) = events := by
  rw [ofEvents, List.map_map]
  exact events.zipIdx_map_fst 0

/-- The events of a session stand in order. -/
theorem inOrder_ofEvents (events : List Event) : InOrder (ofEvents events) := by
  have h : (events.zipIdx.map (·.2)).Pairwise (· < ·) := by
    rw [List.zipIdx_map_snd]
    exact List.pairwise_lt_range'
  rw [InOrder, ofEvents, List.pairwise_map]
  exact List.pairwise_map.mp h

namespace InOrder

variable {events : List Placed}

theorem sublist {part : List Placed} (h : InOrder events) (hs : part.Sublist events) :
    InOrder part :=
  List.Pairwise.sublist hs h

theorem nodup_positions (h : InOrder events) : (events.map (·.position)).Nodup := by
  rw [List.Nodup, List.pairwise_map]
  exact h.imp fun hlt => Nat.ne_of_lt hlt

theorem nodup (h : InOrder events) : events.Nodup :=
  h.nodup_positions.of_map _

/-- At one place stands one event. -/
theorem eq_of_position_eq (h : InOrder events) {p q : Placed} (hp : p ∈ events) (hq : q ∈ events)
    (hpq : p.position = q.position) : p = q :=
  List.inj_on_of_nodup_map h.nodup_positions hp hq hpq

/-- The others stand at other places. -/
theorem position_ne {p : Placed} {before after : List Placed} (h : InOrder (before ++ p :: after))
    {q : Placed} (hq : q ∈ before ++ after) : q.position ≠ p.position := by
  obtain ⟨-, hafter, hbefore⟩ := List.pairwise_append.mp h
  rcases List.mem_append.mp hq with hq | hq
  · exact Nat.ne_of_lt (hbefore q hq p List.mem_cons_self)
  · exact Nat.ne_of_gt ((List.pairwise_cons.mp hafter).1 q hq)

end InOrder

end Placed

end AgentThreads
