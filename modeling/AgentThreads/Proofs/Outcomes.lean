import Mathlib.Data.List.Forall2

/-!
# Outcomes of steps that may fail

Readers are chains of steps of which each may fail. A chain that has begun well goes on from there,
and one that has ended well was well at each step. A step that is taken for each element of a list
fails as the first of them that fails.
-/

namespace AgentThreads

variable {ε ε' α β : Type}

@[simp] theorem ok_bind (a : α) (f : α → Except ε β) : (Except.ok a >>= f) = f a := rfl

@[simp] theorem error_bind (e : ε) (f : α → Except ε β) :
    ((Except.error e : Except ε α) >>= f) = .error e := rfl

@[simp] theorem map_ok (f : α → β) (a : α) :
    Except.map f (Except.ok a : Except ε α) = .ok (f a) := rfl

@[simp] theorem map_error (f : α → β) (e : ε) :
    Except.map f (Except.error e : Except ε α) = .error e := rfl

@[simp] theorem mapError_ok (f : ε → ε') (a : α) :
    Except.mapError f (Except.ok a : Except ε α) = .ok a := rfl

@[simp] theorem mapError_error (f : ε → ε') (e : ε) :
    Except.mapError f (Except.error e : Except ε α) = .error (f e) := rfl

/-- A chain ends well if its first step does and the rest does. -/
theorem bind_eq_ok_iff {x : Except ε α} {f : α → Except ε β} {b : β} :
    (x >>= f) = .ok b ↔ ∃ a, x = .ok a ∧ f a = .ok b := by
  cases x with
  | error e => simp
  | ok a => simp

theorem map_eq_ok_iff {x : Except ε α} {f : α → β} {b : β} :
    Except.map f x = .ok b ↔ ∃ a, x = .ok a ∧ f a = b := by
  cases x with
  | error e => simp
  | ok a => simp

theorem mapError_eq_ok_iff {x : Except ε α} {f : ε → ε'} {a : α} :
    Except.mapError f x = .ok a ↔ x = .ok a := by
  cases x with
  | error e => simp
  | ok b => simp

/-- A chain with a check in front ends well if the check does not stop it and the rest ends well. -/
theorem check_eq_ok_iff {c : Prop} [Decidable c] {e : ε} {x : Except ε α} {a : α} :
    (if c then (do throw e; x) else x) = .ok a ↔ ¬c ∧ x = .ok a := by
  by_cases h : c
  · rw [if_pos h]
    constructor
    · intro stopped
      cases stopped
    · exact fun ok => absurd h ok.1
  · rw [if_neg h]
    exact ⟨fun ok => ⟨h, ok⟩, fun ok => ok.2⟩

/-! ### A step for each element -/

theorem mapM_eq_ok_iff {f : α → Except ε β} {l : List α} {l' : List β} :
    l.mapM f = .ok l' ↔ List.Forall₂ (fun a b => f a = .ok b) l l' := by
  induction l generalizing l' with
  | nil =>
    rw [List.mapM_nil, List.forall₂_nil_left_iff]
    constructor
    · rintro ⟨⟩
      rfl
    · rintro rfl
      rfl
  | cons a l ih =>
    simp only [List.mapM_cons, bind_eq_ok_iff, ih, List.forall₂_cons_left_iff]
    constructor
    · rintro ⟨b, hb, rest, hrest, ⟨⟩⟩
      exact ⟨b, rest, hb, hrest, rfl⟩
    · rintro ⟨b, rest, hb, hrest, rfl⟩
      exact ⟨b, hb, rest, hrest, rfl⟩

/-- If all steps end well, each of them does. -/
theorem exists_of_mem_of_mapM_eq_ok {f : α → Except ε β} {l : List α} {l' : List β}
    (h : l.mapM f = .ok l') {a : α} (ha : a ∈ l) : ∃ b, f a = .ok b := by
  have steps := mapM_eq_ok_iff.mp h
  clear h
  induction steps with
  | nil => cases ha
  | cons hstep _ ih =>
    rcases List.mem_cons.mp ha with rfl | ha
    · exact ⟨_, hstep⟩
    · exact ih ha

theorem mapM_cons_eq_error_iff {f : α → Except ε β} {a : α} {l : List α} {e : ε} :
    (a :: l).mapM f = .error e ↔
      f a = .error e ∨ (∃ b, f a = .ok b) ∧ l.mapM f = .error e := by
  rw [List.mapM_cons]
  cases f a with
  | error e' => simp
  | ok b => cases l.mapM f <;> simp

theorem mapM_eq_error_iff {f : α → Except ε β} {l : List α} {e : ε} :
    l.mapM f = .error e ↔ ∃ earlier a later, l = earlier ++ a :: later ∧
      (∀ b ∈ earlier, ∃ c, f b = .ok c) ∧ f a = .error e := by
  induction l with
  | nil =>
    constructor
    · rintro ⟨⟩
    · rintro ⟨earlier, a, later, hl, -⟩
      cases earlier <;> cases hl
  | cons x l ih =>
    rw [mapM_cons_eq_error_iff, ih]
    constructor
    · rintro (hx | ⟨hx, earlier, a, later, rfl, well, ha⟩)
      · exact ⟨[], x, l, rfl, by simp, hx⟩
      · exact ⟨x :: earlier, a, later, rfl, List.forall_mem_cons.mpr ⟨hx, well⟩, ha⟩
    · rintro ⟨earlier, a, later, hl, well, ha⟩
      cases earlier with
      | nil =>
        obtain ⟨rfl, -⟩ := List.cons.inj hl
        exact .inl ha
      | cons b earlier =>
        obtain ⟨rfl, rfl⟩ := List.cons.inj hl
        obtain ⟨hx, well⟩ := List.forall_mem_cons.mp well
        exact .inr ⟨hx, earlier, a, later, rfl, well, ha⟩

/-- All steps end well if each of them does. -/
theorem exists_mapM_eq_ok_iff {f : α → Except ε β} {l : List α} :
    (∃ l', l.mapM f = .ok l') ↔ ∀ a ∈ l, ∃ b, f a = .ok b := by
  constructor
  · rintro ⟨l', h⟩ a ha
    exact exists_of_mem_of_mapM_eq_ok h ha
  · intro h
    cases hall : l.mapM f with
    | ok l' => exact ⟨l', rfl⟩
    | error e =>
      obtain ⟨earlier, a, later, rfl, -, ha⟩ := mapM_eq_error_iff.mp hall
      obtain ⟨b, hb⟩ := h a (by simp)
      rw [ha] at hb
      cases hb

/-- Once a step fails, the elements after it do not matter. -/
theorem mapM_append_cons_eq {f g : α → Except ε β} {earlier later later' : List α} {a : α} {e : ε}
    (hearlier : ∀ b ∈ earlier, f b = g b) (ha : f a = g a) (hfailed : f a = .error e) :
    (earlier ++ a :: later).mapM f = (earlier ++ a :: later').mapM g := by
  induction earlier with
  | nil =>
    rw [List.nil_append, List.nil_append, List.mapM_cons, List.mapM_cons, ← ha, hfailed, error_bind,
      error_bind]
  | cons b earlier ih =>
    obtain ⟨hb, hearlier⟩ := List.forall_mem_cons.mp hearlier
    rw [List.cons_append, List.cons_append, List.mapM_cons, List.mapM_cons, hb, ih hearlier]

end AgentThreads
