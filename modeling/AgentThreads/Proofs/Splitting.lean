import Mathlib.Data.List.Basic

/-!
# Lists split at a mark

A part of a list in which the mark does not occur stays in one piece: in front of a list it goes to the
first piece, behind it to the last. Lines and the components of paths are such pieces.
-/

namespace AgentThreads

variable {α : Type} [BEq α] [LawfulBEq α] {mark : α}

theorem splitOn_cons_of_ne {a : α} (h : a ≠ mark) (l : List α) :
    (a :: l).splitOn mark = (l.splitOn mark).modifyHead (a :: ·) := by
  rw [List.splitOn_cons_eq_if_modifyHead, if_neg (by simpa using h)]

theorem splitOn_mark_cons (l : List α) : (mark :: l).splitOn mark = [] :: l.splitOn mark :=
  List.splitOn_append_cons_self [] l

/-- There is one piece more than there are marks. -/
theorem length_splitOn (l : List α) : (l.splitOn mark).length = l.count mark + 1 := by
  induction l with
  | nil => rfl
  | cons a l ih =>
    by_cases h : a = mark
    · subst h
      rw [splitOn_mark_cons, List.length_cons, ih, List.count_cons_self]
    · rw [splitOn_cons_of_ne h, List.length_modifyHead, ih, List.count_cons_of_ne h]

/-- What is put in front of a list goes to its first piece. -/
theorem splitOn_append_left {u : List α} (hu : mark ∉ u) (l : List α) :
    ∃ first rest, l.splitOn mark = first :: rest ∧
      (u ++ l).splitOn mark = (u ++ first) :: rest := by
  induction u with
  | nil =>
    obtain ⟨first, rest, hl⟩ := List.exists_cons_of_ne_nil (List.splitOn_ne_nil mark l)
    exact ⟨first, rest, hl, hl⟩
  | cons a u ih =>
    rw [List.mem_cons, not_or] at hu
    obtain ⟨first, rest, hl, hul⟩ := ih hu.2
    refine ⟨first, rest, hl, ?_⟩
    rw [List.cons_append, splitOn_cons_of_ne (Ne.symm hu.1), hul]
    rfl

/-- What is put behind a list goes to its last piece. -/
theorem splitOn_append_right (l : List α) {v : List α} (hv : mark ∉ v) :
    ∃ before last, l.splitOn mark = before ++ [last] ∧
      (l ++ v).splitOn mark = before ++ [last ++ v] := by
  induction l with
  | nil => exact ⟨[], [], rfl, List.splitOn_eq_singleton hv⟩
  | cons a l ih =>
    obtain ⟨before, last, hl, hlv⟩ := ih
    by_cases h : a = mark
    · subst h
      refine ⟨[] :: before, last, ?_, ?_⟩
      · rw [splitOn_mark_cons, hl, List.cons_append]
      · rw [List.cons_append, splitOn_mark_cons, hlv, List.cons_append]
    · rw [List.cons_append, splitOn_cons_of_ne h, splitOn_cons_of_ne h, hl, hlv]
      cases before with
      | nil => exact ⟨[], a :: last, rfl, rfl⟩
      | cons first before => exact ⟨(a :: first) :: before, last, rfl, rfl⟩

end AgentThreads
