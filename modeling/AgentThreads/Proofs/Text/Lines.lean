import AgentThreads.Proofs.Splitting
import AgentThreads.Text.Blank
import Mathlib.Data.List.TakeWhile

/-!
# Lines and the blanks around them

A text that is cut behind a line feed has the lines of its two parts, one after the other. A text that
does not begin or end a line changes one line only, so blanks that are put at the start or at the end of
a line leave all lines the same once they are trimmed.
-/

namespace AgentThreads.Text

/-! ### Trimming -/

theorem trimStart_blanks_append {u : List Char} (hu : ∀ c ∈ u, isBlank c) (s : List Char) :
    trimStart (u ++ s) = trimStart s :=
  List.dropWhile_append_of_pos hu

/-- Blanks in front are taken away. -/
theorem trim_blanks_append {u : List Char} (hu : ∀ c ∈ u, isBlank c) (s : List Char) :
    trim (u ++ s) = trim s := by
  rw [trim, trimStart_blanks_append hu, trim]

/-- Blanks behind are taken away. -/
theorem trim_append_blanks (s : List Char) {v : List Char} (hv : ∀ c ∈ v, isBlank c) :
    trim (s ++ v) = trim s := by
  have backwards : ∀ c ∈ v.reverse, isBlank c := fun c hc => hv c (List.mem_reverse.mp hc)
  have nothing : trimStart v = [] := List.dropWhile_eq_nil_iff.mpr hv
  have front : trimStart (s ++ v) = if (trimStart s).isEmpty then trimStart v else trimStart s ++ v :=
    List.dropWhile_append
  rw [trim, trim, front, nothing]
  split
  · case isTrue hs => rw [List.isEmpty_iff.mp hs]
  · rw [List.reverse_append, trimStart_blanks_append backwards]

/-- A text that begins and ends with no blank is not changed by taking blanks away from its ends. -/
theorem trim_eq_self {first last : Char} (hfirst : isBlank first = false)
    (hlast : isBlank last = false) (s : List Char) :
    trim (first :: s ++ [last]) = first :: s ++ [last] := by
  have front : trimStart (first :: s ++ [last]) = first :: s ++ [last] :=
    List.dropWhile_cons_of_neg (by simp [hfirst])
  have back : trimStart (first :: s ++ [last]).reverse = (first :: s ++ [last]).reverse := by
    rw [List.reverse_append]
    exact List.dropWhile_cons_of_neg (by simp [hlast])
  rw [trim, front, back, List.reverse_reverse]

/-! ### Lines -/

/-- The lines before a line feed and those behind it. -/
theorem lines_append_cons (s t : List Char) : lines (s ++ '\n' :: t) = lines s ++ lines t :=
  List.splitOn_append_cons_self s t

/-- There is one line more than there are line feeds. -/
theorem length_lines (s : List Char) : (lines s).length = s.count '\n' + 1 :=
  length_splitOn s

/-! ### Other blanks around the lines -/

/-- The text is empty or ends with a line feed, so what follows it begins a line. -/
def EndsLine (s : List Char) : Prop :=
  s = [] ∨ ∃ t, s = t ++ ['\n']

/-- A line ends where the text begins: at its end, at a line feed, or at a carriage return before
one. -/
def IsLineEnd (s : List Char) : Prop :=
  s = [] ∨ ∃ t, s = '\n' :: t ∨ s = '\r' :: '\n' :: t

/-- Blanks that end no line. -/
def IsPadding (s : List Char) : Prop :=
  ∀ c ∈ s, isBlank c ∧ c ≠ '\n'

/-- The second text arises from the first by putting carriage returns before line feeds, and padding
at the starts and ends of lines. -/
inductive Respaced : List Char → List Char → Prop where
  /-- Nothing is changed. -/
  | refl (s : List Char) : Respaced s s
  /-- A change comes after another. -/
  | trans {s t u : List Char} : Respaced s t → Respaced t u → Respaced s u
  /-- A line ends with a carriage return and a line feed. -/
  | carriageReturn (s t : List Char) : Respaced (s ++ '\n' :: t) (s ++ '\r' :: '\n' :: t)
  /-- A line begins with padding. -/
  | atStart {s v : List Char} (t : List Char) : EndsLine s → IsPadding v →
      Respaced (s ++ t) (s ++ (v ++ t))
  /-- A line ends with padding. -/
  | atEnd (s : List Char) {v t : List Char} : IsLineEnd t → IsPadding v →
      Respaced (s ++ t) (s ++ (v ++ t))

section Trimmed

variable {v : List Char} (hv : IsPadding v)
include hv

theorem IsPadding.newLine_not_mem : '\n' ∉ v := fun h => (hv '\n' h).2 rfl

theorem map_trim_lines_padding_append (s : List Char) :
    (lines (v ++ s)).map trim = (lines s).map trim := by
  obtain ⟨first, rest, hs, hvs⟩ := splitOn_append_left hv.newLine_not_mem s
  rw [lines, lines, hs, hvs, List.map_cons, List.map_cons, trim_blanks_append fun c hc => (hv c hc).1]

theorem map_trim_lines_append_padding (s : List Char) :
    (lines (s ++ v)).map trim = (lines s).map trim := by
  obtain ⟨before, last, hs, hsv⟩ := splitOn_append_right s hv.newLine_not_mem
  rw [lines, lines, hs, hsv, List.map_append, List.map_append, List.map_singleton, List.map_singleton,
    trim_append_blanks last fun c hc => (hv c hc).1]

end Trimmed

theorem isPadding_return : IsPadding ['\r'] := by
  intro c hc
  rw [List.mem_singleton.mp hc]
  decide

/-- Padding before a line feed is trimmed away. -/
theorem map_trim_lines_padding_newLine {v : List Char} (hv : IsPadding v) (s t : List Char) :
    (lines (s ++ (v ++ '\n' :: t))).map trim = (lines (s ++ '\n' :: t)).map trim := by
  rw [← List.append_assoc, lines_append_cons, lines_append_cons, List.map_append, List.map_append,
    map_trim_lines_append_padding hv]

/-- Padding does not show once the lines are trimmed. -/
theorem Respaced.map_trim_lines {s t : List Char} (h : Respaced s t) :
    (lines s).map trim = (lines t).map trim := by
  induction h with
  | refl s => rfl
  | trans _ _ ih ih' => exact ih.trans ih'
  | carriageReturn s t => exact (map_trim_lines_padding_newLine isPadding_return s t).symm
  | @atStart s v t hs hv =>
    rcases hs with rfl | ⟨s, rfl⟩
    · exact (map_trim_lines_padding_append hv t).symm
    · rw [List.append_assoc, List.append_assoc, List.singleton_append, List.singleton_append,
        lines_append_cons, lines_append_cons, List.map_append, List.map_append,
        map_trim_lines_padding_append hv]
  | @atEnd s v t ht hv =>
    rcases ht with rfl | ⟨t, rfl | rfl⟩
    · rw [List.append_nil, List.append_nil, map_trim_lines_append_padding hv]
    · exact (map_trim_lines_padding_newLine hv s t).symm
    · have padding : IsPadding (v ++ ['\r']) := by
        intro c hc
        exact (List.mem_append.mp hc).elim (hv c) (isPadding_return c)
      have longer := map_trim_lines_padding_newLine padding s t
      rw [List.append_assoc] at longer
      exact (map_trim_lines_padding_newLine isPadding_return s t).trans longer.symm

end AgentThreads.Text
