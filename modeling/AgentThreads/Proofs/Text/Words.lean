import AgentThreads.Text.Blank
import Mathlib.Data.List.Chain

/-!
# Words and the blanks around them

A blank ends one word and begins none. So a text has the same words whatever blanks stand between them
and at its two ends. A text is spaced if its only blanks are single spaces between other characters;
a part from its start stays so if it ends with a character that is not blank.
-/

namespace AgentThreads.Text

/-! ### Words -/

/-- The words before a blank and those behind it. -/
theorem words_append_cons {c : Char} (h : isBlank c) (s t : List Char) :
    words (s ++ c :: t) = words s ++ words t := by
  rw [words, List.splitOnP_append_cons s t h, List.filter_append, words, words]

theorem words_cons_of_isBlank {c : Char} (h : isBlank c) (s : List Char) :
    words (c :: s) = words s :=
  words_append_cons h [] s

theorem words_singleton {c : Char} (h : isBlank c = false) : words [c] = [[c]] := by
  rw [words, List.splitOnP_eq_singleton (by simpa using h)]
  rfl

/-- A character that is not blank is put in front of the first piece between blanks. -/
theorem splitOnP_cons_of_not_isBlank {c : Char} (h : isBlank c = false) (s : List Char) :
    ∃ piece rest, s.splitOnP isBlank = piece :: rest ∧
      (c :: s).splitOnP isBlank = (c :: piece) :: rest := by
  obtain ⟨piece, rest, hs⟩ := List.exists_cons_of_ne_nil (List.splitOnP_ne_nil isBlank s)
  refine ⟨piece, rest, hs, ?_⟩
  rw [List.splitOnP_cons_eq_if_modifyHead, if_neg (by simp [h]), hs, List.modifyHead_cons]

/-- Of two characters that are not blank the first belongs to the word of the second. -/
theorem words_cons_cons {c d : Char} (hc : isBlank c = false) (hd : isBlank d = false)
    (s : List Char) : ∃ word rest, words (d :: s) = word :: rest ∧
      words (c :: d :: s) = (c :: word) :: rest := by
  obtain ⟨piece, rest, -, step⟩ := splitOnP_cons_of_not_isBlank hd s
  obtain ⟨piece', rest', hpieces, hlonger⟩ := splitOnP_cons_of_not_isBlank hc (d :: s)
  obtain ⟨rfl, rfl⟩ := List.cons.inj (step.symm.trans hpieces)
  refine ⟨d :: piece, rest.filter (!·.isEmpty), ?_, ?_⟩
  · rw [words, step]
    rfl
  · rw [words, hlonger]
    rfl

/-! ### Other blanks -/

/-- One blank or more. -/
structure IsGap (s : List Char) : Prop where
  /-- There is a character. -/
  ne_nil : s ≠ []
  /-- There are nothing but blanks. -/
  isBlank : ∀ c ∈ s, isBlank c

theorem words_blanks_append {v : List Char} (hv : ∀ c ∈ v, isBlank c) (s : List Char) :
    words (v ++ s) = words s := by
  induction v with
  | nil => rfl
  | cons c v ih =>
    obtain ⟨hc, hv⟩ := List.forall_mem_cons.mp hv
    rw [List.cons_append, words_cons_of_isBlank hc, ih hv]

theorem words_append_gap {u : List Char} (hu : IsGap u) (s t : List Char) :
    words (s ++ (u ++ t)) = words s ++ words t := by
  obtain ⟨c, u, rfl⟩ := List.exists_cons_of_ne_nil hu.ne_nil
  obtain ⟨hc, hblanks⟩ := List.forall_mem_cons.mp hu.isBlank
  rw [List.cons_append, words_append_cons hc, words_blanks_append hblanks]

theorem words_append_blanks (s : List Char) {v : List Char} (hv : ∀ c ∈ v, isBlank c) :
    words (s ++ v) = words s := by
  by_cases h : v = []
  · rw [h, List.append_nil]
  · have gap := words_append_gap ⟨h, hv⟩ s []
    rwa [List.append_nil, show words [] = [] from rfl, List.append_nil] at gap

/-- The second text arises from the first by putting other gaps in the place of gaps, and blanks at
the two ends. -/
inductive Reblanked : List Char → List Char → Prop where
  /-- Nothing is changed. -/
  | refl (s : List Char) : Reblanked s s
  /-- A change comes after another. -/
  | trans {s t u : List Char} : Reblanked s t → Reblanked t u → Reblanked s u
  /-- A gap is replaced by another. -/
  | gap (s : List Char) {u v : List Char} (t : List Char) : IsGap u → IsGap v →
      Reblanked (s ++ (u ++ t)) (s ++ (v ++ t))
  /-- The text begins with more blanks. -/
  | atStart {v : List Char} (s : List Char) : (∀ c ∈ v, isBlank c) → Reblanked s (v ++ s)
  /-- The text ends with more blanks. -/
  | atEnd (s : List Char) {v : List Char} : (∀ c ∈ v, isBlank c) → Reblanked s (s ++ v)

/-- Other blanks leave the words as they are. -/
theorem Reblanked.words_eq {s t : List Char} (h : Reblanked s t) : words s = words t := by
  induction h with
  | refl s => rfl
  | trans _ _ ih ih' => exact ih.trans ih'
  | gap s t hu hv => rw [words_append_gap hu, words_append_gap hv]
  | atStart s hv => exact (words_blanks_append hv s).symm
  | atEnd s hv => exact (words_append_blanks s hv).symm

/-! ### Single spaces -/

/-- The only blanks in the text are single spaces between other characters. -/
structure IsSpaced (s : List Char) : Prop where
  /-- It begins with no blank. -/
  head : ∀ c ∈ s.head?, isBlank c = false
  /-- It ends with no blank. -/
  last : ∀ c ∈ s.getLast?, isBlank c = false
  /-- A blank in it is a space. -/
  space : ∀ c ∈ s, isBlank c → c = ' '
  /-- No blank stands behind a blank. -/
  single : s.IsChain fun c d => isBlank c → isBlank d = false

theorem isSpaced_nil : IsSpaced [] :=
  ⟨by simp, by simp, by simp, .nil⟩

section Spaced

variable {c : Char} {s : List Char}

/-- A character that is not blank may stand before a spaced text. -/
theorem IsSpaced.cons (hs : IsSpaced s) (hc : isBlank c = false) : IsSpaced (c :: s) where
  head := by simpa using hc
  last := by
    cases s with
    | nil => simpa using hc
    | cons d s =>
      rw [List.getLast?_cons_cons]
      exact hs.last
  space := by simpa [hc] using hs.space
  single := List.isChain_cons.mpr ⟨by simp [hc], hs.single⟩

/-- There may be a space between them, unless the spaced text is empty. -/
theorem IsSpaced.cons_space (hs : IsSpaced s) (hc : isBlank c = false) (hne : s ≠ []) :
    IsSpaced (c :: ' ' :: s) where
  head := by simpa using hc
  last := by
    change ∀ d ∈ ([c, ' '] ++ s).getLast?, isBlank d = false
    rw [List.getLast?_append_of_ne_nil _ hne]
    exact hs.last
  space := by simpa [hc] using hs.space
  single := by
    have behind := List.isChain_cons.mpr ⟨fun d hd (_ : isBlank ' ') => hs.head d hd, hs.single⟩
    exact List.isChain_cons_cons.mpr ⟨by simp [hc], behind⟩

/-- There is no other way for a spaced text to go on behind its first character. -/
theorem IsSpaced.of_cons (h : IsSpaced (c :: s)) :
    isBlank c = false ∧ (IsSpaced s ∨ ∃ t, s = ' ' :: t ∧ t ≠ [] ∧ IsSpaced t) := by
  refine ⟨h.head c rfl, ?_⟩
  cases s with
  | nil => exact .inl isSpaced_nil
  | cons d t =>
    obtain ⟨-, single⟩ := List.isChain_cons_cons.mp h.single
    obtain ⟨behind, single'⟩ := List.isChain_cons.mp single
    have last : ∀ e ∈ (d :: t).getLast?, isBlank e = false := List.getLast?_cons_cons ▸ h.last
    have space : ∀ e ∈ d :: t, isBlank e → e = ' ' :=
      fun e he => h.space e (List.mem_cons_of_mem c he)
    cases hd : isBlank d with
    | false => exact .inl ⟨by simpa using hd, last, space, single⟩
    | true =>
      have hne : t ≠ [] := by
        rintro rfl
        exact Bool.false_ne_true ((last d rfl).symm.trans hd)
      have ends : (d :: t).getLast? = t.getLast? := List.getLast?_append_of_ne_nil [d] hne
      refine .inr ⟨t, by rw [space d List.mem_cons_self hd], hne, ?_⟩
      exact ⟨fun e he => behind e he hd, ends ▸ last,
        fun e he => space e (List.mem_cons_of_mem d he), single'⟩

/-- What is cut off the end of a spaced text may be replaced by a character that is not blank. -/
theorem IsSpaced.take_append (hs : IsSpaced s) (hc : isBlank c = false) (n : Nat) :
    IsSpaced (s.take n ++ [c]) where
  head := by
    cases n with
    | zero => simpa using hc
    | succ n =>
      cases s with
      | nil => simpa using hc
      | cons d s => exact hs.head
  last := by simpa using hc
  space := by
    intro d hd hblank
    rcases List.mem_append.mp hd with hd | hd
    · exact hs.space d (List.mem_of_mem_take hd) hblank
    · exact absurd hblank (by simp [List.mem_singleton.mp hd, hc])
  single := by
    refine List.isChain_append.mpr ⟨hs.single.take n, .singleton c, ?_⟩
    simp [hc]

end Spaced

end AgentThreads.Text
