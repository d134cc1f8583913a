import AgentThreads.Proofs.Json.Layouts
import AgentThreads.Proofs.Text.Words
import AgentThreads.Report.Preview

/-!
# What a preview looks like

The line of the words of a text is spaced, and a spaced text is its own line. A preview is this line,
or as much of it as leaves room for an ellipsis, which ends it with a character that is not blank. So
a preview is spaced too: it stands on one line, and it is its own preview. It begins as the text of the
content does after the blanks at its start, and it is empty if there is nothing else. So a preview
begins with a number sign only if its content is a string that does.
-/

namespace AgentThreads.Preview

open Text (isBlank words IsSpaced Reblanked)

/-! ### The line of the words -/

section Line

variable {c : Char}

theorem normalize_cons_of_isBlank (hc : isBlank c) (s : List Char) :
    normalize (c :: s) = normalize s := by
  rw [normalize, Text.words_cons_of_isBlank hc, normalize]

/-- A character that is not blank stays where it is before another one. -/
theorem normalize_cons (hc : isBlank c = false) {s : List Char}
    (hs : ∀ d ∈ s.head?, isBlank d = false) : normalize (c :: s) = c :: normalize s := by
  cases s with
  | nil =>
    rw [normalize, Text.words_singleton hc]
    rfl
  | cons d s =>
    obtain ⟨word, rest, hword, hlonger⟩ := Text.words_cons_cons hc (hs d rfl) s
    rw [normalize, hlonger, normalize, hword]
    cases rest <;> rfl

theorem normalize_eq_nil_iff {s : List Char} : normalize s = [] ↔ words s = [] := by
  rw [normalize]
  cases hs : words s with
  | nil => exact iff_of_true rfl rfl
  | cons word rest =>
    have hword : word ≠ [] := by
      have mem : word ∈ words s := hs ▸ List.mem_cons_self
      simpa using (List.mem_filter.mp mem).2
    refine iff_of_false (fun h => hword ?_) (List.cons_ne_nil word rest)
    cases rest with
    | nil => simpa using h
    | cons next rest => simp [List.intercalate_cons_cons] at h

/-- Blanks behind a character that is not blank become a space, if something follows them. -/
theorem normalize_cons_cons_of_isBlank {b : Char} (hc : isBlank c = false) (hb : isBlank b)
    (s : List Char) :
    normalize (c :: b :: s) = if normalize s = [] then [c] else c :: ' ' :: normalize s := by
  have step : words (c :: b :: s) = words [c] ++ words s := Text.words_append_cons hb [c] s
  rw [Text.words_singleton hc, List.singleton_append] at step
  split
  · case isTrue hs => rw [normalize, step, normalize_eq_nil_iff.mp hs, List.intercalate_singleton]
  · case isFalse hs =>
    obtain ⟨word, rest, hwords⟩ := List.exists_cons_of_ne_nil (mt normalize_eq_nil_iff.mpr hs)
    rw [normalize, step, normalize, hwords, List.intercalate_cons_cons]
    rfl

/-- The line goes on with that of the rest, at once or behind a space. -/
theorem normalize_cons_cases (hc : isBlank c = false) (s : List Char) :
    normalize (c :: s) = c :: normalize s ∨
      normalize s ≠ [] ∧ normalize (c :: s) = c :: ' ' :: normalize s := by
  cases s with
  | nil => exact .inl (normalize_cons hc (by simp))
  | cons d s =>
    cases hd : isBlank d with
    | false => exact .inl (normalize_cons hc (by simpa using hd))
    | true =>
      rw [normalize_cons_cons_of_isBlank hc hd, normalize_cons_of_isBlank hd]
      split
      · case isTrue hs => exact .inl (by rw [hs])
      · case isFalse hs => exact .inr ⟨hs, rfl⟩

end Line

/-- The line of the words is spaced. -/
theorem isSpaced_normalize (s : List Char) : IsSpaced (normalize s) := by
  induction s with
  | nil => exact Text.isSpaced_nil
  | cons c s ih =>
    cases hc : isBlank c with
    | true => rwa [normalize_cons_of_isBlank hc]
    | false =>
      rcases normalize_cons_cases hc s with h | ⟨hne, h⟩ <;> rw [h]
      · exact ih.cons hc
      · exact ih.cons_space hc hne

/-- A spaced text is the line of its words. -/
theorem normalize_eq_self {s : List Char} (h : IsSpaced s) : normalize s = s := by
  induction s using List.twoStepInduction with
  | nil => rfl
  | singleton c => exact normalize_cons h.of_cons.1 (by simp)
  | cons_cons c d s ih ih' =>
    obtain ⟨hc, hs | ⟨t, ht, hne, hspaced⟩⟩ := h.of_cons
    · rw [normalize_cons hc hs.head, ih' d hs]
    · obtain ⟨rfl, rfl⟩ := List.cons.inj ht
      rw [normalize_cons_cons_of_isBlank hc (by decide), ih hspaced, if_neg hne]

/-- The line begins as the text does after its blanks. -/
theorem head?_normalize (s : List Char) : (normalize s).head? = (Text.trimStart s).head? := by
  unfold Text.trimStart
  induction s with
  | nil => rfl
  | cons c s ih =>
    cases hc : isBlank c with
    | true => rw [normalize_cons_of_isBlank hc, ih, List.dropWhile_cons_of_pos hc]
    | false =>
      rw [List.dropWhile_cons_of_neg (by simp [hc])]
      rcases normalize_cons_cases hc s with h | ⟨-, h⟩ <;> rw [h] <;> rfl

/-! ### The cut -/

section Cut

variable {limit : Nat} {s : List Char}

theorem truncate_of_length_le (h : (normalize s).length ≤ limit) :
    truncate limit s = normalize s :=
  if_pos h

theorem truncate_of_lt_length (h : limit < (normalize s).length) :
    truncate limit s = (normalize s).take (limit - 1) ++ ['…'] :=
  if_neg (Nat.not_le.mpr h)

/-- A line that is cut is as long as it may be. -/
theorem length_truncate_of_lt_length (hlimit : 1 ≤ limit) (h : limit < (normalize s).length) :
    (truncate limit s).length = limit := by
  rw [truncate_of_lt_length h, List.length_append, List.length_take, List.length_singleton]
  omega

theorem length_truncate_le (hlimit : 1 ≤ limit) (s : List Char) :
    (truncate limit s).length ≤ limit := by
  rcases Nat.lt_or_ge limit (normalize s).length with h | h
  · exact Nat.le_of_eq (length_truncate_of_lt_length hlimit h)
  · rwa [truncate_of_length_le h]

theorem isSpaced_truncate (limit : Nat) (s : List Char) : IsSpaced (truncate limit s) := by
  rcases Nat.lt_or_ge limit (normalize s).length with h | h
  · rw [truncate_of_lt_length h]
    exact (isSpaced_normalize s).take_append (by decide) _
  · rw [truncate_of_length_le h]
    exact isSpaced_normalize s

/-- A spaced text that is short enough is not changed. -/
theorem truncate_eq_self (h : IsSpaced s) (hlength : s.length ≤ limit) : truncate limit s = s := by
  have line : normalize s = s := normalize_eq_self h
  rw [truncate_of_length_le (line.symm ▸ hlength), line]

/-- What is cut off does not take the first character away. -/
theorem head?_truncate (h : 1 < limit) (s : List Char) :
    (truncate limit s).head? = (Text.trimStart s).head? := by
  rw [← head?_normalize]
  rcases Nat.lt_or_ge limit (normalize s).length with hlong | hshort
  · rw [truncate_of_lt_length hlong]
    cases hline : normalize s with
    | nil => simp [hline] at hlong
    | cons c line =>
      obtain ⟨n, rfl⟩ : ∃ n, limit = n + 2 := ⟨limit - 2, by omega⟩
      rfl
  · rw [truncate_of_length_le hshort]

end Cut

theorem newLine_not_mem_truncate (limit : Nat) (s : List Char) : '\n' ∉ truncate limit s := by
  intro h
  have space : '\n' = ' ' := (isSpaced_truncate limit s).space '\n' h (by decide)
  cases space

/-- **Previews**: a preview has at most as many characters as the limit allows, and the only blanks in
it are single spaces between the others. Other blanks between the words of the text or at its ends do
not change it, and it is its own preview. It is the line of the words if that is short enough, and else
a proper part of it from the start and an ellipsis, as long as may be. -/
theorem truncate_spaced_and_stable {limit : Nat} (hlimit : 1 ≤ limit) (s : List Char) :
    let shown := truncate limit s
    shown.length ≤ limit ∧ IsSpaced shown ∧ (∀ t, Reblanked s t → truncate limit t = shown) ∧
      truncate limit shown = shown ∧
      ((normalize s).length ≤ limit ∧ shown = normalize s ∨
        limit < (normalize s).length ∧ shown.length = limit ∧
          ∃ part, part <+: normalize s ∧ part ≠ normalize s ∧ shown = part ++ ['…']) := by
  intro shown
  have short : shown.length ≤ limit := length_truncate_le hlimit s
  have spaced : IsSpaced shown := isSpaced_truncate limit s
  refine ⟨short, spaced, fun t ht => ?_, truncate_eq_self spaced short, ?_⟩
  · have line : normalize t = normalize s := by rw [normalize, ← ht.words_eq, normalize]
    rw [truncate, line]
    rfl
  · rcases Nat.lt_or_ge limit (normalize s).length with h | h
    · refine .inr ⟨h, length_truncate_of_lt_length hlimit h, (normalize s).take (limit - 1),
        List.take_prefix _ _, fun whole => ?_, truncate_of_lt_length h⟩
      have length := congrArg List.length whole
      rw [List.length_take] at length
      omega
    · exact .inl ⟨h, truncate_of_length_le h⟩

/-- A text that is cut behind a space, and before an ellipsis that is part of it. -/
theorem truncate_spaced_and_stable_behind_space :
    let s := ['\t', 'a', 'b', '\n', ' ', 'c', '…', 'd']
    let t := [' ', '\t', 'a', 'b', '\u00a0', 'c', '…', 'd']
    1 ≤ 4 ∧ truncate 4 s = ['a', 'b', ' ', '…'] ∧ (truncate 4 s).length ≤ 4 ∧
      IsSpaced (truncate 4 s) ∧ Reblanked s t ∧ truncate 4 t = truncate 4 s ∧
      truncate 4 (truncate 4 s) = truncate 4 s ∧
      ∃ part, part <+: normalize s ∧ part ≠ normalize s ∧ truncate 4 s = part ++ ['…'] := by
  intro s t
  have gaps : Reblanked s ['\t', 'a', 'b', '\u00a0', 'c', '…', 'd'] :=
    .gap ['\t', 'a', 'b'] (u := ['\n', ' ']) (v := ['\u00a0']) _
      ⟨by decide, List.all_eq_true.mp (by decide)⟩ ⟨by decide, List.all_eq_true.mp (by decide)⟩
  have other : Reblanked s t :=
    gaps.trans (.atStart (v := [' ']) _ (List.all_eq_true.mp (by decide)))
  obtain ⟨short, spaced, stable, again, ⟨whole, -⟩ | ⟨-, -, cut⟩⟩ :=
    truncate_spaced_and_stable (show 1 ≤ 4 by decide) s
  · exact absurd whole (by decide)
  · exact ⟨by decide, by decide, short, spaced, other, stable t other, again, cut⟩

/-! ### Contents -/

/-- The preview of a content stands on one line. -/
theorem newLine_not_mem_ofContent (content : Json) : '\n' ∉ (ofContent content).toList := by
  rw [ofContent, String.toList_ofList]
  exact newLine_not_mem_truncate _ _

/-- A content whose preview begins with a number sign: a string that does after its blanks. -/
def beginsWithMark : Json → Bool
  | .string text => (Text.trimStart text.toList).head? == some '#'
  | _ => false

theorem head?_ofContent_eq_mark_iff {content : Json} :
    (ofContent content).toList.head? = some '#' ↔ beginsWithMark content := by
  -- The layout of a value that is no string begins with another character, which is no blank.
  have other {v : Json} (h : v.asString? = none) : (Text.trimStart v.compact).head? ≠ some '#' := by
    obtain ⟨c, hc, hblank, hmark⟩ := Json.head?_compact h
    obtain ⟨s, hs⟩ := List.head?_eq_some_iff.mp hc
    rw [hs, Text.trimStart, List.dropWhile_cons_of_neg (by simp [hblank])]
    simpa using hmark
  rw [ofContent, String.toList_ofList, head?_truncate (by decide)]
  cases content with
  | null => simp [contentChars, beginsWithMark, Text.trimStart]
  | string text => simp [contentChars, beginsWithMark]
  | bool | int | double | array | object => exact iff_of_false (other rfl) Bool.false_ne_true

end AgentThreads.Preview
