import AgentThreads.Proofs.Json.Containers
import AgentThreads.Proofs.Json.Values
import AgentThreads.Text.Blank

/-!
# The two layouts

What a value looks like. The compact layout stands on one line, whatever the value; and unless the
value is a string it begins with no blank and no number sign. The pretty layout has no line feed but
those between its lines, so the layout one level further in is the same text with each line but the
first moved in.
-/

namespace AgentThreads

/-! ### Numbers -/

namespace Json

/-- Numbers are written with such characters. -/
def isNumberPart (c : Char) : Bool :=
  c.isDigit || c == '-' || c == '+' || c == '.' || c == 'e'

theorem isNumberPart_of_mem_toDigits {n : Nat} {c : Char} (h : c ∈ Nat.toDigits 10 n) :
    isNumberPart c := by
  rw [isNumberPart, Numeral.isDigit_toDigits n c h]
  rfl

theorem isNumberPart_of_mem_replicate {n : Nat} {c : Char} (h : c ∈ List.replicate n '0') :
    isNumberPart c := by
  rw [List.eq_of_mem_replicate h]
  rfl

end Json

namespace Binary64

open Json

section Digits

variable {ds : List Char} (hds : ∀ c ∈ ds, isNumberPart c) (lead : Int) {c : Char}
include hds

theorem isNumberPart_of_mem_positional (h : c ∈ positional ds lead) : isNumberPart c := by
  unfold positional at h
  dsimp only at h
  split at h
  · simp only [List.cons_append, List.mem_cons, List.mem_append] at h
    rcases h with rfl | rfl | h | h
    · rfl
    · rfl
    · exact isNumberPart_of_mem_replicate h
    · exact hds c h
  split at h
  · simp only [List.mem_append, List.mem_cons, List.not_mem_nil, or_false] at h
    rcases h with (h | h) | rfl | rfl
    · exact hds c h
    · exact isNumberPart_of_mem_replicate h
    · rfl
    · rfl
  · rw [List.mem_append, List.mem_cons] at h
    rcases h with h | rfl | h
    · exact hds c (List.mem_of_mem_take h)
    · rfl
    · exact hds c (List.mem_of_mem_drop h)

theorem isNumberPart_of_mem_scientific (h : c ∈ scientific ds lead) : isNumberPart c := by
  simp only [scientific, List.mem_append, List.mem_cons] at h
  rcases h with ((h | h) | h) | rfl | rfl | h
  · exact hds c (List.mem_of_mem_take h)
  · split at h
    · cases h
    · obtain rfl := List.mem_singleton.mp h
      rfl
  · exact hds c (List.mem_of_mem_drop h)
  · rfl
  · split <;> rfl
  · exact isNumberPart_of_mem_toDigits h

end Digits

theorem isNumberPart_of_mem_toChars {x : Binary64} {c : Char} (h : c ∈ x.toChars) :
    isNumberPart c := by
  have unsigned {ds : List Char} {lead : Int} (hds : ∀ c ∈ ds, isNumberPart c)
      (h : c ∈ if -5 ≤ lead ∧ lead < 16 then positional ds lead else scientific ds lead) :
      isNumberPart c := by
    split at h
    · exact isNumberPart_of_mem_positional hds lead h
    · exact isNumberPart_of_mem_scientific hds lead h
  unfold toChars at h
  dsimp only at h
  split at h
  · rcases List.mem_cons.mp h with rfl | h
    · rfl
    · exact unsigned (fun _ => isNumberPart_of_mem_toDigits) h
  · exact unsigned (fun _ => isNumberPart_of_mem_toDigits) h

theorem toChars_ne_nil (x : Binary64) : x.toChars ≠ [] := by
  unfold toChars positional scientific
  dsimp only
  split
  · simp
  split
  · split
    · simp
    split
    · simp
    · simp
  · simp

end Binary64

namespace Json

theorem isNumberPart_of_mem_intChars {n : Int} {c : Char} (h : c ∈ intChars n) : isNumberPart c := by
  cases n with
  | ofNat n => exact isNumberPart_of_mem_toDigits h
  | negSucc n =>
    rcases List.mem_cons.mp h with rfl | h
    · rfl
    · exact isNumberPart_of_mem_toDigits h

theorem intChars_ne_nil (n : Int) : intChars n ≠ [] := by
  cases n with
  | ofNat n => exact Nat.toDigits_ne_nil
  | negSucc n => exact List.cons_ne_nil _ _

theorem isVisible_of_isNumberPart {c : Char} (h : isNumberPart c) : isVisible c := by
  simp only [isNumberPart, Bool.or_eq_true, beq_iff_eq] at h
  rcases h with (((h | rfl) | rfl) | rfl) | rfl
  · simp only [Char.isDigit, Bool.and_eq_true, decide_eq_true_eq, ge_iff_le] at h
    simp only [isVisible, decide_eq_true_eq]
    exact Nat.le_trans (by decide) h.1
  all_goals rfl

theorem apart_of_isNumberPart {c : Char} (h : isNumberPart c) :
    Text.isBlank c = false ∧ c ≠ '#' := by
  simp only [isNumberPart, Bool.or_eq_true, beq_iff_eq] at h
  rcases h with (((h | rfl) | rfl) | rfl) | rfl
  · simp only [Char.isDigit, Bool.and_eq_true, decide_eq_true_eq, ge_iff_le] at h
    have low : 0x30 ≤ c.toNat := h.1
    have high : c.toNat ≤ 0x39 := h.2
    refine ⟨?_, ?_⟩
    · simp [Text.isBlank]
      omega
    · rintro rfl
      exact absurd low (by decide)
  all_goals exact ⟨by decide, by decide⟩

/-! ### Both layouts by their parts -/

theorem compactItems_eq_map (items : List Json) : compactItems items = items.map compact := by
  induction items with
  | nil => rfl
  | cons v rest ih => rw [compactItems, ih, List.map_cons]

theorem compactMembers_eq_map (members : List (String × Json)) :
    compactMembers members = members.map fun m => quote m.1 ++ ':' :: compact m.2 := by
  induction members with
  | nil => rfl
  | cons m rest ih =>
    obtain ⟨key, v⟩ := m
    rw [compactMembers, ih, List.map_cons]

theorem prettyItems_eq_map (level : Nat) (items : List Json) :
    prettyItems level items = items.map (prettyAt level) := by
  induction items with
  | nil => rfl
  | cons v rest ih => rw [prettyItems, ih, List.map_cons]

theorem prettyMembers_eq_map (level : Nat) (members : List (String × Json)) :
    prettyMembers level members =
      members.map fun m => quote m.1 ++ ':' :: ' ' :: prettyAt level m.2 := by
  induction members with
  | nil => rfl
  | cons m rest ih =>
    obtain ⟨key, v⟩ := m
    rw [prettyMembers, ih, List.map_cons]

theorem compact_of_isScalar {v : Json} (h : v.isScalar) : v.compact = scalarChars v := by
  cases v with
  | array | object => cases h
  | null | bool | int | double | string => rfl

theorem prettyAt_of_isScalar {v : Json} (h : v.isScalar) (level : Nat) :
    v.prettyAt level = scalarChars v := by
  cases v with
  | array | object => cases h
  | null | bool | int | double | string => rfl

/-! ### One line -/

/-- A value that holds no other one is written on one line. -/
theorem isVisible_of_mem_scalarChars {v : Json} {c : Char} (h : c ∈ scalarChars v) :
    isVisible c := by
  cases v with
  | bool value =>
    cases value with
    | false => exact isVisible_of_mem (by decide) h
    | true => exact isVisible_of_mem (by decide) h
  | int n => exact isVisible_of_isNumberPart (isNumberPart_of_mem_intChars h)
  | double x => exact isVisible_of_isNumberPart (Binary64.isNumberPart_of_mem_toChars h)
  | string text => exact isVisible_of_mem_quote h
  | null | array | object => exact isVisible_of_mem (s := ['n', 'u', 'l', 'l']) (by decide) h

theorem isVisible_of_mem_container {opener closer : Char} (hopener : isVisible opener)
    (hcloser : isVisible closer) {parts : List (List Char)}
    (h : ∀ part ∈ parts, ∀ c ∈ part, isVisible c) :
    ∀ c ∈ opener :: listing [] [] parts ++ [closer], isVisible c := by
  have inside : ∀ c ∈ listing [] [] parts, isVisible c := by
    intro c hc
    cases parts with
    | nil => cases hc
    | cons part parts =>
      simp only [listing, furtherParts, List.nil_append, List.append_nil, List.mem_append,
        List.mem_flatMap, List.mem_cons] at hc
      rcases hc with hc | ⟨other, ho, rfl | hc⟩
      · exact h part List.mem_cons_self c hc
      · rfl
      · exact h other (List.mem_cons_of_mem _ ho) c hc
  intro c hc
  rcases List.mem_append.mp hc with hc | hc
  · rcases List.mem_cons.mp hc with rfl | hc
    · exact hopener
    · exact inside c hc
  · rwa [List.mem_singleton.mp hc]

/-- A value in the compact layout stands on one line. -/
theorem isVisible_of_mem_compact {v : Json} : ∀ c ∈ v.compact, isVisible c := by
  induction v using inductionOn with
  | scalar v h =>
    rw [compact_of_isScalar h]
    exact fun c hc => isVisible_of_mem_scalarChars hc
  | array items ih =>
    rw [compact, compactItems_eq_map, intercalate_eq_listing]
    refine isVisible_of_mem_container rfl rfl fun part hpart => ?_
    obtain ⟨v, hv, rfl⟩ := List.mem_map.mp hpart
    exact ih v hv
  | object members ih =>
    rw [compact, compactMembers_eq_map, intercalate_eq_listing]
    refine isVisible_of_mem_container rfl rfl fun part hpart c hc => ?_
    obtain ⟨m, hm, rfl⟩ := List.mem_map.mp hpart
    rcases List.mem_append.mp hc with hc | hc
    · exact isVisible_of_mem_quote hc
    rcases List.mem_cons.mp hc with rfl | hc
    · rfl
    · exact ih m hm c hc

/-- A value other than a string begins with a character of a numeral, a word or a bracket. -/
theorem head?_compact {v : Json} (h : v.asString? = none) :
    ∃ c, v.compact.head? = some c ∧ Text.isBlank c = false ∧ c ≠ '#' := by
  have number {s : List Char} (hne : s ≠ []) (hs : ∀ c ∈ s, isNumberPart c) :
      ∃ c, s.head? = some c ∧ Text.isBlank c = false ∧ c ≠ '#' := by
    obtain ⟨c, s, rfl⟩ := List.exists_cons_of_ne_nil hne
    exact ⟨c, rfl, apart_of_isNumberPart (hs c List.mem_cons_self)⟩
  cases v with
  | string text => cases h
  | int n => exact number (intChars_ne_nil n) fun _ => isNumberPart_of_mem_intChars
  | double x => exact number x.toChars_ne_nil fun _ => Binary64.isNumberPart_of_mem_toChars
  | bool value => cases value <;> exact ⟨_, rfl, by decide, by decide⟩
  | null | array | object => exact ⟨_, rfl, by decide, by decide⟩

/-! ### Levels -/

/-- The text with every line but the first moved in by two spaces. -/
def indent (s : List Char) : List Char :=
  s.flatMap fun c => if c = '\n' then ['\n', ' ', ' '] else [c]

theorem indent_append (s t : List Char) : indent (s ++ t) = indent s ++ indent t :=
  List.flatMap_append

/-- A text on one line stays as it is. -/
theorem indent_of_isVisible {s : List Char} (h : ∀ c ∈ s, isVisible c) : indent s = s := by
  rw [indent, List.flatMap_congr fun c hc => if_neg ?_, List.flatMap_singleton']
  rintro rfl
  cases h _ hc

theorem indent_newLine (level : Nat) : indent (newLine level) = newLine (level + 1) := by
  have spaces : indent (List.replicate (2 * level) ' ') = List.replicate (2 * level) ' ' :=
    indent_of_isVisible fun c hc => by
      rw [List.eq_of_mem_replicate hc]
      rfl
  rw [newLine, ← List.singleton_append, indent_append, spaces, newLine, Nat.mul_succ]
  rfl

theorem indent_listing (before after : List Char) (parts : List (List Char)) :
    indent (listing before after parts) =
      listing (indent before) (indent after) (parts.map indent) := by
  cases parts with
  | nil => rfl
  | cons part parts =>
    have further : indent (furtherParts before parts) =
        furtherParts (indent before) (parts.map indent) := by
      induction parts with
      | nil => rfl
      | cons part parts ih =>
        rw [furtherParts_cons, List.map_cons, furtherParts_cons, ← ih, ← indent_append,
          ← indent_append]
        rfl
    simp only [listing, List.map_cons, indent_append, further]

/-- A container one level further in. -/
theorem indent_block {opener closer : Char} (hopener : isVisible opener)
    (hcloser : isVisible closer) (level : Nat) (parts : List (List Char)) :
    indent (block opener closer level parts) =
      block opener closer (level + 1) (parts.map indent) := by
  have char {c : Char} (h : isVisible c) : indent [c] = [c] :=
    indent_of_isVisible fun d hd => by rwa [List.mem_singleton.mp hd]
  rw [block_eq_listing, block_eq_listing, ← List.singleton_append, indent_append, indent_append,
    char hopener, char hcloser, indent_listing, indent_newLine, indent_newLine]
  rfl

/-- **The pretty layout one level further in is the same text, moved in.** -/
theorem indent_prettyAt (v : Json) (level : Nat) :
    indent (v.prettyAt level) = v.prettyAt (level + 1) := by
  induction v using inductionOn generalizing level with
  | scalar v h =>
    rw [prettyAt_of_isScalar h, prettyAt_of_isScalar h]
    exact indent_of_isVisible fun c hc => isVisible_of_mem_scalarChars hc
  | array items ih =>
    rw [prettyAt, prettyAt, prettyItems_eq_map, prettyItems_eq_map, indent_block rfl rfl,
      List.map_map]
    exact congrArg _ (List.map_congr_left fun v hv => ih v hv (level + 1))
  | object members ih =>
    rw [prettyAt, prettyAt, prettyMembers_eq_map, prettyMembers_eq_map, indent_block rfl rfl,
      List.map_map]
    refine congrArg _ (List.map_congr_left fun m hm => ?_)
    have key : indent (quote m.1 ++ [':', ' ']) = quote m.1 ++ [':', ' '] :=
      indent_of_isVisible fun c hc => by
        rcases List.mem_append.mp hc with hc | hc
        · exact isVisible_of_mem_quote hc
        · exact isVisible_of_mem (by decide) hc
    calc indent (quote m.1 ++ ':' :: ' ' :: m.2.prettyAt (level + 1))
        = indent (quote m.1 ++ [':', ' '] ++ m.2.prettyAt (level + 1)) := by
          rw [List.append_assoc]
          rfl
      _ = quote m.1 ++ [':', ' '] ++ m.2.prettyAt (level + 1 + 1) := by
          rw [indent_append, key, ih m hm]
      _ = quote m.1 ++ ':' :: ' ' :: m.2.prettyAt (level + 1 + 1) := by
          rw [List.append_assoc]
          rfl

end Json

end AgentThreads
