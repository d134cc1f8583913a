import AgentThreads.Json.Reader
import AgentThreads.Proofs.Json.Chars
import AgentThreads.Proofs.Json.Numerals
import AgentThreads.Proofs.Outcomes

/-!
# Written containers

The parts of an array or an object are written with commas between them, and perhaps with blanks
before each part and after the last. If each part is read for what it says, so is the whole: one step
of the loop takes one part and ends before the comma or the bracket behind it.
-/

namespace AgentThreads.Json

open List (Forall₂)

/-! ### Blanks -/

/-- Nothing but blanks. -/
def Blanks (s : List Char) : Prop :=
  ∀ c ∈ s, isSpace c

theorem blanks_nil : Blanks [] := by
  intro c hc
  cases hc

theorem skipSpace_blanks {blanks : List Char} (h : Blanks blanks) (s : List Char) :
    skipSpace (blanks ++ s) = skipSpace s := by
  unfold skipSpace
  rw [List.dropWhile_append_of_pos h]

theorem skipSpace_cons {c : Char} (h : isSpace c = false) (s : List Char) :
    skipSpace (c :: s) = c :: s := by
  simp [skipSpace, h]

theorem isNumeralPart_of_isSpace {c : Char} (h : isSpace c) : isNumeralPart c = false := by
  simp only [isSpace, Bool.or_eq_true, beq_iff_eq] at h
  rcases h with ((rfl | rfl) | rfl) | rfl <;> decide

/-- What stands behind the last part of a container goes on no numeral. -/
theorem stops_close {blanks : List Char} (h : Blanks blanks) {closer : Char}
    (hc : isNumeralPart closer = false) (s : List Char) : Stops (blanks ++ closer :: s) := by
  cases blanks with
  | nil => exact stops_cons hc s
  | cons c blanks => exact stops_cons (isNumeralPart_of_isSpace (h c List.mem_cons_self)) _

/-! ### Listings -/

/-- The parts after the first one, each behind a comma and blanks. -/
def furtherParts (before : List Char) (parts : List (List Char)) : List Char :=
  parts.flatMap fun part => ',' :: (before ++ part)

/-- The parts of a container with commas between them, blanks before each part and blanks after the
last one. -/
def listing (before after : List Char) : List (List Char) → List Char
  | [] => []
  | part :: parts => before ++ part ++ furtherParts before parts ++ after

theorem furtherParts_cons (before part : List Char) (parts : List (List Char)) :
    furtherParts before (part :: parts) = ',' :: (before ++ part ++ furtherParts before parts) := by
  simp [furtherParts]

theorem intercalate_map (before part : List Char) (parts : List (List Char)) :
    [','].intercalate ((part :: parts).map (before ++ ·)) =
      before ++ part ++ furtherParts before parts := by
  induction parts generalizing part with
  | nil => simp [List.intercalate, furtherParts]
  | cons next parts ih =>
    rw [List.map_cons, furtherParts_cons, ← ih next]
    simp [List.intercalate]

/-- The layout without blanks is a listing. -/
theorem intercalate_eq_listing (parts : List (List Char)) :
    [','].intercalate parts = listing [] [] parts := by
  cases parts with
  | nil => rfl
  | cons part parts =>
    rw [listing, List.append_nil, ← intercalate_map]
    simp

/-- The layout with a part to a line is a listing. -/
theorem block_eq_listing (opener closer : Char) (level : Nat) (parts : List (List Char)) :
    block opener closer level parts =
      opener :: (listing (newLine (level + 1)) (newLine level) parts ++ [closer]) := by
  unfold block
  cases parts with
  | nil => rfl
  | cons part parts =>
    rw [listing, ← intercalate_map, List.isEmpty_cons, if_neg Bool.false_ne_true]
    simp

theorem stops_further (before : List Char) {after : List Char} (h : Blanks after) {closer : Char}
    (hc : isNumeralPart closer = false) (parts : List (List Char)) (s : List Char) :
    Stops (furtherParts before parts ++ (after ++ closer :: s)) := by
  cases parts with
  | nil => exact stops_close h hc s
  | cons part parts =>
    rw [furtherParts_cons]
    exact stops_cons (by decide) _

theorem length_le_length_furtherParts (before : List Char) (parts : List (List Char)) :
    parts.length ≤ (furtherParts before parts).length := by
  induction parts with
  | nil => exact Nat.le_refl _
  | cons part parts ih =>
    rw [furtherParts_cons]
    simp only [List.length_cons, List.length_append]
    omega

theorem length_le_length_listing (before after : List Char) {parts : List (List Char)}
    (h : ∀ part ∈ parts, part ≠ []) : parts.length ≤ (listing before after parts).length := by
  cases parts with
  | nil => exact Nat.le_refl _
  | cons part parts =>
    have some := List.length_pos_iff.mpr (h part List.mem_cons_self)
    have rest := length_le_length_furtherParts before parts
    simp only [listing, List.length_cons, List.length_append]
    omega

/-! ### Arrays -/

/-- The text is read as the value, whatever stands behind it that goes on no numeral. It does not
begin with a blank or as the end of an array does. -/
structure Reads {ε α : Type} (scan : List Char → Except ε (α × List Char)) (text : List Char)
    (value : α) : Prop where
  /-- The text has a first character, which is neither blank nor a closing bracket. -/
  start : ∃ c s, text = c :: s ∧ isSpace c = false ∧ c ≠ ']'
  /-- The text is read as the value. -/
  scan : ∀ {rest : List Char}, Stops rest → scan (text ++ rest) = .ok (value, rest)

theorem firstItem_of_start {before : List Char} (hbefore : Blanks before) {text : List Char}
    (h : ∃ c s, text = c :: s ∧ isSpace c = false ∧ c ≠ ']') (rest : List Char) :
    firstItem (before ++ (text ++ rest)) = .ok (.item (text ++ rest)) := by
  obtain ⟨c, s, rfl, hspace, hclose⟩ := h
  rw [firstItem, skipSpace_blanks hbefore, List.cons_append, skipSpace_cons hspace]
  split
  · case h_1 heq => cases heq
  · case h_2 heq => exact absurd (List.cons.inj heq).1 hclose
  · rfl

theorem nextItem_of_start {before : List Char} (hbefore : Blanks before) {text : List Char}
    (h : ∃ c s, text = c :: s ∧ isSpace c = false ∧ c ≠ ']') (rest : List Char) :
    nextItem (',' :: (before ++ (text ++ rest))) = .ok (.item (text ++ rest)) := by
  obtain ⟨c, s, rfl, hspace, hclose⟩ := h
  rw [nextItem, skipSpace_cons (by decide)]
  simp only [skipSpace_blanks hbefore, List.cons_append, skipSpace_cons hspace]
  split
  · case h_1 heq => cases heq
  · case h_2 heq => exact absurd (List.cons.inj heq).1 hclose
  · rfl

theorem nextItem_close {after : List Char} (hafter : Blanks after) (rest : List Char) :
    nextItem (after ++ ']' :: rest) = .ok (.close rest) := by
  rw [nextItem, skipSpace_blanks hafter, skipSpace_cons (by decide)]
  rfl

section Arrays

variable {ε α : Type} (fault : Fault → ε) {item : List Char → Except ε (α × List Char)}
  {before after : List Char} (hbefore : Blanks before) (hafter : Blanks after)
include hbefore hafter

/-- The loop takes the items that are left, one after the other. -/
theorem scanItems_furtherParts {texts : List (List Char)} {values : List α}
    (h : Forall₂ (Reads item) texts values) (rest : List Char) {bound : Nat}
    (hbound : texts.length ≤ bound) (done : List α) :
    ∃ step, nextItem (furtherParts before texts ++ (after ++ ']' :: rest)) = .ok step ∧
      scanItems fault item bound done step = .ok (done.reverse ++ values, rest) := by
  induction h generalizing bound done with
  | nil =>
    refine ⟨_, nextItem_close hafter rest, ?_⟩
    cases bound <;> simp [scanItems]
  | @cons text value texts values hv _ ih =>
    cases bound with
    | zero => cases hbound
    | succ bound =>
      obtain ⟨step, hnext, hloop⟩ := ih (Nat.le_of_succ_le_succ hbound) (value :: done)
      have taken := hv.scan (stops_further before hafter (show isNumeralPart ']' = false by decide) texts rest)
      rw [furtherParts_cons, List.cons_append, List.append_assoc, List.append_assoc]
      refine ⟨_, nextItem_of_start hbefore hv.start _, ?_⟩
      rw [scanItems, taken, ok_bind]
      dsimp only
      rw [hnext, mapError_ok, ok_bind, hloop]
      simp

/-- A written array is read as its items. -/
theorem scanItems_listing {texts : List (List Char)} {values : List α}
    (h : Forall₂ (Reads item) texts values) (rest : List Char) {bound : Nat}
    (hbound : texts.length ≤ bound) :
    ∃ step, firstItem (listing before after texts ++ ']' :: rest) = .ok step ∧
      scanItems fault item bound [] step = .ok (values, rest) := by
  cases h with
  | nil =>
    refine ⟨.close rest, ?_, ?_⟩
    · rw [firstItem, listing, List.nil_append, skipSpace_cons (by decide)]
      rfl
    · cases bound <;> rfl
  | @cons text value texts values hv hrest =>
    cases bound with
    | zero => cases hbound
    | succ bound =>
      obtain ⟨step, hnext, hloop⟩ := scanItems_furtherParts fault hbefore hafter hrest rest
        (Nat.le_of_succ_le_succ hbound) [value]
      have taken := hv.scan (stops_further before hafter (show isNumeralPart ']' = false by decide) texts rest)
      rw [listing, List.append_assoc, List.append_assoc, List.append_assoc]
      refine ⟨_, firstItem_of_start hbefore hv.start _, ?_⟩
      rw [scanItems, taken, ok_bind]
      dsimp only
      rw [hnext, mapError_ok, ok_bind, hloop]
      rfl

end Arrays

theorem scanArray_listing {value : List Char → Except Fault (Json × List Char)}
    {before after : List Char} (hbefore : Blanks before) (hafter : Blanks after)
    {texts : List (List Char)} {values : List Json} (h : Forall₂ (Reads value) texts values)
    (rest : List Char) :
    scanArray value (listing before after texts ++ ']' :: rest) = .ok (values, rest) := by
  have parts : ∀ text ∈ texts, text ≠ [] := by
    clear rest
    induction h with
    | nil => simp
    | cons hv _ ih =>
      obtain ⟨c, s, rfl, -⟩ := hv.start
      exact List.forall_mem_cons.mpr ⟨List.cons_ne_nil c s, ih⟩
  have bound : texts.length ≤ (listing before after texts ++ ']' :: rest).length := by
    have := length_le_length_listing before after parts
    rw [List.length_append]
    omega
  obtain ⟨step, hfirst, hloop⟩ := scanItems_listing id hbefore hafter h rest bound
  rw [scanArray, hfirst, ok_bind, hloop]

/-! ### Objects -/

/-- The members are read one after the other and lead from one state to another. -/
inductive ReadsMembers {ε σ : Type} (member : σ → String → List Char → Except ε (σ × List Char)) :
    List (List Char) → σ → σ → Prop where
  /-- No member leads nowhere. -/
  | nil {state : σ} : ReadsMembers member [] state state
  /-- A member takes its text, whatever stands behind it that goes on no numeral. -/
  | cons {key : String} {text : List Char} {texts : List (List Char)} {state next final : σ} :
    (∀ {rest : List Char}, Stops rest → member state key (text ++ rest) = .ok (next, rest)) →
      ReadsMembers member texts next final →
        ReadsMembers member ((quote key ++ text) :: texts) state final

section Objects

variable {ε σ : Type} (fault : Fault → ε)
  {member : σ → String → List Char → Except ε (σ × List Char)} {before after : List Char} (hbefore : Blanks before) (hafter : Blanks after)

theorem firstMember_quote {before : List Char} (hbefore : Blanks before) (key : String)
    (rest : List Char) :
    firstMember (before ++ (quote key ++ rest)) = .ok (.item (unquoted key ++ rest)) := by
  rw [firstMember, skipSpace_blanks hbefore, quote_eq, List.cons_append, skipSpace_cons (by decide)]
  rfl

theorem nextMember_quote {before : List Char} (hbefore : Blanks before) (key : String)
    (rest : List Char) :
    nextMember (',' :: (before ++ (quote key ++ rest))) = .ok (.item (unquoted key ++ rest)) := by
  rw [nextMember, skipSpace_cons (by decide)]
  simp only [skipSpace_blanks hbefore, quote_eq, List.cons_append, skipSpace_cons (show isSpace '"' = false from rfl)]

theorem nextMember_close {after : List Char} (hafter : Blanks after) (rest : List Char) :
    nextMember (after ++ '\x7d' :: rest) = .ok (.close rest) := by
  rw [nextMember, skipSpace_blanks hafter, skipSpace_cons (by decide)]
  rfl

include hbefore hafter

/-- The loop takes the members that are left, one after the other. -/
theorem scanMembers_furtherParts {texts : List (List Char)} {state final : σ}
    (h : ReadsMembers member texts state final) (rest : List Char) {bound : Nat}
    (hbound : texts.length ≤ bound) :
    ∃ step, nextMember (furtherParts before texts ++ (after ++ '\x7d' :: rest)) = .ok step ∧
      scanMembers fault member bound state step = .ok (final, rest) := by
  induction h generalizing bound with
  | nil =>
    refine ⟨_, nextMember_close hafter rest, ?_⟩
    cases bound <;> rfl
  | @cons key text texts state next final hm _ ih =>
    cases bound with
    | zero => cases hbound
    | succ bound =>
      obtain ⟨step, hnext, hloop⟩ := ih (Nat.le_of_succ_le_succ hbound)
      have taken := hm (stops_further before hafter (show isNumeralPart '\x7d' = false by decide) texts rest)
      rw [furtherParts_cons, List.cons_append, List.append_assoc, List.append_assoc,
        List.append_assoc]
      refine ⟨_, nextMember_quote hbefore key _, ?_⟩
      rw [scanMembers, scanString_unquoted, mapError_ok, ok_bind]
      dsimp only
      rw [taken, ok_bind]
      dsimp only
      rw [hnext, mapError_ok, ok_bind, hloop]

/-- A written object is read by its members. -/
theorem scanMembers_listing {texts : List (List Char)} {state final : σ}
    (h : ReadsMembers member texts state final) (rest : List Char) {bound : Nat}
    (hbound : texts.length ≤ bound) :
    ∃ step, firstMember (listing before after texts ++ '\x7d' :: rest) = .ok step ∧
      scanMembers fault member bound state step = .ok (final, rest) := by
  cases h with
  | nil =>
    refine ⟨.close rest, ?_, ?_⟩
    · rw [firstMember, listing, List.nil_append, skipSpace_cons (by decide)]
      rfl
    · cases bound <;> rfl
  | @cons key text texts _ next _ hm hrest =>
    cases bound with
    | zero => cases hbound
    | succ bound =>
      obtain ⟨step, hnext, hloop⟩ := scanMembers_furtherParts fault hbefore hafter hrest
        rest (Nat.le_of_succ_le_succ hbound)
      have taken := hm (stops_further before hafter (show isNumeralPart '\x7d' = false by decide) texts rest)
      rw [listing, List.append_assoc, List.append_assoc, List.append_assoc, List.append_assoc]
      refine ⟨_, firstMember_quote hbefore key _, ?_⟩
      rw [scanMembers, scanString_unquoted, mapError_ok, ok_bind]
      dsimp only
      rw [taken, ok_bind]
      dsimp only
      rw [hnext, mapError_ok, ok_bind, hloop]

omit hbefore hafter in
theorem ReadsMembers.ne_nil {texts : List (List Char)} {state final : σ}
    (h : ReadsMembers member texts state final) : ∀ text ∈ texts, text ≠ [] := by
  induction h with
  | nil => simp
  | cons _ _ ih => exact List.forall_mem_cons.mpr ⟨by simp [quote], ih⟩

/-- A written object is read by its members, with the length of the text as the bound. -/
theorem scanMembers_length {texts : List (List Char)} {state final : σ}
    (h : ReadsMembers member texts state final) (rest : List Char) :
    ∃ step, firstMember (listing before after texts ++ '\x7d' :: rest) = .ok step ∧
      scanMembers fault member (listing before after texts ++ '\x7d' :: rest).length state step =
        .ok (final, rest) := by
  apply scanMembers_listing fault hbefore hafter h
  have := length_le_length_listing before after h.ne_nil
  rw [List.length_append]
  omega

end Objects

end AgentThreads.Json
