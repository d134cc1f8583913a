import AgentThreads.Proofs.Text.Lines
import AgentThreads.Text.Unsigned
import Mathlib

/-!
# Unsigned numbers in texts

A text that is trimmed is read as an unsigned number if and only if it consists of blanks, perhaps a
plus sign, digits, and blanks again, and the digits stand for a number below `2 ^ 64`. How many digits
there are does not matter, so a number may have any number of zeros in front.
-/

namespace AgentThreads.Text

/-! ### Trimming -/

/-- What is trimmed away are blanks at the two ends. -/
theorem exists_blanks_around_trim (s : List Char) :
    ∃ before after, (∀ c ∈ before, isBlank c) ∧ (∀ c ∈ after, isBlank c) ∧
      s = before ++ trim s ++ after := by
  have front : s.takeWhile isBlank ++ trimStart s = s := List.takeWhile_append_dropWhile
  have back : (trimStart s).reverse.takeWhile isBlank ++ trimStart (trimStart s).reverse =
      (trimStart s).reverse := List.takeWhile_append_dropWhile
  have cut := congrArg List.reverse back
  rw [List.reverse_append, List.reverse_reverse, ← trim] at cut
  refine ⟨s.takeWhile isBlank, ((trimStart s).reverse.takeWhile isBlank).reverse,
    fun c hc => List.mem_takeWhile_imp hc,
    fun c hc => List.mem_takeWhile_imp (List.mem_reverse.mp hc), ?_⟩
  rw [List.append_assoc, cut, front]

theorem trimStart_of_no_blank {s : List Char} (h : ∀ c ∈ s, isBlank c = false) :
    trimStart s = s := by
  cases s with
  | nil => rfl
  | cons c s => exact List.dropWhile_cons_of_neg (by simp [h c List.mem_cons_self])

/-- From a text without blanks nothing is trimmed away. -/
theorem trim_of_no_blank {s : List Char} (h : ∀ c ∈ s, isBlank c = false) : trim s = s := by
  have backwards : ∀ c ∈ s.reverse, isBlank c = false := fun c hc => h c (List.mem_reverse.mp hc)
  rw [trim, trimStart_of_no_blank h, trimStart_of_no_blank backwards, List.reverse_reverse]

/-! ### Digits -/

/-- One digit or more that stand for a number in decimal notation. -/
inductive Decimal : List Char → Nat → Prop where
  /-- A digit by itself. -/
  | digit {c : Char} (hc : c.isDigit) : Decimal [c] (c.toNat - '0'.toNat)
  /-- One more digit behind others. -/
  | snoc {ds : List Char} {n : Nat} {c : Char} (h : Decimal ds n) (hc : c.isDigit) :
    Decimal (ds ++ [c]) (10 * n + (c.toNat - '0'.toNat))

/-- Which texts are digits, and what they stand for. -/
theorem decimal_iff {ds : List Char} {n : Nat} :
    Decimal ds n ↔ ds ≠ [] ∧ (∀ c ∈ ds, c.isDigit) ∧ Nat.ofDigitChars 10 ds 0 = n := by
  have snoc (ds : List Char) (c : Char) : Nat.ofDigitChars 10 (ds ++ [c]) 0 =
      10 * Nat.ofDigitChars 10 ds 0 + (c.toNat - '0'.toNat) := by
    rw [Nat.ofDigitChars_append, Nat.ofDigitChars_cons, Nat.ofDigitChars_nil]
  constructor
  · intro h
    induction h with
    | digit hc =>
      refine ⟨List.cons_ne_nil _ _, List.forall_mem_singleton.mpr hc, ?_⟩
      exact (snoc [] _).trans (Nat.zero_add _)
    | snoc h hc ih =>
      obtain ⟨-, hds, rfl⟩ := ih
      refine ⟨by simp, List.forall_mem_append.mpr ⟨hds, List.forall_mem_singleton.mpr hc⟩, snoc ..⟩
  · rintro ⟨hne, hds, rfl⟩
    induction ds using List.reverseRecOn with
    | nil => exact absurd rfl hne
    | append_singleton ds c ih =>
      obtain ⟨hds, hc⟩ := List.forall_mem_append.mp hds
      have digit : c.isDigit := hc c (List.mem_singleton_self c)
      rw [snoc]
      by_cases hnil : ds = []
      · subst hnil
        simpa using Decimal.digit digit
      · exact .snoc (ih hnil hds) digit

theorem Decimal.isDigit {ds : List Char} {n : Nat} (h : Decimal ds n) : ∀ c ∈ ds, c.isDigit :=
  (decimal_iff.mp h).2.1

theorem isBlank_of_isDigit {c : Char} (h : c.isDigit) : isBlank c = false := by
  obtain ⟨low, high⟩ := Char.isDigit_iff_toNat.mp h
  have low : 48 ≤ c.toNat := low
  have high : c.toNat ≤ 57 := high
  simp only [isBlank, Bool.or_eq_false_iff, Bool.and_eq_false_iff, decide_eq_false_iff_not,
    beq_eq_false_iff_ne]
  omega

/-! ### Numbers -/

/-- A plus sign, or nothing. -/
def IsSign (s : List Char) : Prop :=
  s = [] ∨ s = ['+']

/-- The text is an unsigned number of 64 bits with blanks around it: digits, perhaps behind a plus
sign. -/
inductive IsUnsigned : List Char → Nat → Prop where
  /-- The text in its parts. -/
  | parts {before sign ds after : List Char} {n : Nat} (hbefore : ∀ c ∈ before, isBlank c)
    (hsign : IsSign sign) (hds : Decimal ds n) (hafter : ∀ c ∈ after, isBlank c)
    (hn : n < 2 ^ 64) : IsUnsigned (before ++ (sign ++ ds) ++ after) n

/-- What is read without blanks around it. -/
theorem unsigned?_eq_some_iff {s : List Char} {n : Nat} :
    unsigned? s = some n ↔ ∃ sign ds, IsSign sign ∧ s = sign ++ ds ∧ Decimal ds n ∧ n < 2 ^ 64 := by
  have digits {ds : List Char} : (if !ds.isEmpty && ds.all Char.isDigit &&
      Nat.ofDigitChars 10 ds 0 < 18446744073709551616 then some (Nat.ofDigitChars 10 ds 0)
      else none) = some n ↔ Decimal ds n ∧ n < 2 ^ 64 := by
    rw [decimal_iff, Option.ite_none_right_eq_some]
    simp only [Bool.and_eq_true, Bool.not_eq_true', List.isEmpty_eq_false_iff, List.all_eq_true,
      decide_eq_true_eq]
    constructor
    · rintro ⟨⟨⟨hne, hds⟩, hlt⟩, ⟨⟩⟩
      exact ⟨⟨hne, hds, rfl⟩, hlt⟩
    · rintro ⟨⟨hne, hds, rfl⟩, hlt⟩
      exact ⟨⟨⟨hne, hds⟩, hlt⟩, rfl⟩
  unfold unsigned?
  split
  · case h_1 ds =>
    refine digits.trans ⟨fun h => ⟨['+'], ds, .inr rfl, rfl, h⟩, ?_⟩
    rintro ⟨sign, ds', rfl | rfl, heq, h⟩
    · -- A plus sign is no digit.
      have plus : '+' ∈ ds' := by
        rw [← List.nil_append ds', ← heq]
        exact List.mem_cons_self
      cases h.1.isDigit '+' plus
    · exact (List.cons.inj heq).2 ▸ h
  · case h_2 unsigned =>
    refine digits.trans ⟨fun h => ⟨[], s, .inl rfl, rfl, h⟩, ?_⟩
    rintro ⟨sign, ds, rfl | rfl, heq, h⟩
    · exact heq ▸ h
    · exact absurd heq (unsigned ds)

/-- What is read with blanks around it, once they are trimmed away. -/
theorem unsigned?_trim_eq_some_iff {s : List Char} {n : Nat} :
    unsigned? (trim s) = some n ↔ IsUnsigned s n := by
  rw [unsigned?_eq_some_iff]
  constructor
  · rintro ⟨sign, ds, hsign, heq, hds, hn⟩
    obtain ⟨before, after, hbefore, hafter, hs⟩ := exists_blanks_around_trim s
    rw [hs, heq]
    exact .parts hbefore hsign hds hafter hn
  · rintro ⟨hbefore, hsign, hds, hafter, hn⟩
    refine ⟨_, _, hsign, ?_, hds, hn⟩
    rw [trim_append_blanks _ hafter, trim_blanks_append hbefore]
    refine trim_of_no_blank (List.forall_mem_append.mpr ⟨?_, fun c hc => ?_⟩)
    · rcases hsign with rfl | rfl
      · simp
      · exact List.forall_mem_singleton.mpr rfl
    · exact isBlank_of_isDigit (hds.isDigit c hc)

/-- A text is one number at most. -/
theorem IsUnsigned.unique {s : List Char} {m n : Nat} (hm : IsUnsigned s m) (hn : IsUnsigned s n) :
    m = n :=
  Option.some_inj.mp
    ((unsigned?_trim_eq_some_iff.mpr hm).symm.trans (unsigned?_trim_eq_some_iff.mpr hn))

/-- The greatest number, with more zeros in front than it has digits, and the first one that is too
great. -/
example :
    unsigned? (trim ("\u00a0+" ++ "000000000000000000000000" ++ "18446744073709551615\n").toList) =
        some 18446744073709551615 ∧
      unsigned? (trim "18446744073709551616".toList) = none := by
  decide +kernel

end AgentThreads.Text
