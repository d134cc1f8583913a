import AgentThreads.Json.Numeral
import AgentThreads.Json.Printer
import AgentThreads.Proofs.Outcomes
import Mathlib.Data.List.TakeDrop

/-!
# Written integers

An integer of 64 bits that is written is read back, if nothing follows that would go on the numeral.
And a numeral that is read as an integer is read as one of 64 bits; so an integer that was read can be
written and read again.
-/

namespace AgentThreads.Json

/-- The integer fits in 64 bits, with a sign if it has one. -/
def fitsWord (n : Int) : Bool :=
  -9223372036854775808 ≤ n && n < 18446744073709551616

/-- A numeral goes on with this character. -/
def isNumeralPart (c : Char) : Bool :=
  c.isDigit || c == '.' || c == 'e' || c == 'E'

/-- No numeral goes on with this text. -/
def Stops (s : List Char) : Prop :=
  ∀ c ∈ s.head?, isNumeralPart c = false

theorem stops_cons {c : Char} (h : isNumeralPart c = false) (s : List Char) : Stops (c :: s) := by
  intro d hd
  obtain rfl := Option.some_inj.mp hd
  exact h

namespace Numeral

/-! ### Digits -/

/-- Digits are taken up to a text that does not begin with one. -/
theorem digits_append {ds s : List Char} (hne : ds ≠ []) (hds : ∀ c ∈ ds, c.isDigit)
    (hs : ∀ c ∈ s.head?, c.isDigit = false) (atEnd : Fault) :
    digits atEnd (ds ++ s) = .ok (ds, s) := by
  have taken : s.takeWhile Char.isDigit = [] ∧ s.dropWhile Char.isDigit = s := by
    cases s with
    | nil => exact ⟨rfl, rfl⟩
    | cons c s => simp [hs c rfl]
  rw [digits, List.takeWhile_append_of_pos hds, List.dropWhile_append_of_pos hds, taken.1, taken.2,
    List.append_nil]
  cases ds with
  | nil => exact absurd rfl hne
  | cons d ds => rfl

theorem isDigit_toDigits (n : Nat) : ∀ c ∈ Nat.toDigits 10 n, c.isDigit :=
  fun _ hc => Nat.isDigit_of_mem_toDigits (by decide) (by decide) hc

/-- Only the number zero is written with a zero in front. -/
theorem head?_toDigits {n : Nat} (h : 0 < n) : (Nat.toDigits 10 n).head? ≠ some '0' := by
  induction n using Nat.strongRecOn with
  | _ n ih =>
    rw [Nat.toDigits_eq_if (by decide)]
    split
    · simp only [List.head?_cons, ne_eq, Option.some.injEq, Nat.digitChar_eq_zero]
      omega
    · rw [List.head?_append, Option.or_of_isSome (by simp)]
      exact ih (n / 10) (by omega) (by omega)

/-- A number is written as JSON asks for the digits before the point. -/
theorem scanWhole_toDigits (n : Nat) {s : List Char} (hs : ∀ c ∈ s.head?, c.isDigit = false)
    (atEnd : Fault) : scanWhole atEnd (Nat.toDigits 10 n ++ s) = .ok (Nat.toDigits 10 n, s) := by
  have cut := digits_append Nat.toDigits_ne_nil (isDigit_toDigits n) hs atEnd
  rw [scanWhole, cut, ok_bind]
  dsimp only
  split
  · case h_1 heq =>
    cases n with
    | zero => simp [Nat.toDigits_zero] at heq
    | succ n => exact absurd (by rw [heq]; rfl) (head?_toDigits (Nat.succ_pos n))
  · rfl

/-! ### Integers -/

/-- The numeral as which an integer is written. -/
def ofInt (n : Int) : Numeral :=
  ⟨n < 0, Nat.toDigits 10 n.natAbs, [], none⟩

theorem scan_rest {s : List Char} (hs : Stops s) (atEnd : Fault) :
    scanFraction atEnd s = .ok ([], s) ∧ scanExponent atEnd s = .ok (none, s) := by
  cases s with
  | nil => exact ⟨rfl, rfl⟩
  | cons c s =>
    have part : isNumeralPart c = false := hs c rfl
    simp only [isNumeralPart, Bool.or_eq_false_iff, beq_eq_false_iff_ne] at part
    obtain ⟨⟨⟨-, point⟩, small⟩, large⟩ := part
    refine ⟨?_, ?_⟩
    · rw [scanFraction]
      intro t ht
      cases ht
      exact point rfl
    · simp only [scanExponent, small, large, or_self, if_false]
      rfl

/-- Digits with a sign before them, if any. -/
theorem scan_toDigits (n : Nat) {s : List Char} (hs : Stops s) (atEnd : Fault) :
    scan atEnd (Nat.toDigits 10 n ++ s) = .ok (⟨false, Nat.toDigits 10 n, [], none⟩, s) ∧
      scan atEnd ('-' :: (Nat.toDigits 10 n ++ s)) =
        .ok (⟨true, Nat.toDigits 10 n, [], none⟩, s) := by
  have whole : scanWhole atEnd (Nat.toDigits 10 n ++ s) = .ok (Nat.toDigits 10 n, s) := by
    apply scanWhole_toDigits
    intro c hc
    have part := hs c hc
    simp only [isNumeralPart, Bool.or_eq_false_iff] at part
    exact part.1.1.1
  obtain ⟨fraction, exponent⟩ := scan_rest hs atEnd
  refine ⟨?_, ?_⟩
  · unfold scan
    split
    · case h_1 heq =>
      split at heq
      · case h_1 hminus =>
        -- A numeral without a sign begins with a digit.
        have first : (Nat.toDigits 10 n ++ s).head? = some '-' := by rw [hminus]; rfl
        rw [List.head?_append, Option.or_of_isSome (by simp)] at first
        have digit := isDigit_toDigits n '-' (List.mem_of_mem_head? first)
        cases digit
      · cases heq
        simp only [whole, fraction, exponent, ok_bind]
        rfl
  · unfold scan
    simp only [whole, fraction, exponent, ok_bind]
    rfl

/-- An integer that is written is cut off the text as its numeral. -/
theorem scan_intChars (n : Int) {s : List Char} (hs : Stops s) (atEnd : Fault) :
    scan atEnd (intChars n ++ s) = .ok (ofInt n, s) := by
  cases n with
  | ofNat n =>
    have sign : decide (Int.ofNat n < 0) = false :=
      decide_eq_false (Int.not_lt.mpr (Int.natCast_nonneg n))
    rw [ofInt, sign]
    exact (scan_toDigits n hs atEnd).1
  | negSucc n =>
    have sign : decide (Int.negSucc n < 0) = true := decide_eq_true (by omega)
    rw [ofInt, sign]
    exact (scan_toDigits (n + 1) hs atEnd).2

/-- The numeral of an integer of 64 bits has this integer as its value. -/
theorem value_ofInt {n : Int} (h : fitsWord n) : (ofInt n).value = .ok (.int n) := by
  simp only [fitsWord, Bool.and_eq_true, decide_eq_true_eq] at h
  rw [value]
  simp only [ofInt, Nat.ofDigitChars_toDigits (b := 10) (by decide) (by decide), List.isEmpty_nil,
    Option.isNone_none, Bool.and_self, Bool.true_and, Bool.and_eq_true, Bool.not_eq_true',
    decide_eq_true_eq, decide_eq_false_iff_not]
  split
  · case isTrue hpos => rw [show (n.natAbs : Int) = n by omega]
  · case isFalse hpos =>
    rw [if_pos (by omega), show -(n.natAbs : Int) = n by omega]

/-- What a numeral stands for is an integer of 64 bits or a number that is no integer. -/
theorem value_cases {x : Numeral} {v : Json} (h : x.value = .ok v) :
    (∃ n, v = .int n ∧ fitsWord n) ∨ ∃ y, v = .double y := by
  rw [value] at h
  simp only [fitsWord, Bool.and_eq_true, decide_eq_true_eq, Bool.not_eq_true'] at h ⊢
  split at h
  · case isTrue hc =>
    cases h
    exact .inl ⟨_, rfl, by omega, by omega⟩
  split at h
  · case isTrue hc =>
    cases h
    exact .inl ⟨_, rfl, by omega, by omega⟩
  · cases hd : x.toBinary64 with
    | error fault => rw [hd] at h; cases h
    | ok y =>
      rw [hd] at h
      cases h
      exact .inr ⟨y, rfl⟩

end Numeral

end AgentThreads.Json
