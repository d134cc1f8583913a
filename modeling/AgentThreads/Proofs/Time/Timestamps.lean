import AgentThreads.Proofs.Outcomes
import AgentThreads.Proofs.Time.Calendar
import AgentThreads.Time.Rfc3339
import Mathlib.Data.List.TakeDrop

/-!
# Written timestamps

An instant is written in UTC with milliseconds. If its year has four digits, what is written is read
back as the instant without the digits below the millisecond; and this one is written the same. If
not, what is written begins with a sign and is no timestamp. The instants are those that are read: a
leap second is the sixtieth second of a minute.
-/

namespace AgentThreads

namespace Instant

/-- The instant is on the calendar and the clock. -/
structure Valid (t : Instant) : Prop where
  /-- A second has `10 ^ 9` nanoseconds, and a leap second as many more. -/
  nanos_lt : t.nanos < 2000000000
  /-- A leap second comes at the end of a minute. -/
  endsMinute : t.isLeap → t.seconds % 60 = 59

/-- The date in UTC. -/
def date (t : Instant) : Date :=
  Date.ofDays (t.seconds / 86400)

/-- The instant without the digits below the millisecond. -/
def cut (t : Instant) : Instant :=
  ⟨t.seconds, t.nanos / 1000000 * 1000000⟩

theorem isLeap_iff (t : Instant) : t.isLeap ↔ 1000000000 ≤ t.nanos :=
  decide_eq_true_iff

theorem isLeap_cut (t : Instant) : t.cut.isLeap = t.isLeap := by
  rw [Bool.eq_iff_iff, isLeap_iff, isLeap_iff]
  simp only [cut]
  omega

theorem valid_of_ofMillis? {millis : Int} {t : Instant} (h : ofMillis? millis = some t) :
    t.Valid := by
  unfold ofMillis? at h
  split at h
  · cases h
    refine ⟨by dsimp only; omega, fun hleap => ?_⟩
    simp only [isLeap, decide_eq_true_eq] at hleap
    omega
  · cases h

end Instant

namespace Rfc3339

/-! ### Numbers in a fixed number of digits -/

theorem isDigit_of_mem_padded {width n : Nat} {c : Char} (h : c ∈ padded width n) : c.isDigit := by
  rw [padded, List.leftpad, List.mem_append] at h
  rcases h with h | h
  · rw [List.eq_of_mem_replicate h]
    rfl
  · exact Nat.isDigit_of_mem_toDigits (by decide) (by decide) h

theorem number_padded (width n : Nat) : number (padded width n) = n := by
  rw [number, padded, List.leftpad, Nat.ofDigitChars_append, Nat.ofDigitChars_replicate_zero]
  exact Nat.ofDigitChars_toDigits (by decide) (by decide)

theorem length_padded {width : Nat} (hpos : 0 < width) {n : Nat} (h : n < Nat.pow 10 width) :
    (padded width n).length = width := by
  have := (Nat.length_toDigits_le_iff (by decide) hpos).mpr h
  rw [padded, List.leftpad, List.length_append, List.length_replicate]
  omega

theorem le_length_padded (width n : Nat) : width ≤ (padded width n).length := by
  rw [padded, List.leftpad, List.length_append, List.length_replicate]
  omega

theorem scanPair_padded {n : Nat} (h : n < 100) (s : List Char) :
    scanPair (padded 2 n ++ s) = .ok (n, s) := by
  have digits : ∀ c ∈ padded 2 n, c.isDigit := fun _ hc => isDigit_of_mem_padded hc
  have value := number_padded 2 n
  have length := length_padded Nat.two_pos h
  generalize padded 2 n = ds at digits value length
  match ds, length with
  | [a, b], _ =>
    simp only [List.forall_mem_cons] at digits
    simp [scanPair, digits, value]

theorem scanYear_padded {n : Nat} (h : n < 10000) (s : List Char) :
    scanYear (padded 4 n ++ s) = .ok (n, s) := by
  have digits : ∀ c ∈ padded 4 n, c.isDigit := fun _ hc => isDigit_of_mem_padded hc
  have value := number_padded 4 n
  have length := length_padded (Nat.succ_pos 3) h
  generalize padded 4 n = ds at digits value length
  match ds, length with
  | [a, b, c, d], _ =>
    simp only [List.forall_mem_cons] at digits
    simp [scanYear, digits, value]

theorem scanFraction_point {s : List Char} (h : s.takeWhile Char.isDigit ≠ []) :
    scanFraction ('.' :: s) =
      .ok (fractionNanos (s.takeWhile Char.isDigit), s.dropWhile Char.isDigit) := by
  cases htake : s.takeWhile Char.isDigit with
  | nil => exact absurd htake h
  | cons d ds => simp [scanFraction, htake]

/-- Milliseconds are read as nanoseconds. -/
theorem scanFraction_padded {n : Nat} (h : n < 1000) (s : List Char)
    (hs : ∀ c ∈ s.head?, c.isDigit = false) :
    scanFraction ('.' :: (padded 3 n ++ s)) = .ok (n * 1000000, s) := by
  have digits : ∀ c ∈ padded 3 n, c.isDigit := fun _ hc => isDigit_of_mem_padded hc
  have value := number_padded 3 n
  have length := length_padded (Nat.succ_pos 2) h
  have taken : s.takeWhile Char.isDigit = [] ∧ s.dropWhile Char.isDigit = s := by
    cases s with
    | nil => exact ⟨rfl, rfl⟩
    | cons c s => simp [hs c rfl]
  have front : (padded 3 n ++ s).takeWhile Char.isDigit = padded 3 n := by
    rw [List.takeWhile_append_of_pos digits, taken.1, List.append_nil]
  have back : (padded 3 n ++ s).dropWhile Char.isDigit = s := by
    rw [List.dropWhile_append_of_pos digits, taken.2]
  have some : padded 3 n ≠ [] := List.ne_nil_of_length_eq_add_one length
  rw [scanFraction_point (by rwa [front]), front, back, fractionNanos,
    List.take_of_length_le (by rw [length]; decide), length, value]

/-! ### Writing and reading -/

theorem length_le_byteCount (s : List Char) : s.length ≤ Text.Utf8.byteCount s := by
  induction s with
  | nil => exact Nat.le_refl _
  | cons c s ih =>
    have := Char.utf8Size_pos c
    simp only [Text.Utf8.byteCount, List.foldr_cons, List.length_cons] at ih ⊢
    omega

/-- The clock shows the time of day and the second, which is the sixtieth in a leap second. -/
theorem toInstant_date {t : Instant} (ht : t.Valid) :
    toInstant t.date (t.secondOfDay / 3600) (t.secondOfDay / 60 % 60)
      (t.secondOfDay % 60 + if t.isLeap then 1 else 0) (t.nanos % 1000000000 / 1000000 * 1000000) 0 =
      t.cut := by
  have days : t.date.toDays = t.seconds / 86400 := Date.toDays_ofDays _
  have ends := ht.endsMinute
  have lt := ht.nanos_lt
  rw [toInstant, days]
  simp only [Instant.cut, Instant.mk.injEq, Instant.secondOfDay, Instant.isLeap,
    decide_eq_true_eq] at ends ⊢
  split
  · case isTrue hleap =>
    have := ends hleap
    refine ⟨by omega, ?_⟩
    rw [if_pos (by omega)]
    omega
  · case isFalse hleap =>
    refine ⟨by omega, ?_⟩
    rw [if_neg (by omega)]
    omega

theorem scanOneOf_cons {allowed : List Char} {c : Char} (h : c ∈ allowed) (s : List Char) :
    scanOneOf allowed (c :: s) = .ok s := by
  rw [scanOneOf, if_pos h]

/-- What is written is long enough for a timestamp. -/
theorem not_byteCount_write_lt (t : Instant) : ¬Text.Utf8.byteCount (write t) < 19 := by
  have year : 4 ≤ (yearChars t.date.year).length := by
    unfold yearChars
    split
    · exact le_length_padded 4 _
    · exact Nat.le_succ_of_le (le_length_padded 4 _)
  have long : 19 ≤ (write t).length := by
    rw [Instant.date] at year
    simp only [write, List.length_append, List.length_cons]
    have := le_length_padded 2
    have := le_length_padded 3
    grind
  have := length_le_byteCount (write t)
  omega

/-- **A written timestamp is read back**, but for the digits below the millisecond. -/
theorem read_write {t : Instant} (ht : t.Valid) (hfrom : 0 ≤ t.date.year)
    (hto : t.date.year ≤ 9999) : read (write t) = .ok t.cut := by
  have valid : t.date.isValid := Date.isValid_ofDays _
  have bounds := Date.le_of_isValid valid
  have year : (t.date.year.toNat : Int) = t.date.year := Int.toNat_of_nonneg hfrom
  have day : t.secondOfDay < 86400 := by
    simp only [Instant.secondOfDay]
    omega
  have second : t.secondOfDay % 60 + (if t.isLeap then 1 else 0) ≤ 60 := by
    split <;> omega
  have write_eq : write t = padded 4 t.date.year.toNat ++ ('-' :: (padded 2 t.date.month ++
      ('-' :: (padded 2 t.date.day ++ ('T' :: (padded 2 (t.secondOfDay / 3600) ++
      (':' :: (padded 2 (t.secondOfDay / 60 % 60) ++
      (':' :: (padded 2 (t.secondOfDay % 60 + (if t.isLeap then 1 else 0)) ++
      ('.' :: (padded 3 (t.nanos % 1000000000 / 1000000) ++ ['Z'])))))))))))) := by
    have chars : yearChars t.date.year = padded 4 t.date.year.toNat := if_pos ⟨hfrom, hto⟩
    rw [← chars, Instant.date]
    simp only [write, List.append_assoc, List.cons_append]
  have zone : ∀ c ∈ ['Z'].head?, c.isDigit = false := by
    intro c hc
    cases hc
    rfl
  rw [read, check_eq_ok_iff]
  refine ⟨not_byteCount_write_lt t, ?_⟩
  rw [write_eq]
  -- Each step takes what was written for it and leaves the rest.
  refine bind_eq_ok_iff.mpr ⟨_, scanYear_padded (by omega) _, ?_⟩
  refine bind_eq_ok_iff.mpr ⟨_, scanOneOf_cons (by decide) _, ?_⟩
  refine bind_eq_ok_iff.mpr ⟨_, scanPair_padded (by omega) _, ?_⟩
  refine bind_eq_ok_iff.mpr ⟨_, scanOneOf_cons (by decide) _, ?_⟩
  refine bind_eq_ok_iff.mpr ⟨_, scanPair_padded (by omega) _, ?_⟩
  refine check_eq_ok_iff.mpr ⟨?_, ?_⟩
  · rw [year]
    simpa using valid
  refine bind_eq_ok_iff.mpr ⟨_, scanOneOf_cons (by decide) _, ?_⟩
  refine bind_eq_ok_iff.mpr ⟨_, scanPair_padded (by omega) _, ?_⟩
  refine bind_eq_ok_iff.mpr ⟨_, scanOneOf_cons (by decide) _, ?_⟩
  refine bind_eq_ok_iff.mpr ⟨_, scanPair_padded (by omega) _, ?_⟩
  refine bind_eq_ok_iff.mpr ⟨_, scanOneOf_cons (by decide) _, ?_⟩
  refine bind_eq_ok_iff.mpr ⟨_, scanPair_padded (by omega) _, ?_⟩
  refine bind_eq_ok_iff.mpr ⟨_, scanFraction_padded (by omega) _ zone, ?_⟩
  refine check_eq_ok_iff.mpr ⟨by omega, ?_⟩
  refine bind_eq_ok_iff.mpr ⟨(0, []), rfl, ?_⟩
  refine check_eq_ok_iff.mpr ⟨by decide, ?_⟩
  refine check_eq_ok_iff.mpr ⟨by decide, ?_⟩
  rw [← toInstant_date ht, year]
  rfl

theorem scanYear_of_not_isDigit {c : Char} (h : c.isDigit = false) (s : List Char) :
    scanYear (c :: s) = .error .invalid := by
  unfold scanYear
  split
  · case h_1 heq =>
    obtain ⟨rfl, -⟩ := List.cons.inj heq
    simp [h]
  · rfl

/-- A year that does not have four digits is written with a sign, with which no timestamp begins. -/
theorem read_write_of_year {t : Instant} (h : ¬(0 ≤ t.date.year ∧ t.date.year ≤ 9999)) :
    read (write t) = .error .invalid := by
  obtain ⟨rest, hrest⟩ : ∃ rest, write t = yearChars t.date.year ++ rest := by
    simp only [write, List.append_assoc]
    exact ⟨_, rfl⟩
  have sign : (if t.date.year < 0 then '-' else '+').isDigit = false := by
    split <;> rfl
  rw [read, if_neg (not_byteCount_write_lt t), hrest, yearChars, if_neg h, List.cons_append,
    scanYear_of_not_isDigit sign]
  rfl

/-- The digits that are cut off are not written. -/
theorem write_cut (t : Instant) : write t.cut = write t := by
  have millis : t.cut.nanos % 1000000000 / 1000000 = t.nanos % 1000000000 / 1000000 := by
    simp only [Instant.cut]
    omega
  rw [write, Instant.isLeap_cut, millis]
  rfl

/-! ### What is read -/

theorem ofDigitChars_lt {ds : List Char} (h : ∀ c ∈ ds, c.isDigit) (n : Nat) :
    Nat.ofDigitChars 10 ds n < (n + 1) * Nat.pow 10 ds.length := by
  induction ds generalizing n with
  | nil => simp
  | cons c ds ih =>
    obtain ⟨hc, hds⟩ := List.forall_mem_cons.mp h
    have digit : c.toNat - '0'.toNat ≤ 9 := by
      simp only [Char.isDigit, Bool.and_eq_true, decide_eq_true_eq] at hc
      have : c.toNat ≤ 57 := hc.2
      have : '0'.toNat = 48 := rfl
      omega
    rw [Nat.ofDigitChars_cons, List.length_cons]
    calc Nat.ofDigitChars 10 ds (10 * n + (c.toNat - '0'.toNat))
        < (10 * n + (c.toNat - '0'.toNat) + 1) * 10 ^ ds.length := ih hds _
      _ ≤ ((n + 1) * 10) * 10 ^ ds.length := Nat.mul_le_mul_right _ (by omega)
      _ = (n + 1) * 10 ^ (ds.length + 1) := by rw [Nat.mul_assoc, Nat.pow_succ']

theorem fractionNanos_lt {ds : List Char} (h : ∀ c ∈ ds, c.isDigit) :
    fractionNanos ds < 1000000000 := by
  have value : number (ds.take 9) < 10 ^ (ds.take 9).length := by
    have digits : ∀ c ∈ ds.take 9, c.isDigit := fun c hc => h c (List.mem_of_mem_take hc)
    simpa [number] using ofDigitChars_lt digits 0
  have places : (ds.take 9).length + (9 - ds.length) = 9 := by
    rw [List.length_take]
    omega
  calc number (ds.take 9) * 10 ^ (9 - ds.length)
      < 10 ^ (ds.take 9).length * 10 ^ (9 - ds.length) :=
        Nat.mul_lt_mul_of_pos_right value (Nat.pow_pos (by decide))
    _ = 10 ^ 9 := by rw [← Nat.pow_add, places]

/-- A fraction is less than a second. -/
theorem lt_of_scanFraction {s rest : List Char} {n : Nat} (h : scanFraction s = .ok (n, rest)) :
    n < 1000000000 := by
  have digits (s : List Char) : ∀ c ∈ s.takeWhile Char.isDigit, c.isDigit :=
    List.all_eq_true.mp List.all_takeWhile
  unfold scanFraction at h
  split at h
  · split at h
    · cases h
    · cases h
    · cases h
      exact fractionNanos_lt (digits _)
  · cases h
    decide

/-- What is read is on the calendar and the clock. -/
theorem valid_of_read {s : List Char} {t : Instant} (h : read s = .ok t) : t.Valid := by
  obtain ⟨-, h⟩ := check_eq_ok_iff.mp h
  obtain ⟨⟨year, s⟩, -, h⟩ := bind_eq_ok_iff.mp h
  obtain ⟨s, -, h⟩ := bind_eq_ok_iff.mp h
  obtain ⟨⟨month, s⟩, -, h⟩ := bind_eq_ok_iff.mp h
  obtain ⟨s, -, h⟩ := bind_eq_ok_iff.mp h
  obtain ⟨⟨day, s⟩, -, h⟩ := bind_eq_ok_iff.mp h
  obtain ⟨-, h⟩ := check_eq_ok_iff.mp h
  obtain ⟨s, -, h⟩ := bind_eq_ok_iff.mp h
  obtain ⟨⟨hour, s⟩, -, h⟩ := bind_eq_ok_iff.mp h
  obtain ⟨s, -, h⟩ := bind_eq_ok_iff.mp h
  obtain ⟨⟨minute, s⟩, -, h⟩ := bind_eq_ok_iff.mp h
  obtain ⟨s, -, h⟩ := bind_eq_ok_iff.mp h
  obtain ⟨⟨second, s⟩, -, h⟩ := bind_eq_ok_iff.mp h
  obtain ⟨⟨nanos, s⟩, hnanos, h⟩ := bind_eq_ok_iff.mp h
  obtain ⟨clock, h⟩ := check_eq_ok_iff.mp h
  obtain ⟨⟨offset, s⟩, -, h⟩ := bind_eq_ok_iff.mp h
  obtain ⟨-, h⟩ := check_eq_ok_iff.mp h
  obtain ⟨-, h⟩ := check_eq_ok_iff.mp h
  cases h
  have lt := lt_of_scanFraction hnanos
  constructor
  · simp only [toInstant]
    split <;> omega
  · rw [Instant.isLeap_iff]
    simp only [toInstant]
    split
    · omega
    · omega

end Rfc3339

end AgentThreads
