import AgentThreads.Json.Chars
import AgentThreads.Json.Printer

/-!
# Written strings

A string that is written is read back, whatever characters it has: each character is written in one
form, by itself or after a backslash, and a reader that meets this form takes exactly that character.
No control character is written as itself, so a written string stands on one line.
-/

namespace AgentThreads.Json

/-! ### Control characters by their numbers -/

/-- The number of a control is written in four digits, from which it is read. -/
theorem scanHex_leftpad {n : Nat} (h : n < 0x20) (s : List Char) :
    scanHex ((Nat.toDigits 16 n).leftpad 4 '0' ++ s) = .ok (n, s) := by
  have digits : ∀ k < 0x20, ((Nat.toDigits 16 k).leftpad 4 '0').length = 4 ∧
      hexNumber? ((Nat.toDigits 16 k).leftpad 4 '0') = some k := by decide
  obtain ⟨length, number⟩ := digits n h
  generalize (Nat.toDigits 16 n).leftpad 4 '0' = ds at length number
  match ds, length with
  | [a, b, c, d], _ => simp only [List.cons_append, List.nil_append, scanHex, number]

/-- What follows the backslash of a control is read as the control. -/
theorem scanEscape_leftpad {c : Char} (h : c.toNat < 0x20) (s : List Char) :
    scanEscape true ('u' :: ((Nat.toDigits 16 c.toNat).leftpad 4 '0' ++ s)) = .ok (c, s) := by
  have low : isLowSurrogate c.toNat = false := by simp [isLowSurrogate]; omega
  have high : isHighSurrogate c.toNat = false := by simp [isHighSurrogate]; omega
  rw [scanEscape, scanHex_leftpad h]
  simp [scanPartner, low, high, Char.ofNat_toNat]

/-! ### Characters -/

theorem scanChars_escape {done s t : List Char} {c : Char} (h : scanEscape true t = .ok (c, s)) :
    scanChars true done ('\\' :: t) = scanChars true (c :: done) s := by
  rw [scanChars]
  split
  · case h_1 heq =>
    rw [h] at heq
    cases heq
    rfl
  · case h_2 heq =>
    rw [h] at heq
    cases heq

/-- A character that is written is the next one that is read. -/
theorem scanChars_escapeChar (c : Char) (done s : List Char) :
    scanChars true done (escapeChar c ++ s) = scanChars true (c :: done) s := by
  unfold escapeChar
  split
  · case isTrue h => rcases h with rfl | rfl <;> exact scanChars_escape rfl
  split
  · case isTrue h => subst h; exact scanChars_escape rfl
  split
  · case isTrue h => subst h; exact scanChars_escape rfl
  split
  · case isTrue h => subst h; exact scanChars_escape rfl
  split
  · case isTrue h => subst h; exact scanChars_escape rfl
  split
  · case isTrue h => subst h; exact scanChars_escape rfl
  split
  · case isTrue h => exact scanChars_escape (scanEscape_leftpad h s)
  · case isFalse hquoted _ _ _ _ _ hcontrol =>
    obtain ⟨hquote, hslash⟩ := not_or.mp hquoted
    rw [List.singleton_append, scanChars, if_neg hcontrol]
    · exact hquote
    · exact hslash

theorem scanChars_flatMap_escapeChar (cs done s : List Char) :
    scanChars true done (cs.flatMap escapeChar ++ '"' :: s) = .ok (done.reverse ++ cs, s) := by
  induction cs generalizing done with
  | nil => simp [scanChars]
  | cons c cs ih =>
    rw [List.flatMap_cons, List.append_assoc, scanChars_escapeChar, ih]
    simp

/-- The rest of a written string after its opening quotation mark. -/
def unquoted (text : String) : List Char :=
  text.toList.flatMap escapeChar ++ ['"']

theorem quote_eq (text : String) : quote text = '"' :: unquoted text := rfl

/-- A written string is read back. -/
theorem scanString_unquoted (text : String) (s : List Char) :
    scanString (unquoted text ++ s) = .ok (text, s) := by
  rw [scanString, unquoted, List.append_assoc, List.singleton_append,
    scanChars_flatMap_escapeChar]
  simp [Except.map]

/-! ### One line -/

/-- The character is no control, in particular it ends no line. -/
def isVisible (c : Char) : Bool :=
  0x20 ≤ c.toNat

theorem isVisible_escapeByNumber {c d : Char} (h : c.toNat < 0x20) (hd : d ∈ escapeByNumber c) :
    isVisible d := by
  have all : ∀ n < 0x20, (('\\' :: 'u' :: (Nat.toDigits 16 n).leftpad 4 '0').all isVisible) := by
    decide
  exact List.all_eq_true.mp (all c.toNat h) d hd

theorem isVisible_of_mem {s : List Char} (hs : s.all isVisible) {c : Char} (h : c ∈ s) :
    isVisible c :=
  List.all_eq_true.mp hs c h

theorem isVisible_of_mem_escapeChar {c d : Char} (h : d ∈ escapeChar c) : isVisible d := by
  unfold escapeChar at h
  split at h
  · case isTrue hc =>
    rcases hc with rfl | rfl
    · exact isVisible_of_mem (by decide) h
    · exact isVisible_of_mem (by decide) h
  repeat
    split at h
    · exact isVisible_of_mem (by decide) h
  split at h
  · case isTrue hc => exact isVisible_escapeByNumber hc h
  · case isFalse hc =>
    obtain rfl := List.mem_singleton.mp h
    simpa [isVisible] using hc

/-- A written string has visible characters only. -/
theorem isVisible_of_mem_quote {text : String} {d : Char} (h : d ∈ quote text) : isVisible d := by
  rw [quote, List.mem_append, List.mem_cons, List.mem_flatMap, List.mem_singleton] at h
  rcases h with (rfl | ⟨c, -, hd⟩) | rfl
  · rfl
  · exact isVisible_of_mem_escapeChar hd
  · rfl

end AgentThreads.Json
