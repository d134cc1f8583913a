import AgentThreads.Json.Fault
import AgentThreads.Text.Utf8

/-!
# The characters of JSON strings

A string stands between quotation marks. A quotation mark, a backslash and the controls are written
with a backslash; any character may be. A character beyond `U+FFFF` is written, if by number, as the
two surrogates of UTF-16.
-/

namespace AgentThreads.Json

/-- The number that a hexadecimal digit stands for. -/
def hexDigit? (c : Char) : Option Nat :=
  if c.isDigit then some (c.toNat - '0'.toNat)
  else if 'a' ≤ c ∧ c ≤ 'f' then some (c.toNat - 'a'.toNat + 10)
  else if 'A' ≤ c ∧ c ≤ 'F' then some (c.toNat - 'A'.toNat + 10)
  else none

/-- The number that hexadecimal digits stand for. -/
def hexNumber? (ds : List Char) : Option Nat :=
  (ds.mapM hexDigit?).map (·.foldl (16 * · + ·) 0)

/-- Four hexadecimal digits. A text ends too early for them if it has fewer than four bytes. -/
def scanHex : List Char → Except Fault (Nat × List Char)
  | a :: b :: c :: d :: s =>
    match hexNumber? [a, b, c, d] with
    | some n => .ok (n, s)
    | none => .error .badEscape
  | s => .error (if Text.Utf8.byteCount s < 4 then .endInString else .badEscape)

/-- The first of two surrogates. -/
def isHighSurrogate (n : Nat) : Bool :=
  0xD800 ≤ n && n ≤ 0xDBFF

/-- The second of two surrogates. -/
def isLowSurrogate (n : Nat) : Bool :=
  0xDC00 ≤ n && n ≤ 0xDFFF

/-- The character that two surrogates stand for. -/
def joinSurrogates (high low : Nat) : Char :=
  Char.ofNat (0x10000 + (high - 0xD800) * 0x400 + (low - 0xDC00))

/-- What follows the number of an escape: for a high surrogate, the escape of a low one. -/
def scanPartner (n : Nat) (s : List Char) : Except Fault (Char × List Char) :=
  if isLowSurrogate n then .error .loneSurrogate
  else if isHighSurrogate n then
    match s with
    | [] => .error .endInString
    | ['\\'] => .error .endInString
    | '\\' :: 'u' :: s =>
      match scanHex s with
      | .ok (low, s) =>
        if isLowSurrogate low then .ok (joinSurrogates n low, s) else .error .loneSurrogate
      | .error fault => .error fault
    | _ => .error .unpairedEscape
  else .ok (Char.ofNat n, s)

/-- The character that is escaped by a letter or stands for itself after a backslash. -/
def unescape? : Char → Option Char
  | '"' => some '"'
  | '\\' => some '\\'
  | '/' => some '/'
  | 'b' => some '\x08'
  | 'f' => some '\x0c'
  | 'n' => some '\n'
  | 'r' => some '\r'
  | 't' => some '\t'
  | _ => none

/-- What follows a backslash. Unless `paired`, a surrogate needs no partner, and nothing is said of
the character that it stands for. -/
def scanEscape (paired : Bool) : List Char → Except Fault (Char × List Char)
  | [] => .error .endInString
  | 'u' :: s =>
    match scanHex s with
    | .ok (n, s) => if paired then scanPartner n s else .ok (Char.ofNat n, s)
    | .error fault => .error fault
  | c :: s =>
    match unescape? c with
    | some d => .ok (d, s)
    | none => .error .badEscape

/-- Four hexadecimal digits take at least one character. -/
theorem scanHex_length {s rest : List Char} {n : Nat} (h : scanHex s = .ok (n, rest)) :
    rest.length < s.length := by
  unfold scanHex at h
  grind

/-- The second surrogate takes no character that is not there. -/
theorem scanPartner_length {n : Nat} {s rest : List Char} {c : Char}
    (h : scanPartner n s = .ok (c, rest)) : rest.length ≤ s.length := by
  unfold scanPartner at h
  grind [→ scanHex_length]

/-- An escape takes at least one character of the text. -/
theorem scanEscape_length {paired : Bool} {s rest : List Char} {c : Char}
    (h : scanEscape paired s = .ok (c, rest)) : rest.length < s.length := by
  unfold scanEscape at h
  grind [→ scanHex_length, → scanPartner_length]

/-- The characters up to the closing quotation mark, after those in `done`, which are in reverse. -/
def scanChars (paired : Bool) (done : List Char) (s : List Char) :
    Except Fault (List Char × List Char) :=
  match s with
  | [] => .error .endInString
  | '"' :: s => .ok (done.reverse, s)
  | '\\' :: s =>
    match h : scanEscape paired s with
    | .ok (c, rest) =>
      have := scanEscape_length h
      scanChars paired (c :: done) rest
    | .error fault => .error fault
  | c :: s => if c.toNat < 0x20 then .error .controlCharacter else scanChars paired (c :: done) s
termination_by s.length

/-- The rest of a string after its opening quotation mark. -/
def scanString (s : List Char) : Except Fault (String × List Char) :=
  (scanChars true [] s).map fun (cs, s) => (String.ofList cs, s)

/-- Drops the rest of a string after its opening quotation mark. Surrogates need not be paired. -/
def skipString (s : List Char) : Except Fault (List Char) :=
  (scanChars false [] s).map (·.2)

end AgentThreads.Json
