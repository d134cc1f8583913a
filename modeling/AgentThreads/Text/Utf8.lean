/-!
# UTF-8 with ill-formed parts

Bytes read as UTF-8, where each longest beginning of a sequence that cannot go on stands for one
missing character. A byte sequence without missing characters is a text; for display a missing
character is written `U+FFFD`.
-/

namespace AgentThreads.Text.Utf8

/-- A sequence that has begun: how many bytes are needed after the next one, the range that the next
one must lie in, and the bits read so far. -/
structure Pending where
  /-- Bytes needed after the next one. -/
  further : Nat
  /-- The least next byte. -/
  low : Nat
  /-- The greatest next byte. -/
  high : Nat
  /-- The bits of the bytes read. -/
  bits : Nat

/-- What has been decoded, a missing character being `none`, and the sequence that is open. -/
abbrev Progress := List (Option Char) × Option Pending

/-- A byte where a sequence may begin. The second byte of a sequence has a narrower range where a
wider one would admit an overlong form, a surrogate or a number above `0x10FFFF`. -/
def begin (b : UInt8) : Progress :=
  let n := b.toNat
  if n < 0x80 then ([some (Char.ofNat n)], none)
  else if n < 0xC2 then ([none], none)
  else if n < 0xE0 then ([], some ⟨0, 0x80, 0xBF, n - 0xC0⟩)
  else if n = 0xE0 then ([], some ⟨1, 0xA0, 0xBF, n - 0xE0⟩)
  else if n = 0xED then ([], some ⟨1, 0x80, 0x9F, n - 0xE0⟩)
  else if n < 0xF0 then ([], some ⟨1, 0x80, 0xBF, n - 0xE0⟩)
  else if n = 0xF0 then ([], some ⟨2, 0x90, 0xBF, n - 0xF0⟩)
  else if n < 0xF4 then ([], some ⟨2, 0x80, 0xBF, n - 0xF0⟩)
  else if n = 0xF4 then ([], some ⟨2, 0x80, 0x8F, n - 0xF0⟩)
  else ([none], none)

/-- The next byte of an open sequence. One out of range ends the sequence as a missing character
and may begin another. -/
def proceed (p : Pending) (b : UInt8) : Progress :=
  if p.low ≤ b.toNat ∧ b.toNat ≤ p.high then
    let bits := p.bits * 64 + (b.toNat - 0x80)
    match p.further with
    | 0 => ([some (Char.ofNat bits)], none)
    | further + 1 => ([], some ⟨further, 0x80, 0xBF, bits⟩)
  else
    let (done, pending) := begin b
    (none :: done, pending)

/-- Decodes the bytes that follow an open sequence, if there is one. -/
def decodeFrom : Option Pending → List UInt8 → List (Option Char)
  | none, [] => []
  | some _, [] => [none]
  | pending, b :: rest =>
    let (done, pending) := pending.elim (begin b) (proceed · b)
    done ++ decodeFrom pending rest

/-- The characters that the bytes stand for, `none` for each ill-formed part. -/
def decode (bytes : List UInt8) : List (Option Char) :=
  decodeFrom none bytes

/-- The text that the bytes stand for, if no part is ill-formed. -/
def toText? (bytes : List UInt8) : Option String :=
  ((decode bytes).mapM id).map String.ofList

/-- The bytes as a text to look at, with `U+FFFD` for each ill-formed part. -/
def display (bytes : List UInt8) : String :=
  String.ofList ((decode bytes).map (·.getD '\uFFFD'))

/-- The number of bytes that a text takes. -/
def byteCount (s : List Char) : Nat :=
  s.foldr (fun c bytes => c.utf8Size + bytes) 0

end AgentThreads.Text.Utf8
