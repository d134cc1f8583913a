import AgentThreads.Files.Path
import AgentThreads.Text.Utf8
import Mathlib.Data.List.Basic

/-!
# Texts as bytes

Bytes are a text if and only if they are the UTF-8 encoding of one, and then they are the text that
they encode. The table of well-formed sequences is stated once. What is decoded, and what a character
is encoded as, are both read off it.
-/

namespace AgentThreads

namespace Text.Utf8

/-- The bytes are the sequence of the character with the number. The ranges of the second byte leave
out the overlong forms, the surrogates, and the numbers that are too large. -/
inductive Sequence : List UInt8 → Nat → Prop where
  /-- A character of one byte. -/
  | one {a : UInt8} (ha : a.toNat < 0x80) : Sequence [a] a.toNat
  /-- A character of two bytes. -/
  | two {a b : UInt8} (ha : 0xC2 ≤ a.toNat ∧ a.toNat < 0xE0) (hb : 0x80 ≤ b.toNat ∧ b.toNat ≤ 0xBF) :
    Sequence [a, b] ((a.toNat - 0xC0) * 64 + (b.toNat - 0x80))
  /-- A character of three bytes. -/
  | three {a b c : UInt8} (ha : 0xE0 ≤ a.toNat ∧ a.toNat < 0xF0)
    (hb : (if a.toNat = 0xE0 then 0xA0 else 0x80) ≤ b.toNat ∧
      b.toNat ≤ if a.toNat = 0xED then 0x9F else 0xBF)
    (hc : 0x80 ≤ c.toNat ∧ c.toNat ≤ 0xBF) :
    Sequence [a, b, c] (((a.toNat - 0xE0) * 64 + (b.toNat - 0x80)) * 64 + (c.toNat - 0x80))
  /-- A character of four bytes. -/
  | four {a b c d : UInt8} (ha : 0xF0 ≤ a.toNat ∧ a.toNat < 0xF5)
    (hb : (if a.toNat = 0xF0 then 0x90 else 0x80) ≤ b.toNat ∧
      b.toNat ≤ if a.toNat = 0xF4 then 0x8F else 0xBF)
    (hc : 0x80 ≤ c.toNat ∧ c.toNat ≤ 0xBF) (hd : 0x80 ≤ d.toNat ∧ d.toNat ≤ 0xBF) :
    Sequence [a, b, c, d]
      ((((a.toNat - 0xF0) * 64 + (b.toNat - 0x80)) * 64 + (c.toNat - 0x80)) * 64
        + (d.toNat - 0x80))

/-! ### Decoding -/

section Begin

variable {a : UInt8}

theorem begin_one (h : a.toNat < 0x80) : begin a = ([some (Char.ofNat a.toNat)], none) := by
  simp only [begin, h, if_true]

theorem begin_two (h : 0xC2 ≤ a.toNat ∧ a.toNat < 0xE0) :
    begin a = ([], some ⟨0, 0x80, 0xBF, a.toNat - 0xC0⟩) := by
  simp only [begin]
  rw [if_neg (by omega), if_neg (by omega), if_pos h.2]

theorem begin_three (h : 0xE0 ≤ a.toNat ∧ a.toNat < 0xF0) :
    begin a = ([], some ⟨1, if a.toNat = 0xE0 then 0xA0 else 0x80,
      if a.toNat = 0xED then 0x9F else 0xBF, a.toNat - 0xE0⟩) := by
  simp only [begin]
  rw [if_neg (by omega), if_neg (by omega), if_neg (by omega)]
  by_cases hleast : a.toNat = 0xE0
  · simp [hleast]
  · by_cases hsurrogates : a.toNat = 0xED
    · simp [hsurrogates]
    · simp [hleast, hsurrogates, h.2]

theorem begin_four (h : 0xF0 ≤ a.toNat ∧ a.toNat < 0xF5) :
    begin a = ([], some ⟨2, if a.toNat = 0xF0 then 0x90 else 0x80,
      if a.toNat = 0xF4 then 0x8F else 0xBF, a.toNat - 0xF0⟩) := by
  simp only [begin]
  rw [if_neg (by omega), if_neg (by omega), if_neg (by omega), if_neg (by omega),
    if_neg (by omega), if_neg (by omega)]
  by_cases hleast : a.toNat = 0xF0
  · simp [hleast]
  · by_cases hgreatest : a.toNat = 0xF4
    · simp [hgreatest]
    · simp [hleast, hgreatest, show a.toNat < 0xF4 by omega]

/-- No character begins with another byte. -/
theorem begin_other (hone : ¬a.toNat < 0x80) (htwo : ¬(0xC2 ≤ a.toNat ∧ a.toNat < 0xE0))
    (hthree : ¬(0xE0 ≤ a.toNat ∧ a.toNat < 0xF0)) (hfour : ¬(0xF0 ≤ a.toNat ∧ a.toNat < 0xF5)) :
    begin a = ([none], none) := by
  simp only [begin]
  rw [if_neg hone]
  by_cases hlow : a.toNat < 0xC2
  · rw [if_pos hlow]
  · rw [if_neg hlow]
    repeat rw [if_neg (by omega)]

end Begin

theorem decodeFrom_none_cons (a : UInt8) (rest : List UInt8) :
    decodeFrom none (a :: rest) = (begin a).1 ++ decodeFrom (begin a).2 rest := rfl

theorem decodeFrom_some_cons (p : Pending) (b : UInt8) (rest : List UInt8) :
    decodeFrom (some p) (b :: rest) = (proceed p b).1 ++ decodeFrom (proceed p b).2 rest := rfl

/-- The last byte of a sequence. -/
theorem decodeFrom_last {low high bits : Nat} {b : UInt8} (h : low ≤ b.toNat ∧ b.toNat ≤ high)
    (rest : List UInt8) : decodeFrom (some ⟨0, low, high, bits⟩) (b :: rest) =
      some (Char.ofNat (bits * 64 + (b.toNat - 0x80))) :: decodeFrom none rest := by
  rw [decodeFrom_some_cons, proceed, if_pos h]
  rfl

/-- A byte of a sequence that has further ones. -/
theorem decodeFrom_further {further low high bits : Nat} {b : UInt8}
    (h : low ≤ b.toNat ∧ b.toNat ≤ high) (rest : List UInt8) :
    decodeFrom (some ⟨further + 1, low, high, bits⟩) (b :: rest) =
      decodeFrom (some ⟨further, 0x80, 0xBF, bits * 64 + (b.toNat - 0x80)⟩) rest := by
  rw [decodeFrom_some_cons, proceed, if_pos h]
  rfl

/-- An open sequence goes on with a byte in range, or a character is missing. -/
theorem decodeFrom_some_cases (p : Pending) (bytes : List UInt8) :
    none ∈ decodeFrom (some p) bytes ∨
      ∃ b rest, bytes = b :: rest ∧ p.low ≤ b.toNat ∧ b.toNat ≤ p.high := by
  cases bytes with
  | nil => simp [decodeFrom]
  | cons b rest =>
    by_cases h : p.low ≤ b.toNat ∧ b.toNat ≤ p.high
    · exact .inr ⟨b, rest, rfl, h⟩
    · rw [decodeFrom_some_cons, proceed, if_neg h]
      simp

/-- A sequence is decoded to its character. -/
theorem Sequence.decode {bytes : List UInt8} {n : Nat} (h : Sequence bytes n) (rest : List UInt8) :
    decode (bytes ++ rest) = some (Char.ofNat n) :: decode rest := by
  unfold Utf8.decode
  cases h with
  | one ha => simp [decodeFrom_none_cons, begin_one ha]
  | two ha hb => simp [decodeFrom_none_cons, begin_two ha, decodeFrom_last, hb]
  | three ha hb hc =>
    simp [decodeFrom_none_cons, begin_three ha, decodeFrom_further, decodeFrom_last, hb, hc]
  | four ha hb hc hd =>
    simp [decodeFrom_none_cons, begin_four ha, decodeFrom_further, decodeFrom_last, hb, hc, hd]

/-- Bytes begin with a sequence, or a character is missing. -/
theorem sequence_or_missing {bytes : List UInt8} (h : bytes ≠ []) :
    none ∈ decode bytes ∨ ∃ taken n rest, bytes = taken ++ rest ∧ Sequence taken n := by
  unfold decode
  obtain ⟨a, bytes, rfl⟩ := List.exists_cons_of_ne_nil h
  rw [decodeFrom_none_cons]
  by_cases hone : a.toNat < 0x80
  · exact .inr ⟨[a], _, bytes, rfl, .one hone⟩
  by_cases htwo : 0xC2 ≤ a.toNat ∧ a.toNat < 0xE0
  · rw [begin_two htwo]
    rcases decodeFrom_some_cases _ bytes with hnone | ⟨b, rest, rfl, hb⟩
    · exact .inl (List.mem_append_right _ hnone)
    · exact .inr ⟨[a, b], _, rest, rfl, .two htwo hb⟩
  by_cases hthree : 0xE0 ≤ a.toNat ∧ a.toNat < 0xF0
  · rw [begin_three hthree]
    rcases decodeFrom_some_cases _ bytes with hnone | ⟨b, bytes, rfl, hb⟩
    · exact .inl (List.mem_append_right _ hnone)
    rw [decodeFrom_further hb]
    rcases decodeFrom_some_cases _ bytes with hnone | ⟨c, rest, rfl, hc⟩
    · exact .inl (List.mem_append_right _ hnone)
    · exact .inr ⟨[a, b, c], _, rest, rfl, .three hthree hb hc⟩
  by_cases hfour : 0xF0 ≤ a.toNat ∧ a.toNat < 0xF5
  · rw [begin_four hfour]
    rcases decodeFrom_some_cases _ bytes with hnone | ⟨b, bytes, rfl, hb⟩
    · exact .inl (List.mem_append_right _ hnone)
    rw [decodeFrom_further hb]
    rcases decodeFrom_some_cases _ bytes with hnone | ⟨c, bytes, rfl, hc⟩
    · exact .inl (List.mem_append_right _ hnone)
    rw [decodeFrom_further hc]
    rcases decodeFrom_some_cases _ bytes with hnone | ⟨d, rest, rfl, hd⟩
    · exact .inl (List.mem_append_right _ hnone)
    · exact .inr ⟨[a, b, c, d], _, rest, rfl, .four hfour hb hc hd⟩
  rw [begin_other hone htwo hthree hfour]
  exact .inl (by simp)

/-! ### Encoding -/

/-- A byte is known by its number. -/
theorem ofNat_eq {n : Nat} {a : UInt8} (h : n = a.toNat) : UInt8.ofNat n = a := by
  rw [h, UInt8.ofNat_toNat]

/-- The character of a sequence is encoded as the sequence. -/
theorem Sequence.encode {bytes : List UInt8} {n : Nat} (h : Sequence bytes n) :
    String.utf8EncodeChar (Char.ofNat n) = bytes := by
  have number (valid : n.isValidChar) : (Char.ofNat n).val.toNat = n := by
    rw [Char.ofNat, dif_pos valid]
    rfl
  unfold String.utf8EncodeChar
  cases h with
  | @one a ha =>
    rw [number (.inl (by omega))]
    dsimp only
    rw [if_pos (by omega), ofNat_eq rfl]
  | @two a b ha hb =>
    rw [number (.inl (by omega))]
    dsimp only
    rw [if_neg (by omega), if_pos (by omega), ofNat_eq (a := a) (by omega),
      ofNat_eq (a := b) (by omega)]
  | @three a b c ha hb hc =>
    have least : a.toNat = 0xE0 → 0xA0 ≤ b.toNat := fun h => by simpa [h] using hb.1
    have below : a.toNat = 0xED → b.toNat ≤ 0x9F := fun h => by simpa [h] using hb.2
    have range : 0x80 ≤ b.toNat ∧ b.toNat ≤ 0xBF := by split at hb <;> split at hb <;> omega
    clear hb
    rw [number (by unfold Nat.isValidChar; omega)]
    dsimp only
    rw [if_neg (by omega), if_neg (by omega), if_pos (by omega), ofNat_eq (a := a) (by omega),
      ofNat_eq (a := b) (by omega), ofNat_eq (a := c) (by omega)]
  | @four a b c d ha hb hc hd =>
    have least : a.toNat = 0xF0 → 0x90 ≤ b.toNat := fun h => by simpa [h] using hb.1
    have below : a.toNat = 0xF4 → b.toNat ≤ 0x8F := fun h => by simpa [h] using hb.2
    have range : 0x80 ≤ b.toNat ∧ b.toNat ≤ 0xBF := by split at hb <;> split at hb <;> omega
    clear hb
    rw [number (by unfold Nat.isValidChar; omega)]
    dsimp only
    rw [if_neg (by omega), if_neg (by omega), if_neg (by omega), ofNat_eq (a := a) (by omega),
      ofNat_eq (a := b) (by omega), ofNat_eq (a := c) (by omega), ofNat_eq (a := d) (by omega)]

theorem Sequence.of_eq {bytes : List UInt8} {m n : Nat} (h : Sequence bytes m) (heq : m = n) :
    Sequence bytes n :=
  heq ▸ h

/-- What a character is encoded as is its sequence. -/
theorem sequence_utf8EncodeChar (c : Char) : Sequence (String.utf8EncodeChar c) c.toNat := by
  have byte {n : Nat} (h : n < 256) : (UInt8.ofNat n).toNat = n := by
    rw [UInt8.toNat_ofNat', Nat.mod_eq_of_lt h]
  have valid : c.val.toNat < 0xD800 ∨ 0xDFFF < c.val.toNat ∧ c.val.toNat < 0x110000 := c.valid
  unfold String.utf8EncodeChar
  change Sequence _ c.val.toNat
  generalize c.val.toNat = n at valid
  dsimp only
  split
  · exact (Sequence.one (by rw [byte (by omega)]; omega)).of_eq (byte (by omega))
  have last := byte (show n % 64 + 128 < 256 by omega)
  split
  · have first := byte (show n / 64 % 32 + 192 < 256 by omega)
    refine (Sequence.two ?_ ?_).of_eq ?_ <;> omega
  have middle := byte (show n / 64 % 64 + 128 < 256 by omega)
  split
  · have first := byte (show n / 4096 % 16 + 224 < 256 by omega)
    refine (Sequence.three ?_ ?_ ?_).of_eq ?_ <;> simp only [first, middle, last]
    · omega
    · constructor <;> split <;> omega
    · omega
    · omega
  · have first := byte (show n / 262144 % 8 + 240 < 256 by omega)
    have second := byte (show n / 4096 % 64 + 128 < 256 by omega)
    refine (Sequence.four ?_ ?_ ?_ ?_).of_eq ?_ <;> simp only [first, second, middle, last]
    · omega
    · constructor <;> split <;> omega
    · omega
    · omega
    · omega

/-! ### Texts -/

theorem decode_flatMap (cs : List Char) :
    decode (cs.flatMap String.utf8EncodeChar) = cs.map some := by
  induction cs with
  | nil => rfl
  | cons c cs ih =>
    rw [List.flatMap_cons, (sequence_utf8EncodeChar c).decode, ih, Char.ofNat_toNat, List.map_cons]

theorem eq_flatMap_of_decode {bytes : List UInt8} {cs : List Char}
    (h : decode bytes = cs.map some) : bytes = cs.flatMap String.utf8EncodeChar := by
  induction cs generalizing bytes with
  | nil =>
    by_contra hne
    rcases sequence_or_missing hne with hnone | ⟨taken, n, rest, rfl, hn⟩
    · simp [h] at hnone
    · rw [hn.decode] at h
      cases h
  | cons c cs ih =>
    have hne : bytes ≠ [] := by
      rintro rfl
      cases h
    rcases sequence_or_missing hne with hnone | ⟨taken, n, rest, rfl, hn⟩
    · simp [h] at hnone
    · rw [hn.decode, List.map_cons, List.cons.injEq, Option.some.injEq] at h
      obtain ⟨rfl, hrest⟩ := h
      rw [List.flatMap_cons, hn.encode, ← ih hrest]

theorem mapM_id_eq_some_iff {α : Type} {l : List (Option α)} {l' : List α} :
    l.mapM id = some l' ↔ l = l'.map some := by
  induction l generalizing l' with
  | nil => cases l' <;> simp
  | cons a l ih =>
    cases a with
    | none => cases l' <;> simp [List.mapM_cons]
    | some a =>
      cases l' with
      | nil => simp [List.mapM_cons, Option.bind_eq_some_iff]
      | cons b l' =>
        simp only [List.mapM_cons, id, Option.bind_eq_bind, Option.bind_some, List.map_cons,
          List.cons.injEq, Option.some.injEq, Option.bind_eq_some_iff, ih, pure]
        constructor
        · rintro ⟨_, hl, rfl, rfl⟩
          exact ⟨rfl, hl⟩
        · rintro ⟨rfl, hl⟩
          exact ⟨l', hl, rfl, rfl⟩

/-- Bytes are a text if and only if they encode it. -/
theorem toText?_eq_some_iff {bytes : List UInt8} {s : String} :
    toText? bytes = some s ↔ bytes = s.toByteArray.data.toList := by
  have encoded : s.toByteArray.data.toList = s.toList.flatMap String.utf8EncodeChar := by
    conv_lhs => rw [← String.ofList_toList (s := s)]
    rw [String.toByteArray_ofList, List.utf8Encode, List.data_toByteArray]
  rw [toText?, Option.map_eq_some_iff, encoded]
  constructor
  · rintro ⟨cs, hcs, rfl⟩
    rw [String.toList_ofList]
    exact eq_flatMap_of_decode (mapM_id_eq_some_iff.mp hcs)
  · rintro rfl
    exact ⟨s.toList, mapM_id_eq_some_iff.mpr (decode_flatMap _), String.ofList_toList⟩

end Text.Utf8

/-- A path is a text if and only if the text stands for the path. -/
theorem Path.toText?_eq_some_iff {p : Path} {s : String} :
    p.toText? = some s ↔ p = Path.ofString s := by
  obtain ⟨bytes⟩ := p
  rw [toText?, Text.Utf8.toText?_eq_some_iff, ofString, mk.injEq]

end AgentThreads
