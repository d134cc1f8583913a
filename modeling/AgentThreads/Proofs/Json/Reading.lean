import AgentThreads.Proofs.Json.RoundTrip

/-!
# Values that were read

A value that was read has integers of 64 bits, has its keys in order, and opens no more containers
than it was allowed to. So it can be written and read again. What holds of the parts that a loop has
read holds of the whole: this is shown once for the items of arrays and once for the members of
objects, and serves the readers of events as well.
-/

namespace AgentThreads.Json

/-! ### Loops -/

section Loops

variable {ε σ α : Type} {fault : Fault → ε}

/-- What each item has that is read, all items of the array have. -/
theorem forall_of_scanItems {item : List Char → Except ε (α × List Char)} {P : α → Prop}
    (hitem : ∀ {s x rest}, item s = .ok (x, rest) → P x) {bound : Nat} {done : List α} {step : Step}
    {items : List α} {rest : List Char} (h : scanItems fault item bound done step = .ok (items, rest))
    (hdone : ∀ x ∈ done, P x) : ∀ x ∈ items, P x := by
  induction bound generalizing done step with
  | zero =>
    cases step with
    | close s =>
      cases h
      exact fun x hx => hdone x (List.mem_reverse.mp hx)
    | item s => cases h
  | succ bound ih =>
    cases step with
    | close s =>
      cases h
      exact fun x hx => hdone x (List.mem_reverse.mp hx)
    | item s =>
      obtain ⟨⟨x, s'⟩, hx, h⟩ := bind_eq_ok_iff.mp h
      obtain ⟨next, -, h⟩ := bind_eq_ok_iff.mp h
      exact ih h (List.forall_mem_cons.mpr ⟨hitem hx, hdone⟩)

/-- What each member keeps that is read, the whole object keeps. -/
theorem invariant_of_scanMembers {member : σ → String → List Char → Except ε (σ × List Char)}
    {I : σ → Prop}
    (hmember : ∀ {state key s next rest}, I state → member state key s = .ok (next, rest) → I next)
    {bound : Nat} {state final : σ} {step : Step} {rest : List Char}
    (h : scanMembers fault member bound state step = .ok (final, rest)) (hstate : I state) :
    I final := by
  induction bound generalizing state step with
  | zero =>
    cases step with
    | close s =>
      cases h
      exact hstate
    | item s => cases h
  | succ bound ih =>
    cases step with
    | close s =>
      cases h
      exact hstate
    | item s =>
      obtain ⟨⟨key, s'⟩, -, h⟩ := bind_eq_ok_iff.mp h
      obtain ⟨⟨next, s''⟩, hnext, h⟩ := bind_eq_ok_iff.mp h
      obtain ⟨following, -, h⟩ := bind_eq_ok_iff.mp h
      exact ih h (hmember hstate hnext)

end Loops

/-! ### Values -/

/-- A value as a reader gives it that allows so many open containers. -/
structure IsRead (depth : Nat) (v : Json) : Prop where
  /-- The integers have 64 bits. -/
  words : v.hasWords
  /-- The keys are in order. -/
  sorted : v.isSorted
  /-- No more containers are open at once. -/
  depth_le : v.depth ≤ depth

/-- The members of an object as a reader gives them. -/
structure AreRead (depth : Nat) (members : Keyed Json) : Prop where
  /-- The keys are in order. -/
  sorted : Keyed.Sorted members
  /-- The values were read. -/
  values : ∀ m ∈ members, IsRead depth m.2

theorem isRead_of_isScalar {v : Json} (h : v.isScalar) (hwords : v.hasWords) (depth : Nat) :
    IsRead depth v where
  words := hwords
  sorted := by
    cases v with
    | array | object => cases h
    | null | bool | int | double | string => rfl
  depth_le := by
    rw [depth_of_isScalar h]
    exact Nat.zero_le depth

theorem isRead_array {depth : Nat} {items : List Json} (h : ∀ v ∈ items, IsRead depth v) :
    IsRead (depth + 1) (array items) where
  words := everywhere_array.mpr ⟨rfl, fun v hv => (h v hv).words⟩
  sorted := everywhere_array.mpr ⟨rfl, fun v hv => (h v hv).sorted⟩
  depth_le := depth_array_le_iff.mpr ⟨depth, rfl, fun v hv => (h v hv).depth_le⟩

theorem isRead_object {depth : Nat} {members : Keyed Json} (h : AreRead depth members) :
    IsRead (depth + 1) (object members) where
  words := everywhere_object.mpr ⟨rfl, fun m hm => (h.values m hm).words⟩
  sorted := everywhere_object.mpr
    ⟨decide_eq_true h.sorted, fun m hm => (h.values m hm).sorted⟩
  depth_le := depth_object_le_iff.mpr ⟨depth, rfl, fun m hm => (h.values m hm).depth_le⟩

theorem areRead_nil (depth : Nat) : AreRead depth [] where
  sorted := Keyed.sorted_nil
  values := by
    intro m hm
    cases hm

theorem AreRead.insert {depth : Nat} {members : Keyed Json} (h : AreRead depth members)
    (key : String) {v : Json} (hv : IsRead depth v) : AreRead depth (Keyed.insert key v members) where
  sorted := h.sorted.insert key v
  values := by
    intro m hm
    rcases Keyed.mem_of_mem_insert hm with rfl | hm
    · exact hv
    · exact h.values m hm

/-! ### Readers -/

theorem plain_of_map {α : Type} {x : Except Fault α} {f : α → Json × List Char}
    (hf : ∀ a, (f a).1.isScalar ∧ (f a).1.hasWords) {v : Json} {rest : List Char}
    (h : x.map f = .ok (v, rest)) : v.isScalar ∧ v.hasWords := by
  obtain ⟨a, -, heq⟩ := map_eq_ok_iff.mp h
  have plain := hf a
  rwa [heq] at plain

/-- A value is a scalar, or it comes from one of the readers of containers. -/
theorem scanWith_cases {readArray readObject : List Char → Except Fault (Json × List Char)}
    {s rest : List Char} {v : Json} (h : scanWith readArray readObject s = .ok (v, rest)) :
    (v.isScalar ∧ v.hasWords) ∨ (∃ t, readArray t = .ok (v, rest)) ∨
      ∃ t, readObject t = .ok (v, rest) := by
  rw [scanWith] at h
  split at h
  · cases h
  split at h
  · exact .inl (plain_of_map (fun _ => ⟨rfl, rfl⟩) h)
  split at h
  · exact .inl (plain_of_map (fun _ => ⟨rfl, rfl⟩) h)
  split at h
  · exact .inl (plain_of_map (fun _ => ⟨rfl, rfl⟩) h)
  split at h
  · exact .inl (plain_of_map (fun _ => ⟨rfl, rfl⟩) h)
  split at h
  · exact .inr (.inl ⟨_, h⟩)
  split at h
  · exact .inr (.inr ⟨_, h⟩)
  split at h
  · obtain ⟨⟨x, t⟩, -, h⟩ := bind_eq_ok_iff.mp h
    obtain ⟨w, hw, h⟩ := bind_eq_ok_iff.mp h
    cases h
    rcases Numeral.value_cases hw with ⟨n, rfl, hn⟩ | ⟨y, rfl⟩
    · exact .inl ⟨rfl, hn⟩
    · exact .inl ⟨rfl, rfl⟩
  · cases h

section Containers

variable {value : List Char → Except Fault (Json × List Char)} {depth : Nat}
  (hvalue : ∀ {s v rest}, value s = .ok (v, rest) → IsRead depth v)
include hvalue

theorem isRead_of_scanArray {s rest : List Char} {items : List Json}
    (h : scanArray value s = .ok (items, rest)) : ∀ v ∈ items, IsRead depth v := by
  obtain ⟨step, -, h⟩ := bind_eq_ok_iff.mp h
  refine forall_of_scanItems hvalue h fun v hv => ?_
  cases hv

theorem areRead_of_scanObject {s rest : List Char} {members : Keyed Json}
    (h : scanObject value s = .ok (members, rest)) : AreRead depth members := by
  obtain ⟨step, -, h⟩ := bind_eq_ok_iff.mp h
  refine invariant_of_scanMembers (fun hstate hmember => ?_) h (areRead_nil depth)
  obtain ⟨t, -, hmember⟩ := bind_eq_ok_iff.mp hmember
  obtain ⟨⟨v, t⟩, hv, hmember⟩ := bind_eq_ok_iff.mp hmember
  cases hmember
  exact hstate.insert _ (hvalue hv)

end Containers

/-- What a reader gives has what readers see to. -/
theorem isRead_of_scanValue {depth : Nat} {s rest : List Char} {v : Json}
    (h : scanValue depth s = .ok (v, rest)) : IsRead depth v := by
  induction depth generalizing s v rest with
  | zero =>
    rcases scanWith_cases h with ⟨hscalar, hwords⟩ | ⟨t, ht⟩ | ⟨t, ht⟩
    · exact isRead_of_isScalar hscalar hwords 0
    · cases ht
    · cases ht
  | succ depth ih =>
    rcases scanWith_cases h with ⟨hscalar, hwords⟩ | ⟨t, ht⟩ | ⟨t, ht⟩
    · exact isRead_of_isScalar hscalar hwords (depth + 1)
    · obtain ⟨⟨items, t⟩, hitems, heq⟩ := map_eq_ok_iff.mp ht
      cases heq
      exact isRead_array (isRead_of_scanArray ih hitems)
    · obtain ⟨⟨members, t⟩, hmembers, heq⟩ := map_eq_ok_iff.mp ht
      cases heq
      exact isRead_object (areRead_of_scanObject ih hmembers)

/-! ### Reading again -/

/-- What was read is read again when it is written. -/
theorem IsRead.reads_compact {depth : Nat} {v : Json} (h : IsRead depth v) (hint : v.isIntegral) :
    Reads (scanValue depth) v.compact v := by
  have reads := Json.reads_compact byKey h.words hint h.depth_le
  rwa [scanValueBy_byKey, gathered_byKey h.sorted] at reads

/-- Members whose values are read back may be written in any order: each is put in its place. -/
theorem scanObject_of_reads {depth : Nat} {members : Keyed Json} (hsorted : Keyed.Sorted members)
    (h : ∀ m ∈ members, Reads (scanValue depth) m.2.compact m.2) {others : List (String × Json)}
    (hp : others.Perm members) (rest : List Char) :
    scanObject (scanValue depth) (listing [] [] (compactMembers others) ++ '\x7d' :: rest) =
      .ok (members, rest) := by
  have values : ∀ m ∈ others, Reads (scanValueBy byKey depth) m.2.compact (id m.2) := fun m hm => by
    rw [scanValueBy_byKey]
    exact h m (hp.subset hm)
  have reads := readsMembers_of_reads blanks_nil others values []
  have taken := scanObjectBy_listing blanks_nil blanks_nil reads rest
  have placed : gatherAll byKey [] (others.map fun m => (m.1, id m.2)) = members := by
    rw [show (others.map fun m => (m.1, id m.2)) = others from List.map_id' others]
    exact hsorted.ofMembers_eq hp
  rw [placed, scanValueBy_byKey] at taken
  rw [compactMembers_eq_map]
  exact taken

end AgentThreads.Json
