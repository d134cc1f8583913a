import AgentThreads.Files.Path
import AgentThreads.Proofs.Splitting

/-!
# Paths below a path

A path that is extended by names has these names as its last components, after the stem of the path: its
components without an empty one at the end. So different names below a path have different paths.
-/

namespace AgentThreads.Path

/-- The names before those that a path is extended by: its components, without an empty one at the
end. -/
def stem (p : Path) : List Name :=
  if p.components.getLast? = some [] then p.components.dropLast else p.components

theorem isTooLong_eq_false_iff {p : Path} : p.isTooLong = false ↔ p.bytes.length ≤ maxLength := by
  rw [isTooLong, decide_eq_false_iff_not, Nat.not_lt]

/-- The components are those of the stem, and perhaps an empty one. -/
theorem components_eq (p : Path) :
    ∃ tail, p.components = p.stem ++ tail ∧ ∀ name ∈ tail, name = [] := by
  unfold stem
  split
  · case isTrue h =>
    refine ⟨[[]], ?_, by simp⟩
    exact (List.dropLast_append_getLast? [] h).symm
  · exact ⟨[], (List.append_nil _).symm, by simp⟩

/-- A path that goes on behind a slash. -/
theorem components_append_slash (bytes : List UInt8) {name : Name} (h : slash ∉ name) :
    (Path.mk (bytes ++ slash :: name)).components = (Path.mk bytes).components ++ [name] := by
  rw [components, List.splitOn_append_cons_self, List.splitOn_eq_singleton h, components]

theorem stem_append_slash (bytes : List UInt8) :
    (Path.mk (bytes ++ [slash])).stem = (Path.mk bytes).components := by
  have last : (Path.mk (bytes ++ [slash])).components = (Path.mk bytes).components ++ [[]] :=
    components_append_slash bytes List.not_mem_nil
  rw [stem, last, List.getLast?_concat, if_pos rfl, List.dropLast_concat]

/-- A path that ends with no slash is its own stem. -/
theorem stem_concat {bytes : List UInt8} {b : UInt8} (h : b ≠ slash) :
    (Path.mk (bytes ++ [b])).stem = (Path.mk (bytes ++ [b])).components := by
  have plain : slash ∉ [b] := by simpa using Ne.symm h
  obtain ⟨before, last, -, whole⟩ := splitOn_append_right bytes plain
  have nonempty : (Path.mk (bytes ++ [b])).components.getLast? ≠ some [] := by
    rw [components, whole, List.getLast?_concat]
    simp
  rw [stem, if_neg nonempty]

section Join

variable {name : Name} (h : slash ∉ name)
include h

theorem components_join (p : Path) : (p.join name).components = p.stem ++ [name] := by
  obtain ⟨bytes⟩ := p
  rcases List.eq_nil_or_concat' bytes with rfl | ⟨before, b, rfl⟩
  · exact List.splitOn_eq_singleton h
  · by_cases hb : b = slash
    · subst hb
      rw [stem_append_slash, ← components_append_slash before h, join, if_pos (by simp),
        List.append_assoc, List.singleton_append]
    · rw [stem_concat hb, ← components_append_slash _ h, join, if_neg (by simp [hb])]

theorem stem_join (hne : name ≠ []) (p : Path) : (p.join name).stem = p.stem ++ [name] := by
  have last : (p.join name).components.getLast? ≠ some [] := by
    rw [components_join h, List.getLast?_concat]
    simpa using hne
  rw [stem, if_neg last, components_join h]

end Join

theorem bytes_join_ne_nil {p : Path} (h : p.bytes ≠ []) (name : Name) : (p.join name).bytes ≠ [] := by
  unfold join
  split <;> simp [h]

/-- A path below another is longer by the name, at least. -/
theorem length_add_le_join (p : Path) (name : Name) :
    p.bytes.length + name.length ≤ (p.join name).bytes.length := by
  unfold join
  split
  · exact Nat.le_of_eq (List.length_append ..).symm
  · rw [List.length_append, List.length_cons]
    omega

theorem mem_bytes_join {p : Path} {name : Name} {b : UInt8} (h : b ∈ (p.join name).bytes) :
    b ∈ p.bytes ∨ b = slash ∨ b ∈ name := by
  unfold join at h
  split at h
  · exact (List.mem_append.mp h).imp_right .inr
  · exact (List.mem_append.mp h).imp_right List.mem_cons.mp

/-! ### Several names -/

theorem joinAll_cons (p : Path) (name : Name) (names : List Name) :
    p.joinAll (name :: names) = (p.join name).joinAll names := rfl

section JoinAll

variable {names : List Name} (h : ∀ name ∈ names, slash ∉ name ∧ name ≠ [])
include h

theorem stem_joinAll (p : Path) : (p.joinAll names).stem = p.stem ++ names := by
  induction names generalizing p with
  | nil => exact (List.append_nil _).symm
  | cons name names ih =>
    obtain ⟨⟨hslash, hne⟩, hnames⟩ := List.forall_mem_cons.mp h
    rw [joinAll_cons, ih hnames, stem_join hslash hne, List.append_assoc, List.singleton_append]

/-- The components of a path that is extended are those of the stem and the names. -/
theorem components_joinAll (hne : names ≠ []) (p : Path) :
    (p.joinAll names).components = p.stem ++ names := by
  rcases List.eq_nil_or_concat' names with rfl | ⟨before, last, rfl⟩
  · contradiction
  · obtain ⟨hbefore, hlast⟩ := List.forall_mem_append.mp h
    have extended : p.joinAll (before ++ [last]) = (p.joinAll before).join last := List.foldl_concat ..
    rw [extended, components_join (hlast last List.mem_cons_self).1, stem_joinAll hbefore,
      List.append_assoc]

end JoinAll

/-- Different names below a path have different paths. -/
theorem joinAll_injOn {names others : List Name} (h : ∀ name ∈ names, slash ∉ name ∧ name ≠ [])
    (h' : ∀ name ∈ others, slash ∉ name ∧ name ≠ []) {p : Path}
    (heq : p.joinAll names = p.joinAll others) : names = others := by
  have stems := congrArg stem heq
  rw [stem_joinAll h, stem_joinAll h'] at stems
  exact List.append_cancel_left stems

theorem bytes_joinAll_ne_nil {p : Path} (h : p.bytes ≠ []) (names : List Name) :
    (p.joinAll names).bytes ≠ [] := by
  induction names generalizing p with
  | nil => exact h
  | cons name names ih => exact ih (bytes_join_ne_nil h name)

theorem mem_bytes_joinAll {p : Path} {names : List Name} {b : UInt8}
    (h : b ∈ (p.joinAll names).bytes) : b ∈ p.bytes ∨ b = slash ∨ ∃ name ∈ names, b ∈ name := by
  induction names generalizing p with
  | nil => exact .inl h
  | cons name names ih =>
    rcases ih h with here | rfl | ⟨other, hmem, hb⟩
    · rcases mem_bytes_join here with here | rfl | hb
      · exact .inl here
      · exact .inr (.inl rfl)
      · exact .inr (.inr ⟨name, List.mem_cons_self, hb⟩)
    · exact .inr (.inl rfl)
    · exact .inr (.inr ⟨other, List.mem_cons_of_mem _ hmem, hb⟩)

/-! ### Detours -/

/-- A path that names its directory `n` times and leads nowhere else. -/
def detour : Nat → Path
  | 0 => ⟨[]⟩
  | n + 1 => ⟨here ++ slash :: (detour n).bytes⟩

theorem length_detour (n : Nat) : (detour n).bytes.length = 2 * n := by
  induction n with
  | zero => rfl
  | succ n ih =>
    rw [detour, List.length_append, List.length_cons, ih, here, List.length_singleton]
    omega

/-- A detour is followed by a name directly, since it ends with a slash. -/
theorem length_join_detour (n : Nat) (name : Name) :
    ((detour n).join name).bytes.length = 2 * n + name.length := by
  have ends : (detour n).bytes = [] ∨ (detour n).bytes.getLast? = some slash := by
    induction n with
    | zero => exact .inl rfl
    | succ n ih =>
      rcases ih with hnil | hlast
      · simp [detour, hnil]
      · simp [detour, List.getLast?_append, List.getLast?_cons, hlast]
  rw [join, if_pos (by simpa using ends), List.length_append, length_detour]

theorem zero_not_mem_detour (n : Nat) : 0 ∉ (detour n).bytes := by
  induction n with
  | zero => exact List.not_mem_nil
  | succ n ih =>
    rw [detour, List.mem_append, List.mem_cons, not_or, not_or]
    exact ⟨by decide, by decide, ih⟩

theorem components_detour (n : Nat) : ∀ name ∈ (detour n).components, name = [] ∨ name = here := by
  induction n with
  | zero => simp [detour, components]
  | succ n ih =>
    have further : (detour (n + 1)).components = here :: (detour n).components := by
      rw [detour, components, List.splitOn_append_cons_self,
        List.splitOn_eq_singleton (by decide), components, List.singleton_append]
    rw [further]
    exact List.forall_mem_cons.mpr ⟨.inr rfl, ih⟩

end AgentThreads.Path
