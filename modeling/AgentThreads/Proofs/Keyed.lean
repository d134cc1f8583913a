import AgentThreads.Keyed
import Mathlib.Data.List.Nodup
import Mathlib.Data.List.Perm.Basic

/-!
# Keyed lists in order

A keyed list is sorted if its keys stand in strictly increasing order. Insertion keeps it so, hence a
list that is built by insertion is determined by what was inserted: the members of a sorted list,
inserted in any order, give the list again.
-/

namespace AgentThreads

/-- In a list with each key once, a search finds the values that are there. -/
theorem lookup_eq_some_iff_mem {κ α : Type} [BEq κ] [LawfulBEq κ] {list : List (κ × α)}
    (h : (list.map (·.1)).Nodup) {key : κ} {value : α} :
    list.lookup key = some value ↔ (key, value) ∈ list := by
  induction list with
  | nil => simp
  | cons head rest ih =>
    obtain ⟨other, kept⟩ := head
    obtain ⟨new, hrest⟩ := List.nodup_cons.mp h
    rw [List.lookup_cons, List.mem_cons, Prod.mk.injEq]
    by_cases heq : key = other
    · subst heq
      have absent : (key, value) ∉ rest := fun hm => by
        have here : key ∈ rest.map (·.1) := List.mem_map_of_mem hm
        exact new here
      simp [absent, eq_comm]
    · simp [heq, beq_eq_false_iff_ne.mpr heq, ih hrest]

namespace Keyed

variable {α : Type}

theorem keyBytes_inj {a b : String} (h : keyBytes a = keyBytes b) : a = b := by
  unfold keyBytes at h
  apply String.toByteArray_inj.mp
  apply ByteArray.ext
  exact Array.toList_inj.mp h

/-- Of two keys one comes first. -/
theorem lt_or_gt_of_ne {a b : String} (h : a ≠ b) :
    keyBytes a < keyBytes b ∨ keyBytes b < keyBytes a := by
  by_cases hlt : keyBytes a < keyBytes b
  · exact .inl hlt
  · exact .inr (Std.lt_of_le_of_ne hlt fun heq => h (keyBytes_inj heq.symm))

/-- The keys stand in strictly increasing order. -/
def Sorted (list : Keyed α) : Prop :=
  list.Pairwise fun a b => keyBytes a.1 < keyBytes b.1

instance (list : Keyed α) : Decidable (Sorted list) :=
  inferInstanceAs (Decidable (list.Pairwise _))

/-- The keys of a list. -/
def keys (list : Keyed α) : List String :=
  list.map (·.1)

@[simp] theorem keys_nil : keys ([] : Keyed α) = [] := rfl

@[simp] theorem keys_cons (member : String × α) (list : Keyed α) :
    keys (member :: list) = member.1 :: keys list := rfl

theorem nodup_keys_iff_of_perm {l l' : Keyed α} (hp : l.Perm l') :
    (keys l).Nodup ↔ (keys l').Nodup :=
  (hp.map Prod.fst).nodup_iff

theorem sorted_nil : Sorted ([] : Keyed α) := .nil

theorem sorted_cons {member : String × α} {list : Keyed α} :
    Sorted (member :: list) ↔
      (∀ other ∈ list, keyBytes member.1 < keyBytes other.1) ∧ Sorted list :=
  List.pairwise_cons

/-- The order is that of the keys, whatever becomes of the values. -/
theorem Sorted.map_values {β : Type} {list : Keyed α} (h : Sorted list) (f : α → β) :
    Sorted (list.map fun m => (m.1, f m.2)) :=
  List.pairwise_map.mpr h

/-- A sorted list has each key once. -/
theorem Sorted.nodup_keys {list : Keyed α} (h : Sorted list) : (keys list).Nodup := by
  rw [keys, List.Nodup, List.pairwise_map]
  apply h.imp
  intro a b hlt heq
  rw [heq] at hlt
  exact List.lt_irrefl _ hlt

/-- Sorted lists with the same members are equal. -/
theorem Sorted.eq_of_perm {l l' : Keyed α} (h : Sorted l) (h' : Sorted l') (hp : l.Perm l') :
    l = l' :=
  hp.eq_of_pairwise (fun _ _ _ _ hlt hgt => absurd hgt (List.lt_asymm hlt)) h h'

/-! ### Insertion -/

theorem mem_of_mem_insert {key : String} {value : α} {list : Keyed α} {member : String × α}
    (h : member ∈ insert key value list) : member = (key, value) ∨ member ∈ list := by
  induction list with
  | nil => exact .inl (List.mem_singleton.mp h)
  | cons head rest ih =>
    obtain ⟨other, kept⟩ := head
    unfold insert at h
    split at h
    · rcases List.mem_cons.mp h with rfl | h
      · exact .inl rfl
      · exact .inr (List.mem_cons_of_mem _ h)
    split at h
    · rcases List.mem_cons.mp h with rfl | h
      · exact .inl rfl
      · exact .inr h
    · rcases List.mem_cons.mp h with rfl | h
      · exact .inr List.mem_cons_self
      · exact (ih h).imp_right (List.mem_cons_of_mem _)

/-- Insertion keeps the order. -/
theorem Sorted.insert {list : Keyed α} (h : Sorted list) (key : String) (value : α) :
    Sorted (insert key value list) := by
  induction list with
  | nil => exact List.pairwise_singleton _ _
  | cons head rest ih =>
    obtain ⟨other, kept⟩ := head
    obtain ⟨hfirst, hrest⟩ := sorted_cons.mp h
    unfold Keyed.insert
    split
    · case isTrue heq =>
      subst heq
      exact sorted_cons.mpr ⟨hfirst, hrest⟩
    · case isFalse hne =>
      split
      · case isTrue hlt =>
        refine sorted_cons.mpr ⟨fun member hm => ?_, h⟩
        rcases List.mem_cons.mp hm with rfl | hm
        · exact hlt
        · exact List.lt_trans hlt (hfirst member hm)
      · case isFalse hnlt =>
        refine sorted_cons.mpr ⟨fun member hm => ?_, ih hrest⟩
        rcases mem_of_mem_insert hm with rfl | hm
        · exact (lt_or_gt_of_ne hne).resolve_left hnlt
        · exact hfirst member hm

/-- A value under a new key is one more member. -/
theorem insert_perm {key : String} {list : Keyed α} (h : key ∉ keys list) (value : α) :
    (insert key value list).Perm ((key, value) :: list) := by
  induction list with
  | nil => exact .refl _
  | cons head rest ih =>
    obtain ⟨other, kept⟩ := head
    rw [keys_cons, List.mem_cons, not_or] at h
    unfold insert
    rw [if_neg h.1]
    split
    · exact .refl _
    · exact ((ih h.2).cons _).trans (.swap ..)

/-- The list that arises when members are inserted one after the other. -/
def ofMembers (members : List (String × α)) : Keyed α :=
  members.foldl (fun list member => insert member.1 member.2 list) []

theorem Sorted.foldl_insert {list : Keyed α} (h : Sorted list) (members : List (String × α)) :
    Sorted (members.foldl (fun list member => Keyed.insert member.1 member.2 list) list) := by
  induction members generalizing list with
  | nil => exact h
  | cons member members ih => exact ih (h.insert ..)

theorem sorted_ofMembers (members : List (String × α)) : Sorted (ofMembers members) :=
  sorted_nil.foldl_insert members

theorem foldl_insert_perm (list : Keyed α) (members : List (String × α))
    (h : (keys (members ++ list)).Nodup) :
    (members.foldl (fun list member => insert member.1 member.2 list) list).Perm
      (members ++ list) := by
  induction members generalizing list with
  | nil => exact .refl _
  | cons member members ih =>
    have moved : (members ++ member :: list).Perm (member :: members ++ list) :=
      List.perm_middle
    have apart := (nodup_keys_iff_of_perm moved).mpr h
    have new : member.1 ∉ keys list := by
      rw [keys, List.map_append, List.map_cons, List.nodup_append'] at apart
      exact (List.nodup_cons.mp apart.2.1).1
    have inserted := insert_perm new member.2
    have later : (keys (members ++ insert member.1 member.2 list)).Nodup :=
      (nodup_keys_iff_of_perm (inserted.append_left members)).mpr apart
    exact ((ih _ later).trans (inserted.append_left members)).trans moved

/-- Members under different keys are the members of the list that they give. -/
theorem ofMembers_perm {members : List (String × α)} (h : (keys members).Nodup) :
    (ofMembers members).Perm members := by
  have inserted := foldl_insert_perm [] members (by rwa [List.append_nil])
  rwa [List.append_nil] at inserted

/-- The members of a sorted list give the list again, in whatever order they are inserted. -/
theorem Sorted.ofMembers_eq {list : Keyed α} (h : Sorted list) {members : List (String × α)}
    (hp : members.Perm list) : ofMembers members = list := by
  have nodup : (keys members).Nodup := (nodup_keys_iff_of_perm hp).mpr h.nodup_keys
  exact (sorted_ofMembers members).eq_of_perm h ((ofMembers_perm nodup).trans hp)

/-! ### Search -/

theorem find?_cons (key k : String) (value : α) (rest : Keyed α) :
    find? k ((key, value) :: rest) = if k = key then some value else find? k rest := by
  unfold find?
  rw [List.lookup_cons]
  by_cases hk : k = key
  · simp [hk]
  · simp [hk, beq_eq_false_iff_ne.mpr hk]

/-- A search by a key finds what was inserted under it, and what was there under other keys. -/
theorem find?_insert (key k : String) (value : α) (list : Keyed α) :
    find? k (insert key value list) = if k = key then some value else find? k list := by
  induction list with
  | nil => exact find?_cons ..
  | cons member rest ih =>
    obtain ⟨other, kept⟩ := member
    unfold insert
    split
    · case isTrue heq =>
      subst heq
      by_cases hk : k = key <;> simp [find?_cons, hk]
    · case isFalse hne =>
      split
      · exact find?_cons ..
      · rw [find?_cons, find?_cons, ih]
        by_cases hother : k = other
        · have hk : k ≠ key := fun heq => hne (heq.symm.trans hother)
          rw [if_pos hother, if_pos hother, if_neg hk]
        · rw [if_neg hother, if_neg hother]

theorem find?_nil (key : String) : find? key ([] : Keyed α) = none := rfl

theorem find?_append (key : String) (l l' : Keyed α) :
    find? key (l ++ l') = (find? key l).or (find? key l') :=
  List.lookup_append ..

theorem find?_eq_some_iff_mem {key : String} {value : α} {list : Keyed α}
    (h : (keys list).Nodup) : find? key list = some value ↔ (key, value) ∈ list :=
  lookup_eq_some_iff_mem h

/-- In a list with each key once, a search does not depend on the order. -/
theorem find?_eq_of_perm {l l' : Keyed α} (hp : l.Perm l') (h : (keys l).Nodup) (key : String) :
    find? key l = find? key l' := by
  have h' := (nodup_keys_iff_of_perm hp).mp h
  refine Option.ext fun value => ?_
  rw [find?_eq_some_iff_mem h, find?_eq_some_iff_mem h', hp.mem_iff]

/-! ### Erasure -/

theorem erase_sublist (key : String) (list : Keyed α) : (erase key list).Sublist list :=
  List.filter_sublist

/-- A search by another key does not see that a key was taken away. -/
theorem find?_erase_of_ne {key other : String} (h : key ≠ other) (list : Keyed α) :
    find? key (erase other list) = find? key list := by
  induction list with
  | nil => rfl
  | cons member rest ih =>
    obtain ⟨k, value⟩ := member
    rw [erase] at ih ⊢
    by_cases hk : k = other
    · have apart : key ≠ k := fun heq => h (heq.trans hk)
      rw [List.filter_cons_of_neg (by simp [hk]), ih, find?_cons, if_neg apart]
    · rw [List.filter_cons_of_pos (by simp [hk]), find?_cons, find?_cons, ih]

/-- A key that is found can be put in front. -/
theorem perm_cons_erase {key : String} {value : α} {list : Keyed α} (h : (keys list).Nodup)
    (hf : find? key list = some value) : ((key, value) :: erase key list).Perm list := by
  induction list with
  | nil => cases hf
  | cons head rest ih =>
    obtain ⟨other, kept⟩ := head
    obtain ⟨new, hrest⟩ := List.nodup_cons.mp h
    by_cases heq : key = other
    · subst heq
      have found : kept = value := by simpa [find?] using hf
      have gone : erase key rest = rest := by
        apply List.filter_eq_self.mpr
        intro member hm
        have here : member.1 ∈ keys rest := List.mem_map_of_mem hm
        have ne : member.1 ≠ key := fun heq => new (heq ▸ here)
        simpa using ne
      rw [erase, List.filter_cons_of_neg (by simp), found, ← erase, gone]
    · have later : find? key rest = some value := by
        simpa [find?, List.lookup_cons, beq_eq_false_iff_ne.mpr heq] using hf
      rw [erase, List.filter_cons_of_pos (by simpa using Ne.symm heq)]
      exact (List.Perm.swap ..).trans ((ih hrest later).cons _)

end Keyed

end AgentThreads
