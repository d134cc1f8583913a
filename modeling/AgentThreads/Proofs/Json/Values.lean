import AgentThreads.Json.Basic
import AgentThreads.Proofs.Json.Numerals
import AgentThreads.Proofs.Keyed

/-!
# Parts of JSON values

A value is a scalar, or an array or an object of values. What is said here of a value is said of all
the values in it: how deep they stand, that no number among them is a binary one, that no object among
them has a key twice, and that they are as a reader gives them.
-/

namespace AgentThreads.Json

/-- The value holds no other value. -/
def isScalar : Json → Bool
  | array _ => false
  | object _ => false
  | _ => true

/-- Induction on the parts of a value. -/
@[elab_as_elim]
theorem inductionOn {motive : Json → Prop} (v : Json)
    (scalar : ∀ v : Json, v.isScalar → motive v)
    (array : ∀ items : List Json, (∀ v ∈ items, motive v) → motive (.array items))
    (object : ∀ members : List (String × Json), (∀ m ∈ members, motive m.2) →
      motive (.object members)) : motive v := by
  refine @Json.rec motive (fun items => ∀ v ∈ items, motive v)
    (fun members => ∀ m ∈ members, motive m.2) (fun m => motive m.2)
    ?_ ?_ ?_ ?_ ?_ ?_ ?_ ?_ ?_ ?_ ?_ ?_ v
  · exact scalar .null rfl
  · exact fun value => scalar (.bool value) rfl
  · exact fun value => scalar (.int value) rfl
  · exact fun value => scalar (.double value) rfl
  · exact fun value => scalar (.string value) rfl
  · exact array
  · exact object
  · simp
  · intro v rest hv hrest
    simpa using ⟨hv, hrest⟩
  · simp
  · intro m rest hm hrest w hw
    rcases List.mem_cons.mp hw with rfl | hw
    · exact hm
    · exact hrest w hw
  · exact fun _ _ hv => hv

/-! ### Depth -/

mutual

/-- The greatest number of containers that are open at once. -/
def depth : Json → Nat
  | array items => depthOfItems items + 1
  | object members => depthOfMembers members + 1
  | _ => 0

/-- The greatest depth of an item. -/
def depthOfItems : List Json → Nat
  | [] => 0
  | v :: rest => max (depth v) (depthOfItems rest)

/-- The greatest depth of a member. -/
def depthOfMembers : List (String × Json) → Nat
  | [] => 0
  | (_, v) :: rest => max (depth v) (depthOfMembers rest)

end

theorem depth_of_isScalar {v : Json} (h : v.isScalar) : v.depth = 0 := by
  cases v with
  | array | object => cases h
  | null | bool | int | double | string => rfl

theorem depthOfItems_le_iff {items : List Json} {d : Nat} :
    depthOfItems items ≤ d ↔ ∀ v ∈ items, v.depth ≤ d := by
  induction items with
  | nil => simp [depthOfItems]
  | cons v rest ih => simp only [depthOfItems, Nat.max_le, List.forall_mem_cons, ih]

theorem depthOfMembers_le_iff {members : List (String × Json)} {d : Nat} :
    depthOfMembers members ≤ d ↔ ∀ m ∈ members, m.2.depth ≤ d := by
  induction members with
  | nil => simp [depthOfMembers]
  | cons m rest ih =>
    obtain ⟨key, v⟩ := m
    simp only [depthOfMembers, Nat.max_le, List.forall_mem_cons, ih]

/-- An array opens one container more than its items. -/
theorem depth_array_le_iff {items : List Json} {d : Nat} :
    (array items).depth ≤ d ↔ ∃ inner, d = inner + 1 ∧ ∀ v ∈ items, v.depth ≤ inner := by
  rw [depth]
  cases d with
  | zero => simp
  | succ d => simp [depthOfItems_le_iff]

/-- An object opens one container more than its members. -/
theorem depth_object_le_iff {members : List (String × Json)} {d : Nat} :
    (object members).depth ≤ d ↔ ∃ inner, d = inner + 1 ∧ ∀ m ∈ members, m.2.depth ≤ inner := by
  rw [depth]
  cases d with
  | zero => simp
  | succ d => simp [depthOfMembers_le_iff]

/-! ### Tests of all parts -/

mutual

/-- The test passes for the value and for every value in it. -/
def everywhere (test : Json → Bool) : Json → Bool
  | array items => test (array items) && everywhereInItems test items
  | object members => test (object members) && everywhereInMembers test members
  | value => test value

/-- The test passes everywhere in each item. -/
def everywhereInItems (test : Json → Bool) : List Json → Bool
  | [] => true
  | v :: rest => everywhere test v && everywhereInItems test rest

/-- The test passes everywhere in each member. -/
def everywhereInMembers (test : Json → Bool) : List (String × Json) → Bool
  | [] => true
  | (_, v) :: rest => everywhere test v && everywhereInMembers test rest

end

variable {test : Json → Bool}

theorem everywhere_of_isScalar {v : Json} (h : v.isScalar) : v.everywhere test = test v := by
  cases v with
  | array | object => cases h
  | null | bool | int | double | string => rfl

theorem everywhere_array {items : List Json} :
    (array items).everywhere test ↔ test (array items) ∧ ∀ v ∈ items, v.everywhere test := by
  have inItems (l : List Json) : everywhereInItems test l ↔ ∀ v ∈ l, v.everywhere test := by
    induction l with
    | nil => simp [everywhereInItems]
    | cons v rest ih => simp [everywhereInItems, ih]
  rw [everywhere, Bool.and_eq_true, inItems]

theorem everywhere_object {members : List (String × Json)} :
    (object members).everywhere test ↔
      test (object members) ∧ ∀ m ∈ members, m.2.everywhere test := by
  have inMembers (l : List (String × Json)) :
      everywhereInMembers test l ↔ ∀ m ∈ l, m.2.everywhere test := by
    induction l with
    | nil => simp [everywhereInMembers]
    | cons m rest ih =>
      obtain ⟨key, v⟩ := m
      simp only [everywhereInMembers, Bool.and_eq_true, List.forall_mem_cons, ih]
  rw [everywhere, Bool.and_eq_true, inMembers]

/-- A weaker test passes as well. -/
theorem everywhere_mono {other : Json → Bool} (h : ∀ v, test v → other v) {v : Json}
    (hv : v.everywhere test) : v.everywhere other := by
  induction v using inductionOn with
  | scalar v hscalar =>
    rw [everywhere_of_isScalar hscalar] at hv ⊢
    exact h v hv
  | array items ih =>
    obtain ⟨here, inside⟩ := everywhere_array.mp hv
    exact everywhere_array.mpr ⟨h _ here, fun v hmem => ih v hmem (inside v hmem)⟩
  | object members ih =>
    obtain ⟨here, inside⟩ := everywhere_object.mp hv
    exact everywhere_object.mpr ⟨h _ here, fun m hmem => ih m hmem (inside m hmem)⟩

/-- No number in the value is a binary one. -/
def isIntegral (v : Json) : Bool :=
  v.everywhere fun
    | double _ => false
    | _ => true

/-- No object in the value has a key twice. -/
def hasDistinctKeys (v : Json) : Bool :=
  v.everywhere fun
    | object members => (Keyed.keys members).Nodup
    | _ => true

/-- The integers in the value have 64 bits. -/
def hasWords (v : Json) : Bool :=
  v.everywhere fun
    | int n => fitsWord n
    | _ => true

/-- The objects in the value have their keys in order. -/
def isSorted (v : Json) : Bool :=
  v.everywhere fun
    | object members => decide (Keyed.Sorted members)
    | _ => true

/-- Keys in order are different keys. -/
theorem hasDistinctKeys_of_isSorted {v : Json} (h : v.isSorted) : v.hasDistinctKeys := by
  refine everywhere_mono (fun v hv => ?_) h
  cases v with
  | object members => exact decide_eq_true (Keyed.Sorted.nodup_keys (of_decide_eq_true hv))
  | _ => rfl

/-- A test that stops at no text, no truth value and no container, except that an object may need to
have each key once. -/
structure Lenient (test : Json → Bool) : Prop where
  string : ∀ text, test (string text)
  bool : ∀ value, test (bool value)
  array : ∀ items, test (array items)
  object : ∀ members, (Keyed.keys members).Nodup → test (object members)

theorem lenient_isIntegral : Lenient fun
    | double _ => false
    | _ => true := by
  constructor <;> simp

theorem lenient_hasWords : Lenient fun
    | int n => fitsWord n
    | _ => true := by
  constructor <;> simp

theorem lenient_hasDistinctKeys : Lenient fun
    | object members => decide (Keyed.keys members).Nodup
    | _ => true := by
  constructor <;> simp

end AgentThreads.Json
