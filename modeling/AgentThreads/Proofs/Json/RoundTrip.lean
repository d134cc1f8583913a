import AgentThreads.Proofs.Json.Layouts

/-!
# Written values

A value that is written in either layout is read back, if its integers have 64 bits and it holds no
other numbers. Only the members of its objects may stand differently afterwards, since a reader
chooses what it does with a member. The reader of a session gives each its place by key; so a value
with its keys in order is read back as it was. A reader that keeps the members as they are written
tells what is in the text.
-/

namespace AgentThreads.Json

open List (Forall₂)

/-! ### What becomes of the members -/

/-- How an object takes in one more member. -/
abbrev Gather := List (String × Json) → String → Json → List (String × Json)

/-- Each key has its place, and of equal keys the last one counts. -/
def byKey : Gather := fun members key value => Keyed.insert key value members

/-- Each member stays where it is written. -/
def asWritten : Gather := fun members key value => members ++ [(key, value)]

/-- An object takes in members, one after the other. -/
def gatherAll (gather : Gather) (state members : List (String × Json)) : List (String × Json) :=
  members.foldl (fun state m => gather state m.1 m.2) state

mutual

/-- The value with the members of every object taken in anew. -/
def gathered (gather : Gather) : Json → Json
  | array items => array (gatheredItems gather items)
  | object members => object (gatherAll gather [] (gatheredMembers gather members))
  | value => value

/-- The items of an array, each taken in anew. -/
def gatheredItems (gather : Gather) : List Json → List Json
  | [] => []
  | value :: rest => gathered gather value :: gatheredItems gather rest

/-- The members of an object with their values taken in anew. -/
def gatheredMembers (gather : Gather) : List (String × Json) → List (String × Json)
  | [] => []
  | (key, value) :: rest => (key, gathered gather value) :: gatheredMembers gather rest

end

theorem gatheredItems_eq_map (gather : Gather) (items : List Json) :
    gatheredItems gather items = items.map (gathered gather) := by
  induction items with
  | nil => rfl
  | cons v rest ih => rw [gatheredItems, ih, List.map_cons]

theorem gatheredMembers_eq_map (gather : Gather) (members : List (String × Json)) :
    gatheredMembers gather members = members.map fun m => (m.1, gathered gather m.2) := by
  induction members with
  | nil => rfl
  | cons m rest ih =>
    obtain ⟨key, v⟩ := m
    rw [gatheredMembers, ih, List.map_cons]

theorem gatheredMembers_eq_self {gather : Gather} {members : List (String × Json)}
    (h : ∀ m ∈ members, gathered gather m.2 = m.2) : gatheredMembers gather members = members := by
  rw [gatheredMembers_eq_map]
  conv_rhs => rw [← List.map_id' members]
  exact List.map_congr_left fun m hm => by rw [h m hm]

theorem gathered_of_isScalar {v : Json} (h : v.isScalar) (gather : Gather) :
    gathered gather v = v := by
  cases v with
  | array | object => cases h
  | null | bool | int | double | string => rfl

theorem gatherAll_asWritten (state members : List (String × Json)) :
    gatherAll asWritten state members = state ++ members := by
  induction members generalizing state with
  | nil => exact (List.append_nil _).symm
  | cons m rest ih =>
    rw [gatherAll, List.foldl_cons, ← gatherAll, ih]
    simp [asWritten]

/-- Nothing is moved if members stay where they are written. -/
theorem gathered_asWritten (v : Json) : gathered asWritten v = v := by
  induction v using inductionOn with
  | scalar v h => exact gathered_of_isScalar h _
  | array items ih =>
    rw [gathered, gatheredItems_eq_map, List.map_congr_left ih, List.map_id']
  | object members ih =>
    rw [gathered, gatheredMembers_eq_self ih, gatherAll_asWritten, List.nil_append]

/-- Members that stand in order by key have their places. -/
theorem gathered_byKey {v : Json} (h : v.isSorted) : gathered byKey v = v := by
  induction v using inductionOn with
  | scalar v hscalar => exact gathered_of_isScalar hscalar _
  | array items ih =>
    have inItems := (everywhere_array.mp h).2
    rw [gathered, gatheredItems_eq_map, List.map_congr_left fun v hv => ih v hv (inItems v hv),
      List.map_id']
  | object members ih =>
    obtain ⟨sorted, inMembers⟩ := everywhere_object.mp h
    rw [gathered, gatheredMembers_eq_self fun m hm => ih m hm (inMembers m hm)]
    exact congrArg object (Keyed.Sorted.ofMembers_eq (of_decide_eq_true sorted) (.refl _))

/-! ### Readers -/

/-- A member of an object after its key. -/
def scanMemberBy (gather : Gather) (value : List Char → Except Fault (Json × List Char))
    (members : List (String × Json)) (key : String) (s : List Char) :
    Except Fault (List (String × Json) × List Char) := do
  let (v, s) ← value (← scanColon s)
  return (gather members key v, s)

/-- An object after its opening brace. -/
def scanObjectBy (gather : Gather) (value : List Char → Except Fault (Json × List Char))
    (s : List Char) : Except Fault (List (String × Json) × List Char) := do
  scanMembers id (scanMemberBy gather value) s.length [] (← firstMember s)

/-- Reads a value in which at most `depth` containers are open at once. -/
def scanValueBy (gather : Gather) : (depth : Nat) → List Char → Except Fault (Json × List Char)
  | 0 => scanWith (fun _ => .error .tooDeep) (fun _ => .error .tooDeep)
  | depth + 1 =>
    scanWith
      (fun s => (scanArray (scanValueBy gather depth) s).map fun (items, s) => (.array items, s))
      (fun s => (scanObjectBy gather (scanValueBy gather depth) s).map
        fun (members, s) => (.object members, s))

/-- Reads a text that holds one value, with the members of objects as they are written. -/
def readAsWritten (s : List Char) : Except Fault Json := do
  let (value, rest) ← scanValueBy asWritten maxDepth s
  scanEnd rest
  return value

/-- The reader of a session is one that gives each key its place. -/
theorem scanValueBy_byKey (depth : Nat) : scanValueBy byKey depth = scanValue depth := by
  induction depth with
  | zero => rfl
  | succ depth ih =>
    rw [scanValueBy, scanValue, ih]
    rfl

theorem scanWith_blanks {blanks : List Char} (h : Blanks blanks)
    (array object : List Char → Except Fault (Json × List Char)) (s : List Char) :
    scanWith array object (blanks ++ s) = scanWith array object s := by
  rw [scanWith, scanWith, skipSpace_blanks h]

theorem scanValueBy_blanks {blanks : List Char} (h : Blanks blanks) (gather : Gather)
    (depth : Nat) (s : List Char) :
    scanValueBy gather depth (blanks ++ s) = scanValueBy gather depth s := by
  cases depth with
  | zero => exact scanWith_blanks h _ _ s
  | succ depth => exact scanWith_blanks h _ _ s

/-! ### Scalars -/

/-- The first character of an integer begins nothing else. -/
theorem apart_of_sign {c : Char} (h : c = '-' ∨ c.isDigit) :
    isSpace c = false ∧ ∀ d ∈ [']', 'n', 't', 'f', '"', '[', '\x7b'], c ≠ d := by
  have none : [' ', '\t', '\n', '\r', ']', 'n', 't', 'f', '"', '[', '\x7b'].all
      fun d => d != '-' && !d.isDigit := by decide
  have apart : ∀ d ∈ [' ', '\t', '\n', '\r', ']', 'n', 't', 'f', '"', '[', '\x7b'], c ≠ d := by
    rintro d hd rfl
    have neither := List.all_eq_true.mp none c hd
    rw [Bool.and_eq_true, bne_iff_ne, Bool.not_eq_true'] at neither
    rcases h with rfl | h
    · exact neither.1 rfl
    · rw [h] at neither
      cases neither.2
  refine ⟨?_, fun d hd => apart d (List.mem_append_right [' ', '\t', '\n', '\r'] hd)⟩
  simp [isSpace, apart]

section Scalars

variable (array object : List Char → Except Fault (Json × List Char))

theorem reads_int {n : Int} (h : fitsWord n) : Reads (scanWith array object) (intChars n) (.int n) := by
  have first : ∃ c s, intChars n = c :: s ∧ (c = '-' ∨ c.isDigit) := by
    cases n with
    | ofNat n =>
      obtain ⟨c, s, heq⟩ := List.exists_cons_of_ne_nil (Nat.toDigits_ne_nil (b := 10) (n := n))
      refine ⟨c, s, heq, .inr (Numeral.isDigit_toDigits n c ?_)⟩
      rw [heq]
      exact List.mem_cons_self
    | negSucc n => exact ⟨'-', _, rfl, .inl rfl⟩
  obtain ⟨c, s, heq, hc⟩ := first
  obtain ⟨hspace, hother⟩ := apart_of_sign hc
  refine ⟨⟨c, s, heq, hspace, hother _ (by decide)⟩, fun {rest} hrest => ?_⟩
  have cut := Numeral.scan_intChars n hrest .endInValue
  rw [heq, List.cons_append] at cut ⊢
  rw [scanWith, skipSpace_cons hspace]
  simp only [hother 'n' (by decide), hother 't' (by decide), hother 'f' (by decide),
    hother '"' (by decide), hother '[' (by decide), hother '\x7b' (by decide), if_false, hc, if_true,
    cut, ok_bind, Numeral.value_ofInt h]
  rfl

theorem reads_string (text : String) :
    Reads (scanWith array object) (quote text) (.string text) where
  start := ⟨'"', unquoted text, rfl, by decide, by decide⟩
  scan := by
    intro rest _
    rw [quote_eq, List.cons_append, scanWith, skipSpace_cons (by decide)]
    simp [scanString_unquoted]

/-- A scalar is read back. -/
theorem reads_scalarChars {v : Json} (hscalar : v.isScalar) (hwords : v.hasWords)
    (hint : v.isIntegral) : Reads (scanWith array object) (scalarChars v) v := by
  cases v with
  | array | object => cases hscalar
  | double => cases hint
  | null => exact ⟨⟨'n', _, rfl, by decide, by decide⟩, fun _ => rfl⟩
  | bool value =>
    cases value with
    | false => exact ⟨⟨'f', _, rfl, by decide, by decide⟩, fun _ => rfl⟩
    | true => exact ⟨⟨'t', _, rfl, by decide, by decide⟩, fun _ => rfl⟩
  | int n => exact reads_int array object hwords
  | string text => exact reads_string array object text

end Scalars

theorem scanValueBy_scalar {v : Json} (hscalar : v.isScalar) (hwords : v.hasWords)
    (hint : v.isIntegral) (gather : Gather) (depth : Nat) :
    Reads (scanValueBy gather depth) (scalarChars v) v := by
  cases depth with
  | zero => exact reads_scalarChars _ _ hscalar hwords hint
  | succ depth => exact reads_scalarChars _ _ hscalar hwords hint

/-! ### Containers -/

section Containers

variable {gather : Gather} {depth : Nat} {before after : List Char} (hbefore : Blanks before)
  (hafter : Blanks after)
include hbefore hafter

/-- An array is read back if its items are. -/
theorem reads_array {texts : List (List Char)} {values : List Json}
    (h : Forall₂ (Reads (scanValueBy gather depth)) texts values) :
    Reads (scanValueBy gather (depth + 1)) ('[' :: (listing before after texts ++ [']']))
      (.array values) where
  start := ⟨'[', _, rfl, by decide, by decide⟩
  scan := by
    intro rest _
    rw [List.cons_append, List.append_assoc, List.singleton_append, scanValueBy, scanWith,
      skipSpace_cons (by decide)]
    simp [scanArray_listing hbefore hafter h rest]

theorem scanObjectBy_listing {texts : List (List Char)} {members : List (String × Json)}
    (h : ReadsMembers (scanMemberBy gather (scanValueBy gather depth)) texts [] members)
    (rest : List Char) :
    scanObjectBy gather (scanValueBy gather depth) (listing before after texts ++ '\x7d' :: rest) =
      .ok (members, rest) := by
  obtain ⟨step, hfirst, hloop⟩ := scanMembers_length id hbefore hafter h rest
  rw [scanObjectBy, hfirst, ok_bind, hloop]

/-- An object is read back if its members are. -/
theorem reads_object {texts : List (List Char)} {members : List (String × Json)}
    (h : ReadsMembers (scanMemberBy gather (scanValueBy gather depth)) texts [] members) :
    Reads (scanValueBy gather (depth + 1)) ('\x7b' :: (listing before after texts ++ ['\x7d']))
      (.object members) where
  start := ⟨'\x7b', _, rfl, by decide, by decide⟩
  scan := by
    intro rest _
    rw [List.cons_append, List.append_assoc, List.singleton_append, scanValueBy, scanWith,
      skipSpace_cons (by decide)]
    simp [scanObjectBy_listing hbefore hafter h rest]

end Containers

/-- Members are taken in, one after the other, if the texts of their values are read. -/
theorem readsMembers_of_reads {gather : Gather} {depth : Nat} {gap : List Char} (hgap : Blanks gap)
    {layout : Json → List Char} {value : Json → Json} (members : List (String × Json))
    (h : ∀ m ∈ members, Reads (scanValueBy gather depth) (layout m.2) (value m.2))
    (state : List (String × Json)) :
    ReadsMembers (scanMemberBy gather (scanValueBy gather depth))
      (members.map fun m => quote m.1 ++ ':' :: (gap ++ layout m.2)) state
      (gatherAll gather state (members.map fun m => (m.1, value m.2))) := by
  induction members generalizing state with
  | nil => exact .nil
  | cons m rest ih =>
    obtain ⟨here, later⟩ := List.forall_mem_cons.mp h
    refine .cons (fun {rest} hrest => ?_) (ih later _)
    rw [scanMemberBy, List.cons_append, scanColon, skipSpace_cons (by decide)]
    simp [scanValueBy_blanks hgap, here.scan hrest]

/-- Members are taken in, one after the other, if their values are read back. -/
theorem readsMembers_map {gather : Gather} {depth : Nat} {gap : List Char} (hgap : Blanks gap)
    {layout : Json → List Char} (members : List (String × Json))
    (h : ∀ m ∈ members, Reads (scanValueBy gather depth) (layout m.2) (gathered gather m.2))
    (state : List (String × Json)) :
    ReadsMembers (scanMemberBy gather (scanValueBy gather depth))
      (members.map fun m => quote m.1 ++ ':' :: (gap ++ layout m.2)) state
      (gatherAll gather state (gatheredMembers gather members)) := by
  rw [gatheredMembers_eq_map]
  exact readsMembers_of_reads hgap members h state

/-! ### The two layouts -/

theorem forall₂_map {α : Type} {R : List Char → Json → Prop} {text : α → List Char}
    {value : α → Json} {l : List α} (h : ∀ x ∈ l, R (text x) (value x)) :
    Forall₂ R (l.map text) (l.map value) := by
  rw [List.forall₂_map_left_iff, List.forall₂_map_right_iff, List.forall₂_same]
  exact h

/-- **A value in the compact layout is read back.** -/
theorem reads_compact (gather : Gather) {v : Json} (hwords : v.hasWords) (hint : v.isIntegral)
    {depth : Nat} (hdepth : v.depth ≤ depth) :
    Reads (scanValueBy gather depth) v.compact (gathered gather v) := by
  induction v using inductionOn generalizing depth with
  | scalar v h =>
    rw [compact_of_isScalar h, gathered_of_isScalar h]
    exact scanValueBy_scalar h hwords hint gather depth
  | array items ih =>
    obtain ⟨inner, rfl, hinner⟩ := depth_array_le_iff.mp hdepth
    have items' := forall₂_map fun v hv =>
      ih v hv ((everywhere_array.mp hwords).2 v hv) ((everywhere_array.mp hint).2 v hv) (hinner v hv)
    rw [compact, compactItems_eq_map, intercalate_eq_listing, gathered, gatheredItems_eq_map]
    exact reads_array blanks_nil blanks_nil items'
  | object members ih =>
    obtain ⟨inner, rfl, hinner⟩ := depth_object_le_iff.mp hdepth
    have members' := readsMembers_map blanks_nil members (fun m hm =>
      ih m hm ((everywhere_object.mp hwords).2 m hm) ((everywhere_object.mp hint).2 m hm)
        (hinner m hm)) []
    rw [compact, compactMembers_eq_map, intercalate_eq_listing, gathered]
    exact reads_object blanks_nil blanks_nil members'

theorem blanks_newLine (level : Nat) : Blanks (newLine level) := by
  intro c hc
  rcases List.mem_cons.mp hc with rfl | hc
  · rfl
  · rw [List.eq_of_mem_replicate hc]
    rfl

/-- **A value in the pretty layout is read back.** -/
theorem reads_prettyAt (gather : Gather) {v : Json} (hwords : v.hasWords) (hint : v.isIntegral)
    {depth : Nat} (hdepth : v.depth ≤ depth) (level : Nat) :
    Reads (scanValueBy gather depth) (v.prettyAt level) (gathered gather v) := by
  induction v using inductionOn generalizing depth level with
  | scalar v h =>
    rw [prettyAt_of_isScalar h, gathered_of_isScalar h]
    exact scanValueBy_scalar h hwords hint gather depth
  | array items ih =>
    obtain ⟨inner, rfl, hinner⟩ := depth_array_le_iff.mp hdepth
    have items' := forall₂_map fun v hv =>
      ih v hv ((everywhere_array.mp hwords).2 v hv) ((everywhere_array.mp hint).2 v hv)
        (hinner v hv) (level + 1)
    rw [prettyAt, prettyItems_eq_map, block_eq_listing, gathered, gatheredItems_eq_map]
    exact reads_array (blanks_newLine _) (blanks_newLine _) items'
  | object members ih =>
    obtain ⟨inner, rfl, hinner⟩ := depth_object_le_iff.mp hdepth
    have one : Blanks [' '] := by
      intro c hc
      rw [List.mem_singleton.mp hc]
      rfl
    have members' := readsMembers_map one members (fun m hm =>
      ih m hm ((everywhere_object.mp hwords).2 m hm) ((everywhere_object.mp hint).2 m hm)
        (hinner m hm) (level + 1)) []
    rw [prettyAt, prettyMembers_eq_map, block_eq_listing, gathered]
    exact reads_object (blanks_newLine _) (blanks_newLine _) members'

/-! ### Whole texts -/

section Texts

variable {v : Json} (hwords : v.hasWords) (hint : v.isIntegral) (hdepth : v.depth ≤ maxDepth)
include hwords hint hdepth

theorem scanValueBy_pretty (gather : Gather) :
    scanValueBy gather maxDepth v.pretty = .ok (gathered gather v, ['\n']) :=
  (reads_prettyAt gather hwords hint hdepth 0).scan (stops_cons (by decide) [])

/-- A text in the pretty layout is read as the value with each key in its place. -/
theorem read_pretty : read v.pretty = .ok (gathered byKey v) := by
  rw [read, ← scanValueBy_byKey, scanValueBy_pretty hwords hint hdepth]
  rfl

/-- A text in the pretty layout has just the members that the value has. -/
theorem readAsWritten_pretty : readAsWritten v.pretty = .ok v := by
  rw [readAsWritten, scanValueBy_pretty hwords hint hdepth, gathered_asWritten]
  rfl

end Texts

end AgentThreads.Json
