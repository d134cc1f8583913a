import AgentThreads.Proofs.Grouping.Relocation
import AgentThreads.Proofs.Report.Headings

/-!
# What contents do to headings

A grouping reads no contents, so sessions that differ in contents only have groups in step. Their
reports differ in the previews. A preview stands on one line, but it may begin with a number sign, and
then it is a heading where it is shown between blank lines. Where it is shown behind a nested event it
is part of a heading if the tool name or the status before it has begun one. Each preview that is
exposed in one of these ways adds to the headings, and no other one changes them; so the headings are
those of the session without its contents if and only if no preview is exposed.
-/

namespace AgentThreads

open List (Forall₂)

/-! ### Sessions without contents -/

/-- The event without what it says. -/
def Event.withoutContent (e : Event) : Event :=
  { e with content := .null }

/-- The event without what it says, at its place. -/
def Placed.withoutContent (p : Placed) : Placed :=
  { p with event := p.event.withoutContent }

theorem Placed.ofEvents_map_withoutContent (events : List Event) :
    ofEvents (events.map Event.withoutContent) = (ofEvents events).map withoutContent := by
  simp only [ofEvents, List.zipIdx_map, List.map_map]
  rfl

namespace Matching

/-- An event corresponds to itself without its content. -/
def withoutContents (options : Options) : Matching options options where
  event p p' := p.withoutContent = p'
  id := Eq
  id_iff := Eq.congr
  place_iff := by rintro p _ q _ rfl rfl; rfl
  isResult := by rintro p _ rfl; rfl
  isCall := by rintro p _ rfl; rfl
  isSpawnCall := by rintro p _ rfl; rfl
  isPollCall := by rintro p _ rfl; rfl
  background := by rintro p _ rfl; rfl
  status := by rintro p _ rfl; rfl
  toolId? := by rintro p _ rfl; exact rel_eq_refl _
  parentId? := by rintro p _ rfl; exact rel_eq_refl _
  taskId? := by rintro p _ rfl; exact rel_eq_refl _
  near_iff := by rintro p _ q _ rfl rfl _ _; rfl

theorem withoutContents_events (options : Options) (events : List Event) :
    Forall₂ (withoutContents options).event (Placed.ofEvents events)
      (Placed.ofEvents (events.map Event.withoutContent)) := by
  rw [Placed.ofEvents_map_withoutContent, List.forall₂_map_right_iff, List.forall₂_same]
  exact fun _ _ => rfl

/-- A grouping reads no contents. -/
theorem withoutContents_groups (options : Options) (events : List Event) :
    Forall₂ (withoutContents options).GroupRel (Grouping.ofEvents events options).groups
      (Grouping.ofEvents (events.map Event.withoutContent) options).groups :=
  have inStep := withoutContents_events options events
  rel_groups (assemblyRel_ofPlaced inStep (index_ofPlaced inStep))

end Matching

namespace Markdown

/-! ### Lines that show more -/

/-- How much there is of the headings in lines: their characters, and one more for each. -/
def bulk (ls : List String) : Nat :=
  ((ls.flatMap headings).map fun heading => heading.length + 1).sum

theorem bulk_append (l m : List String) : bulk (l ++ m) = bulk l + bulk m := by
  simp [bulk]

theorem bulk_eq_of_headings_eq {l m : List String} (h : l.flatMap headings = m.flatMap headings) :
    bulk l = bulk m := by
  rw [bulk, bulk, h]

/-- The full lines have the headings of the bare ones, unless something is exposed; then they have
more. -/
structure Shows (exposed : Prop) (bare full : List String) : Prop where
  /-- The headings are the same if nothing is exposed. -/
  same : ¬exposed → full.flatMap headings = bare.flatMap headings
  /-- There is more of them if something is exposed. -/
  more : exposed → bulk bare < bulk full

namespace Shows

variable {a b : Prop} {l l' m m' : List String}

theorem refl (l : List String) : Shows False l l :=
  ⟨fun _ => rfl, False.elim⟩

theorem congr (h : Shows a l l') (hab : a ↔ b) : Shows b l l' :=
  ⟨fun hb => h.same (mt hab.mp hb), fun hb => h.more (hab.mpr hb)⟩

theorem bulk_le (h : Shows a l l') : bulk l ≤ bulk l' := by
  by_cases ha : a
  · exact Nat.le_of_lt (h.more ha)
  · exact Nat.le_of_eq (bulk_eq_of_headings_eq (h.same ha)).symm

theorem append (h : Shows a l l') (h' : Shows b m m') : Shows (a ∨ b) (l ++ m) (l' ++ m') where
  same hab := by
    rw [not_or] at hab
    rw [List.flatMap_append, List.flatMap_append, h.same hab.1, h'.same hab.2]
  more hab := by
    have left := h.bulk_le
    have right := h'.bulk_le
    rw [bulk_append, bulk_append]
    rcases hab with ha | hb
    · have := h.more ha
      omega
    · have := h'.more hb
      omega

/-- Lines in front that are the same. -/
theorem behind (l : List String) (h : Shows a m m') : Shows a (l ++ m) (l ++ m') :=
  ((refl l).append h).congr (by simp)

/-- Lines behind that are the same. -/
theorem before (h : Shows a m m') (l : List String) : Shows a (m ++ l) (m' ++ l) :=
  (h.append (refl l)).congr (by simp)

/-- Lines for the elements of lists in step. -/
theorem flatMap {α : Type} {R : α → α → Prop} {exposed : α → Prop} (bare full : α → List String)
    {l l' : List α} (h : Forall₂ R l l') (hR : ∀ x y, R x y → Shows (exposed x) (bare y) (full x)) :
    Shows (∃ x ∈ l, exposed x) (l'.flatMap bare) (l.flatMap full) := by
  induction h with
  | nil => exact (refl []).congr (by simp)
  | cons hxy _ ih =>
    rw [List.flatMap_cons, List.flatMap_cons]
    exact ((hR _ _ hxy).append ih).congr (by simp)

/-- The same if the elements are numbered. -/
theorem flatMap_zipIdx {α : Type} {R : α → α → Prop} {exposed : α → Prop}
    (bare full : α → Nat → List String) {l l' : List α} (h : Forall₂ R l l')
    (hR : ∀ x y n, R x y → Shows (exposed x) (bare y n) (full x n)) (n : Nat) :
    Shows (∃ x ∈ l, exposed x) ((l'.zipIdx n).flatMap fun x => bare x.1 x.2)
      ((l.zipIdx n).flatMap fun x => full x.1 x.2) := by
  induction h generalizing n with
  | nil => exact (refl []).congr (by simp)
  | cons hxy _ ih =>
    rw [List.zipIdx_cons, List.zipIdx_cons, List.flatMap_cons, List.flatMap_cons]
    exact ((hR _ _ n hxy).append (ih (n + 1))).congr (by simp)

end Shows

/-! ### Previews -/

theorem shows_previewLines (e : Event) : Shows (Preview.beginsWithMark e.content)
    (previewLines e.withoutContent) (previewLines e) := by
  have bare : (previewLines e.withoutContent).flatMap headings = [] := rfl
  constructor
  · intro h
    rw [bare, headings_previewLines, if_neg h]
  · intro h
    rw [bulk, bulk, bare, headings_previewLines, if_pos h]
    simp

/-- The last line of the text is a heading. -/
def endsInHeading (s : String) : Bool :=
  (Text.lines s.toList).getLast?.any (·.head? == some '#')

/-- What is put behind a text becomes part of its last heading, if the last line is one. -/
theorem exists_headings_append (s : String) {t : String} (line : IsLine t)
    (first : t.toList.head? ≠ some '#') : ∃ before last,
      headings s = before ++ (if endsInHeading s then [last] else []) ∧
      headings (s ++ t) = before ++ if endsInHeading s then [last ++ t] else [] := by
  obtain ⟨before, last, hs, hst⟩ := splitOn_append_right s.toList line
  have ends : endsInHeading s ↔ last.head? = some '#' := by
    rw [endsInHeading, Text.lines, hs, List.getLast?_concat]
    simp
  have further : (last ++ t.toList).head? = some '#' ↔ endsInHeading s := by
    rw [ends]
    cases last with
    | nil => simpa using first
    | cons c last => rfl
  have bare := headings_of_lines hs
  have full : headings (s ++ t) = _ :=
    headings_of_lines (by rw [Text.lines, String.toList_append]; exact hst)
  simp only [← ends] at bare
  simp only [further, String.ofList_append, String.ofList_toList] at full
  exact ⟨_, _, bare, full⟩

/-- What is put behind a text shows in its headings if the last line is one. -/
theorem shows_append (s : String) {t : String} (line : IsLine t)
    (first : t.toList.head? ≠ some '#') : Shows (t ≠ "" ∧ endsInHeading s) [s] [s ++ t] := by
  obtain ⟨before, last, bare, full⟩ := exists_headings_append s line first
  constructor
  · intro h
    by_cases hs : endsInHeading s
    · have nothing : t = "" := by simpa [hs] using h
      simp [nothing]
    · simp [bare, full, hs]
  · rintro ⟨something, hs⟩
    have length : 1 ≤ t.length := by
      rw [← String.length_toList]
      exact List.length_pos_iff.mpr (by simpa using something)
    simpa [bulk, bare, full, hs] using length

theorem head?_inlinePreview (content : Json) : (inlinePreview content).toList.head? ≠ some '#' := by
  unfold inlinePreview
  split
  · simp
  · simp

/-- The preview of a nested event is part of a heading. -/
def exposesNested (results : ResultIndex) (p : Placed) : Bool :=
  inlinePreview p.event.content != "" && endsInHeading (nestedStart results p)

/-! ### Subagents -/

/-- The preview of the spawn or of a nested event is exposed. -/
def exposesEntry (results : ResultIndex) (e : Entry) : Bool :=
  Preview.beginsWithMark e.spawn.event.content || e.nested.any (exposesNested results)

/-- A preview in the group is exposed. -/
def exposesGroup (results : ResultIndex) : Group → Bool
  | .message event _ => Preview.beginsWithMark event.event.content
  | .subagent entry => exposesEntry results entry
  | .parallel entries => entries.any (exposesEntry results)

/-- A preview in the report is exposed. -/
def exposes (g : Grouping) : Bool :=
  g.groups.any (exposesGroup g.results)

section Entries

open Matching

variable {options : Options} {results results' : ResultIndex}

theorem resultStatus_eq {word : String} {r r' : Option Placed}
    (h : Option.Rel (withoutContents options).event r r') :
    resultStatus word r' = resultStatus word r := by
  cases h with
  | none => rfl
  | some hr =>
    cases hr
    rfl

theorem entryTitle_eq {e e' : Entry} (h : (withoutContents options).EntryRel e e') :
    entryTitle e' = entryTitle e := by
  rw [entryTitle, entryTitle, ← h.spawn]
  rfl

variable (hindex : (withoutContents options).index results results')
include hindex

theorem nestedStart_withoutContent (p : Placed) :
    nestedStart results' p.withoutContent = nestedStart results p := by
  have status := rel_resultOf hindex (p := p) rfl
  unfold nestedStart
  rcases rel_cases status with ⟨h, h'⟩ | ⟨r, r', h, h', hr⟩
  · rw [h, h']
    rfl
  · rw [h, h']
    cases hr
    rfl

theorem shows_nestedLine (p : Placed) : Shows (exposesNested results p)
    [nestedLine results' p.withoutContent] [nestedLine results p] := by
  have bare : nestedLine results' p.withoutContent = nestedStart results p := by
    rw [nestedLine_eq, nestedStart_withoutContent hindex]
    exact String.append_empty
  rw [bare, nestedLine_eq]
  exact (shows_append _ (by simp) (head?_inlinePreview _)).congr (by simp [exposesNested])

theorem pollLine_withoutContent (p : Placed) :
    pollLine results' p.withoutContent = pollLine results p := by
  rw [pollLine, pollLine, resultStatus_eq (rel_resultOf hindex (p := p) rfl)]
  rfl

/-- The list of nested events. -/
theorem shows_nested (heading : String) {nested nested' : List Placed}
    (h : Forall₂ (withoutContents options).event nested nested') :
    Shows (∃ p ∈ nested, exposesNested results p)
      (listLines heading (nested'.map (nestedLine results')))
      (listLines heading (nested.map (nestedLine results))) := by
  have lines := Shows.flatMap (fun p => [nestedLine results' p]) (fun p => [nestedLine results p]) h
    fun p p' hp => hp ▸ shows_nestedLine hindex p
  rw [← List.map_eq_flatMap, ← List.map_eq_flatMap] at lines
  cases h with
  | nil => exact (Shows.refl []).congr (by simp)
  | cons hp hrest => exact (lines.behind [heading, ""]).before [""]

/-- What is known of a subagent. -/
theorem shows_entryLines (mark : String) {e e' : Entry}
    (h : (withoutContents options).EntryRel e e') :
    Shows (exposesEntry results e) (entryLines results' mark e') (entryLines results mark e) := by
  obtain ⟨spawn, result, nested, polls, status⟩ := e'
  obtain ⟨hspawn, hresult, hnested, hpolls, hstatus⟩ := h
  dsimp only at hspawn hresult hnested hpolls hstatus
  subst hspawn hstatus
  have same : polls.map (pollLine results') = e.polls.map (pollLine results) :=
    (map_eq_map_of_forall₂ hpolls fun p p' hp => hp ▸ (pollLine_withoutContent hindex p).symm).symm
  unfold entryLines
  dsimp only
  rw [same, resultStatus_eq hresult]
  refine Shows.congr (((Shows.behind _ (shows_previewLines e.spawn.event)).append
    (shows_nested hindex _ hnested)).before _) ?_
  simp [exposesEntry]

/-- The section of a group. -/
theorem shows_groupLines (number : Nat) {g g' : Group} (h : (withoutContents options).GroupRel g g') :
    Shows (exposesGroup results g) (groupLines results' number g') (groupLines results number g) := by
  cases h with
  | @message p _ r r' hp hr =>
    cases hp
    have same : (r'.map fun r => "- Result: " ++ code (statusOr "done" r)) =
        r.map fun r => "- Result: " ++ code (statusOr "done" r) := by
      cases hr with
      | none => rfl
      | some hr =>
        cases hr
        rfl
    rw [groupLines, groupLines, same]
    exact (shows_previewLines p.event).behind _
  | @subagent e e' he =>
    rw [groupLines, groupLines, entryTitle_eq he]
    exact (shows_entryLines hindex "###" he).behind _
  | @parallel es es' hes =>
    rw [groupLines, groupLines, hes.length_eq]
    have entries := Shows.flatMap_zipIdx
      (fun e part =>
        ["### " ++ toString number ++ "." ++ toString part ++ ". " ++ entryTitle e, ""]
          ++ entryLines results' "####" e)
      (fun e part =>
        ["### " ++ toString number ++ "." ++ toString part ++ ". " ++ entryTitle e, ""]
          ++ entryLines results "####" e)
      hes
      (fun e e' part he => by
        rw [entryTitle_eq he]
        exact (shows_entryLines hindex "####" he).behind _) 1
    exact (entries.behind _).congr (by simp only [exposesGroup, List.any_eq_true])

end Entries

/-! ### Reports -/

/-- The counts of groups that correspond. -/
theorem summary_withoutContents {options : Options} {groups groups' : List Group}
    (h : Forall₂ (Matching.withoutContents options).GroupRel groups groups') :
    Summary.ofGroups groups' = Summary.ofGroups groups := by
  have addEntry (s : Summary) {e e' : Entry} (he : (Matching.withoutContents options).EntryRel e e') :
      s.addEntry e' = s.addEntry e := by
    rw [Summary.addEntry, Summary.addEntry, he.nested.length_eq, he.polls.length_eq]
  have addEntries (s : Summary) {es es' : List Entry}
      (hes : Forall₂ (Matching.withoutContents options).EntryRel es es') :
      es'.foldl Summary.addEntry s = es.foldl Summary.addEntry s := by
    induction hes generalizing s with
    | nil => rfl
    | cons he _ ih => rw [List.foldl_cons, List.foldl_cons, addEntry s he, ih]
  unfold Summary.ofGroups
  generalize ({} : Summary) = s
  induction h generalizing s with
  | nil => rfl
  | @cons g g' _ _ hg _ ih =>
    have addGroup : s.addGroup g' = s.addGroup g := by
      cases hg with
      | message => rfl
      | subagent he => exact addEntry _ he
      | parallel hes => rw [Summary.addGroup, Summary.addGroup, hes.length_eq, addEntries _ hes]
    rw [List.foldl_cons, List.foldl_cons, addGroup, ih]

/-- The lines of a report, and those of the report without the contents. -/
theorem shows_lines (path : Path) (events : List Event) (options : Options) :
    Shows (exposes (Grouping.ofEvents events options))
      (lines path (events.map Event.withoutContent).length
        (Grouping.ofEvents (events.map Event.withoutContent) options))
      (lines path events.length (Grouping.ofEvents events options)) := by
  have groups := Matching.withoutContents_groups options events
  have index : (Matching.withoutContents options).index (Grouping.ofEvents events options).results
      (Grouping.ofEvents (events.map Event.withoutContent) options).results :=
    Matching.index_ofPlaced (Matching.withoutContents_events options events)
  generalize Grouping.ofEvents (events.map Event.withoutContent) options = g' at groups index
  generalize Grouping.ofEvents events options = g at groups index
  have head : headLines path (events.map Event.withoutContent).length g' =
      headLines path events.length g := by
    rw [headLines, headLines, summary_withoutContents groups, groups.length_eq, List.length_map]
  have sections := Shows.flatMap_zipIdx (fun group number => groupLines g'.results number group)
    (fun group number => groupLines g.results number group) groups
    (fun _ _ number hg => shows_groupLines index number hg) 1
  rw [lines, lines, head]
  refine (Shows.behind _ (a := ∃ group ∈ g.groups, exposesGroup g.results group) ?_).congr
    (by rw [exposes, List.any_eq_true])
  cases hgroups : g.groups with
  | nil =>
    rw [hgroups, List.forall₂_nil_left_iff] at groups
    rw [groups, List.isEmpty_nil, if_pos rfl, if_pos rfl]
    exact (Shows.refl _).congr (by simp)
  | cons group rest =>
    rw [hgroups] at groups sections
    obtain ⟨group', rest', -, -, hgroups'⟩ := List.forall₂_cons_left_iff.mp groups
    rw [hgroups'] at sections ⊢
    rw [List.isEmpty_cons, List.isEmpty_cons, if_neg Bool.false_ne_true, if_neg Bool.false_ne_true]
    exact sections

/-- The headings are those of the session without its contents if and only if no preview is
exposed. -/
theorem headings_eq_withoutContent_iff (path : Path) (events : List Event) (options : Options) :
    headings (Session.markdown ⟨path, events⟩ options) =
        headings (Session.markdown ⟨path, events.map Event.withoutContent⟩ options) ↔
      exposes (Grouping.ofEvents events options) = false := by
  have shows := shows_lines path events options
  rw [Session.markdown, Session.markdown, render, render, headings_unlines, headings_unlines]
  constructor
  · intro same
    by_contra exposed
    have more := shows.more (by simpa using exposed)
    have bulk := bulk_eq_of_headings_eq same
    dsimp only at bulk
    omega
  · exact fun hidden => shows.same (by simp [hidden])

/-- Where names, ids and statuses end no line, only the contents of messages and of spawns can be
exposed. -/
theorem exposes_of_onOneLine {events : List Event} (h : ∀ e ∈ events, e.OnOneLine)
    (options : Options) : exposes (Grouping.ofEvents events options) =
      ((Grouping.ofEvents events options).groups.flatMap Group.heads).any fun p =>
        Preview.beginsWithMark p.event.content := by
  have entry {g : Group} (hg : g ∈ (Grouping.ofEvents events options).groups) {e : Entry}
      (he : e ∈ g.entries) : exposesEntry (Grouping.ofEvents events options).results e =
        Preview.beginsWithMark e.spawn.event.content := by
    rw [exposesEntry, List.any_eq_false.mpr, Bool.or_false]
    intro p hp
    have mem : p ∈ g.referenced := Group.referenced_of_mem_entries he (by simp [Entry.referenced, hp])
    have shown : p.event.OnOneLine := h _ (Grouping.event_mem_of_mem_referenced events options
      (List.mem_flatMap.mpr ⟨g, hg, mem⟩))
    have line : Text.lines (nestedStart (Grouping.ofEvents events options).results p).toList = [_] :=
      List.splitOn_eq_singleton (isLine_nestedStart (onOneLine_of_resultOf h) shown)
    rw [exposesNested, endsInHeading, line]
    simp [nestedStart]
  rw [exposes, List.any_flatMap, Bool.eq_iff_iff, List.any_eq_true, List.any_eq_true]
  refine exists_congr fun g => and_congr_right fun hg => ?_
  cases g with
  | message p result => simp [exposesGroup, Group.heads]
  | subagent e => simp [exposesGroup, Group.heads, entry hg (List.mem_singleton_self e)]
  | parallel es =>
    simp only [exposesGroup, Group.heads, List.any_map, List.any_eq_true, Function.comp_apply]
    exact exists_congr fun e => and_congr_right fun he => by rw [entry hg he]

/-- **Contents in the headings**: of two sessions that differ in contents only, and of which the first
exposes no preview, the reports have the same headings if and only if the second exposes none
either. -/
theorem headings_eq_iff_of_contents (path : Path) (events events' : List Event) (options : Options)
    (same : events.map Event.withoutContent = events'.map Event.withoutContent)
    (hidden : exposes (Grouping.ofEvents events options) = false) :
    headings (Session.markdown ⟨path, events⟩ options) =
        headings (Session.markdown ⟨path, events'⟩ options) ↔
      exposes (Grouping.ofEvents events' options) = false := by
  rw [(headings_eq_withoutContent_iff path events options).mpr hidden, same,
    ← headings_eq_withoutContent_iff path events' options]
  exact eq_comm

/-- A message, a spawn and a nested event with contents of every form. -/
theorem headings_eq_of_other_contents :
    let events (a b c : Json) : List Event :=
      [{ kind := .message, time := ⟨0, 0⟩, content := a },
        { kind := .toolCall, time := ⟨0, 0⟩, content := b,
          metadata := { toolId := some "a", toolName := some "Task" } },
        { kind := .message, time := ⟨0, 0⟩, content := c, metadata := { parentId := some "a" } }]
    let first := events .null (.string "go\n# on") (.string "# under")
    let second := events (.array [.string "# x"]) (.int (-1)) (.object [("#", .bool true)])
    exposes (Grouping.ofEvents first {}) = false ∧
      headings (Session.markdown ⟨.ofString "a", first⟩ {}) =
        headings (Session.markdown ⟨.ofString "a", second⟩ {}) := by
  intro events first second
  have hidden : exposes (Grouping.ofEvents first {}) = false := by decide +kernel
  exact ⟨hidden,
    (headings_eq_iff_of_contents _ first second {} rfl hidden).mpr (by decide +kernel)⟩

/-- A message that says what a heading says has a report like that of two messages. -/
theorem headings_forged :
    let message (content : Json) : Event := { kind := .message, time := ⟨0, 0⟩, content }
    let plain := [message .null]
    let forged := [message (.string "## 2. Message")]
    let report (events : List Event) := Session.markdown ⟨.ofString "session.jsonl", events⟩ {}
    plain.map Event.withoutContent = forged.map Event.withoutContent ∧
      headings (report plain) = ["# Agent Activity", "## 1. Message"] ∧
      headings (report forged) = ["# Agent Activity", "## 1. Message", "## 2. Message"] := by
  intro message plain forged report
  exact ⟨rfl, by decide +kernel, by decide +kernel⟩

end Markdown

end AgentThreads
