import AgentThreads.Proofs.Report.Previews
import AgentThreads.Proofs.Report.RoundTrip
import AgentThreads.Proofs.Text.Lines
import AgentThreads.Report.Markdown
import Mathlib

/-!
# The headings of a report

The lines of a report that begin with a number sign are its headings: one for the report, one for each
group in order, one for each of several subagents in a group, and one for each list of a subagent that
has something in it. This holds if the names, ids and statuses, which a report shows as they are, end
no line, and if no content that is shown between blank lines begins with a number sign.
-/

namespace AgentThreads

namespace Markdown

/-! ### Texts on one line -/

/-- The text ends no line. -/
def IsLine (s : String) : Prop :=
  '\n' ∉ s.toList

instance (s : String) : Decidable (IsLine s) :=
  inferInstanceAs (Decidable ('\n' ∉ s.toList))

@[simp] theorem isLine_append {s t : String} : IsLine (s ++ t) ↔ IsLine s ∧ IsLine t := by
  simp [IsLine]

@[simp] theorem isLine_code {s : String} : IsLine (code s) ↔ IsLine s := by
  have mark : IsLine "`" := by decide
  simp [code, mark]

@[simp] theorem isLine_repr (n : Nat) : IsLine n.repr := by
  intro h
  rw [Nat.toList_repr] at h
  have digit := Json.Numeral.isDigit_toDigits n _ h
  cases digit

@[simp] theorem isLine_timestamp (e : Event) : IsLine e.timestamp := by
  have digits {width n : Nat} : '\n' ∉ Rfc3339.padded width n := fun h => by
    have digit := Rfc3339.isDigit_of_mem_padded h
    cases digit
  have year {n : Int} : '\n' ∉ Rfc3339.yearChars n := by
    unfold Rfc3339.yearChars
    split
    · exact digits
    · split <;> simp [digits]
  rw [IsLine, Event.timestamp, String.toList_ofList]
  simp [Rfc3339.write, digits, year]

@[simp] theorem isLine_kindName (k : Event.Kind) : IsLine k.name := by
  cases k <;> decide

@[simp] theorem isLine_preview (content : Json) : IsLine (Preview.ofContent content) :=
  Preview.newLine_not_mem_ofContent content

/-! ### Headings -/

/-- The lines of a text that begin with a number sign. -/
def headings (text : String) : List String :=
  ((Text.lines text.toList).filter (·.head? == some '#')).map String.ofList

theorem headings_append_lineFeed (s t : String) :
    headings (s ++ "\n" ++ t) = headings s ++ headings t := by
  have cut : (s ++ "\n" ++ t).toList = s.toList ++ '\n' :: t.toList := by simp
  rw [headings, cut, Text.lines_append_cons, List.filter_append, List.map_append, headings, headings]

/-- A text of lines has the headings of the lines. -/
theorem headings_unlines (ls : List String) : headings (unlines ls) = ls.flatMap headings := by
  rw [unlines]
  induction ls with
  | nil => rfl
  | cons l ls ih =>
    rw [List.map_cons, String.join_cons, headings_append_lineFeed, ih, List.flatMap_cons]

/-- The last line of a text is a heading or not. -/
theorem headings_of_lines {s : String} {before : List (List Char)} {last : List Char}
    (h : Text.lines s.toList = before ++ [last]) :
    headings s = (before.filter (·.head? == some '#')).map String.ofList
      ++ if last.head? = some '#' then [String.ofList last] else [] := by
  rw [headings, h, List.filter_append, List.map_append, List.filter_singleton]
  by_cases hlast : last.head? = some '#'
  · simp [hlast]
  · rw [if_neg hlast, beq_eq_false_iff_ne.mpr hlast]
    rfl

section Line

variable {s : String} (line : IsLine s)
include line

theorem headings_of_isLine : headings s = if s.toList.head? = some '#' then [s] else [] := by
  have one : Text.lines s.toList = [] ++ [s.toList] := List.splitOn_eq_singleton line
  rw [headings_of_lines one, String.ofList_toList]
  rfl

theorem headings_of_mark (h : s.toList.head? = some '#') : headings s = [s] := by
  rw [headings_of_isLine line, if_pos h]

theorem headings_of_other (h : s.toList.head? ≠ some '#') : headings s = [] := by
  rw [headings_of_isLine line, if_neg h]

end Line

/-- A line for what may be missing. -/
theorem headings_optional {α : Type} {o : Option α} {line : α → String}
    (h : ∀ x ∈ o, headings (line x) = []) : (o.map line).toList.flatMap headings = [] := by
  cases o with
  | none => rfl
  | some x => simp [h x rfl]

/-! ### What is said of an event -/

end Markdown

/-- The texts of an event that a report shows as they are end no line. -/
structure Event.OnOneLine (e : Event) : Prop where
  /-- The tool name. -/
  toolName : ∀ name ∈ e.metadata.toolName, Markdown.IsLine name
  /-- The tool id. -/
  toolId : ∀ id ∈ e.metadata.toolId, Markdown.IsLine id
  /-- The status. -/
  status : ∀ status ∈ e.metadata.status, Markdown.IsLine status

instance (e : Event) : Decidable e.OnOneLine :=
  decidable_of_iff ((∀ name ∈ e.metadata.toolName, Markdown.IsLine name) ∧
      (∀ id ∈ e.metadata.toolId, Markdown.IsLine id) ∧
      ∀ status ∈ e.metadata.status, Markdown.IsLine status)
    ⟨fun ⟨name, id, status⟩ => ⟨name, id, status⟩, fun h => ⟨h.toolName, h.toolId, h.status⟩⟩

theorem mem_of_nonEmpty {s : Option String} {text : String} (h : nonEmpty s = some text) :
    text ∈ s :=
  (nonEmpty_eq_some_iff.mp h).1

namespace Markdown

section OneLine

variable {e : Event} (h : e.OnOneLine)
include h

theorem isLine_title : IsLine (title e) := by
  unfold title
  split
  · case _ tool _ htool =>
    have name : IsLine tool := h.toolName tool (mem_of_nonEmpty htool)
    have call : IsLine "Tool Call " := by decide
    simp [name, call]
  all_goals decide

theorem headings_eventLines : (eventLines e).flatMap headings = [] := by
  have time : headings ("- Time: " ++ code e.timestamp ++ " (" ++ code e.kind.name ++ ")") = [] :=
    headings_of_other (by simp +decide) (by simp)
  have toolId : (e.metadata.toolId?.map fun id => "- Tool Id: " ++ code id).toList.flatMap headings =
      [] := headings_optional fun id hid => by
    have name : IsLine id := h.toolId id (mem_of_nonEmpty hid)
    exact headings_of_other (by simp +decide [name]) (by simp)
  rw [eventLines, List.flatMap_cons, time, toolId]
  rfl

end OneLine

theorem isLine_statusOr {p : Placed} (h : p.event.OnOneLine) {word : String} (hword : IsLine word) :
    IsLine (statusOr word p) := by
  unfold statusOr
  cases hstatus : p.event.metadata.status? with
  | none => exact hword
  | some status => exact h.status status (mem_of_nonEmpty hstatus)

theorem isLine_resultStatus {result : Option Placed} (h : ∀ r ∈ result, r.event.OnOneLine)
    {word : String} (hword : IsLine word) : IsLine (resultStatus word result) := by
  cases result with
  | none =>
    show IsLine "pending"
    decide
  | some r => exact isLine_statusOr (h r rfl) hword

/-- What stands between blank lines is a heading if it begins as one. -/
theorem headings_previewLines (e : Event) : (previewLines e).flatMap headings =
    if Preview.beginsWithMark e.content then [Preview.ofContent e.content] else [] := by
  have empty : headings "" = [] := rfl
  have shown : (previewLines e).flatMap headings = headings (Preview.ofContent e.content) := by
    unfold previewLines
    dsimp only
    split
    · case isTrue h => rw [String.isEmpty_iff.mp h]; rfl
    · simp [empty]
  rw [shown, headings_of_isLine (isLine_preview _)]
  simp only [Preview.head?_ofContent_eq_mark_iff]

/-! ### What is said of a subagent -/

/-- The line of a nested event up to its preview. -/
def nestedStart (results : ResultIndex) (p : Placed) : String :=
  "- " ++ code p.event.timestamp ++ " " ++ title p.event
    ++ match results.resultOf p.event with
      | some result => " -> " ++ code (statusOr "done" result)
      | none => ""

/-- A preview at the end of a line. -/
def inlinePreview (content : Json) : String :=
  if (Preview.ofContent content).isEmpty then "" else ": " ++ Preview.ofContent content

theorem nestedLine_eq (results : ResultIndex) (p : Placed) :
    nestedLine results p = nestedStart results p ++ inlinePreview p.event.content := rfl

@[simp] theorem isLine_inlinePreview (content : Json) : IsLine (inlinePreview content) := by
  unfold inlinePreview
  split
  · decide
  · simp +decide

section Lists

variable {results : ResultIndex}
  (hresults : ∀ e r, results.resultOf e = some r → r.event.OnOneLine)
include hresults

theorem isLine_nestedStart {p : Placed} (hp : p.event.OnOneLine) :
    IsLine (nestedStart results p) := by
  have title := isLine_title hp
  unfold nestedStart
  cases hresult : results.resultOf p.event with
  | none => simp +decide [title]
  | some r =>
    have status : IsLine (statusOr "done" r) := isLine_statusOr (hresults _ _ hresult) (by decide)
    simp +decide [title, status]

theorem headings_nestedLine {p : Placed} (hp : p.event.OnOneLine) :
    headings (nestedLine results p) = [] := by
  rw [nestedLine_eq]
  exact headings_of_other (by simp [isLine_nestedStart hresults hp]) (by simp [nestedStart])

theorem headings_pollLine (p : Placed) : headings (pollLine results p) = [] := by
  have status : IsLine (resultStatus "unknown" (results.resultOf p.event)) :=
    isLine_resultStatus (hresults p.event) (by decide)
  exact headings_of_other (by simp +decide [pollLine, status]) (by simp [pollLine])

end Lists

/-- A list without headings of its own has one if there is something in it. -/
theorem headings_listLines (heading : String) (line : IsLine heading)
    (mark : heading.toList.head? = some '#') (lines : List String)
    (h : ∀ l ∈ lines, headings l = []) :
    (listLines heading lines).flatMap headings = if lines.isEmpty then [] else [heading] := by
  have empty : headings "" = [] := rfl
  unfold listLines
  split
  · rfl
  · simp [headings_of_mark line mark, empty, List.flatMap_eq_nil_iff.mpr h]

/-- The headings of the lists of a subagent, with the mark given. -/
def entryOutline (mark : String) (e : Entry) : List String :=
  (if e.nested.isEmpty then [] else [mark ++ " Nested Events"])
    ++ if e.polls.isEmpty then [] else [mark ++ " Polls"]

/-- A subagent by the tool id of its spawn. Every spawn has one. -/
def entryHeading (e : Entry) : String :=
  "Subagent " ++ code (e.spawn.event.metadata.toolId.getD "")

/-- The entry shows nothing that could be taken for another heading, and its spawn has a tool id. -/
structure Plain (e : Entry) : Prop where
  /-- The texts of its events end no line. -/
  events : ∀ p ∈ e.referenced, p.event.OnOneLine
  /-- Nor does the status of the last poll. -/
  lastPollStatus : ∀ status ∈ e.lastPollStatus, IsLine status
  /-- The spawn has a tool id. -/
  toolId : e.spawn.event.metadata.toolId?.isSome
  /-- The content of the spawn begins with no number sign. -/
  content : Preview.beginsWithMark e.spawn.event.content = false

namespace Plain

variable {e : Entry} (h : Plain e)
include h

theorem spawn : e.spawn.event.OnOneLine :=
  h.events _ (by simp [Entry.referenced])

theorem entryTitle_eq : entryTitle e = entryHeading e := by
  obtain ⟨id, hid⟩ := Option.isSome_iff_exists.mp h.toolId
  have same : e.spawn.event.metadata.toolId = some id := mem_of_nonEmpty hid
  rw [entryTitle, entryHeading, hid, same]
  rfl

theorem isLine_entryHeading : IsLine (entryHeading e) := by
  unfold entryHeading
  cases hid : e.spawn.event.metadata.toolId with
  | none => decide
  | some id =>
    have name : IsLine id := h.spawn.toolId id hid
    simp +decide [name]

/-- The headings of what is known of a subagent are those of its lists. -/
theorem headings_entryLines {results : ResultIndex}
    (hresults : ∀ e r, results.resultOf e = some r → r.event.OnOneLine) (mark : String)
    (line : IsLine mark) (hmark : mark.toList.head? = some '#') :
    (entryLines results mark e).flatMap headings = entryOutline mark e := by
  have background : (if e.spawn.event.metadata.runsInBackground then ["- Background: `true`"]
      else []).flatMap headings = [] := by
    split
    · rfl
    · rfl
  have result : headings ("- Result: " ++ code (resultStatus "done" e.result)) = [] := by
    have status : IsLine (resultStatus "done" e.result) := isLine_resultStatus
      (fun r hr => h.events r (by simp [Entry.referenced, Option.mem_def.mp hr])) (by decide)
    exact headings_of_other (by simp +decide [status]) (by simp)
  have last : (e.lastPollStatus.map fun status =>
      "- Last Poll Status: " ++ code status).toList.flatMap headings = [] :=
    headings_optional fun text htext =>
      headings_of_other (by simp +decide [h.lastPollStatus text htext]) (by simp)
  have nested := headings_listLines (mark ++ " Nested Events") (by simp +decide [line])
    (by simp [hmark]) (e.nested.map (nestedLine results)) fun l hl => by
      obtain ⟨p, hp, rfl⟩ := List.mem_map.mp hl
      exact headings_nestedLine hresults (h.events p (by simp [Entry.referenced, hp]))
  have polls := headings_listLines (mark ++ " Polls") (by simp +decide [line]) (by simp [hmark])
    (e.polls.map (pollLine results)) fun l hl => by
      obtain ⟨p, hp, rfl⟩ := List.mem_map.mp hl
      exact headings_pollLine hresults p
  unfold entryLines
  simp only [List.flatMap_append, headings_eventLines h.spawn, background, List.flatMap_singleton,
    result, last, headings_previewLines, h.content, nested, polls, entryOutline, List.isEmpty_map]
  rfl

end Plain

/-! ### Groups -/

/-- The headings of a group with its number. -/
def groupOutline (number : Nat) : Group → List String
  | .message event _ => ["## " ++ toString number ++ ". " ++ title event.event]
  | .subagent entry =>
    ("## " ++ toString number ++ ". " ++ entryHeading entry) :: entryOutline "###" entry
  | .parallel entries =>
    ("## " ++ toString number ++ ". Parallel Subagents (" ++ toString entries.length ++ ")")
      :: (entries.zipIdx 1).flatMap fun (entry, part) =>
        ("### " ++ toString number ++ "." ++ toString part ++ ". " ++ entryHeading entry)
          :: entryOutline "####" entry

/-- The headings of a report. -/
def outline (groups : List Group) : List String :=
  "# Agent Activity" :: (groups.zipIdx 1).flatMap fun (group, number) => groupOutline number group

/-- A heading with an empty line after it. -/
theorem headings_cons_empty {heading : String} (line : IsLine heading)
    (mark : heading.toList.head? = some '#') (rest : List String) :
    ([heading, ""] ++ rest).flatMap headings = heading :: rest.flatMap headings := by
  have empty : headings "" = [] := rfl
  simp [headings_of_mark line mark, empty]

theorem headings_message (results : ResultIndex) (number : Nat) {p : Placed}
    (line : p.event.OnOneLine) (content : Preview.beginsWithMark p.event.content = false)
    {result : Option Placed} (hresult : ∀ r ∈ result, r.event.OnOneLine) :
    (groupLines results number (.message p result)).flatMap headings =
      groupOutline number (.message p result) := by
  have status : (result.map fun r => "- Result: " ++ code (statusOr "done" r)).toList.flatMap
      headings = [] := headings_optional fun r hr => by
    have text : IsLine (statusOr "done" r) := isLine_statusOr (hresult r hr) (by decide)
    exact headings_of_other (by simp +decide [text]) (by simp)
  rw [groupLines, groupOutline, List.append_assoc, List.append_assoc,
    headings_cons_empty (by simp +decide [isLine_title line]) (by simp), List.flatMap_append,
    List.flatMap_append, headings_eventLines line, status, headings_previewLines, content]
  rfl

section Entries

variable {results : ResultIndex}
  (hresults : ∀ e r, results.resultOf e = some r → r.event.OnOneLine) (number : Nat)
include hresults

theorem headings_subagent {e : Entry} (h : Plain e) :
    (groupLines results number (.subagent e)).flatMap headings =
      groupOutline number (.subagent e) := by
  rw [groupLines, groupOutline, h.entryTitle_eq,
    headings_cons_empty (by simp +decide [h.isLine_entryHeading]) (by simp),
    h.headings_entryLines hresults "###" (by decide) rfl]

theorem headings_parallel {es : List Entry} (h : ∀ e ∈ es, Plain e) :
    (groupLines results number (.parallel es)).flatMap headings =
      groupOutline number (.parallel es) := by
  rw [groupLines, groupOutline, headings_cons_empty (by simp +decide) (by simp), List.flatMap_assoc]
  refine congrArg (_ :: ·) (List.flatMap_congr fun x hx => ?_)
  have plain := h x.1 (List.fst_mem_of_mem_zipIdx hx)
  show ([_, ""] ++ _).flatMap headings = _
  rw [plain.entryTitle_eq, headings_cons_empty (by simp +decide [plain.isLine_entryHeading]) (by simp),
    plain.headings_entryLines hresults "####" (by decide) rfl]

end Entries

/-! ### Reports -/

/-- The counts at the head of a report are no headings. -/
theorem headings_headLines {path : Path} (hpath : IsLine path.display) (eventCount : Nat)
    (g : Grouping) : (headLines path eventCount g).flatMap headings = ["# Agent Activity"] := by
  have source : headings ("- Source: " ++ code path.display) = [] :=
    headings_of_other (by simp +decide [hpath]) (by simp)
  have events : headings ("- Events: " ++ code (toString eventCount)) = [] :=
    headings_of_other (by simp +decide) (by simp)
  have groups (total messages subagents parallel : Nat) : headings ("- Groups: "
      ++ code (toString total) ++ " (messages: " ++ toString messages ++ ", subagents: "
      ++ toString subagents ++ ", parallel groups: " ++ toString parallel ++ ")") = [] :=
    headings_of_other (by simp +decide) (by simp)
  have subagents (total nested polls : Nat) : (if total = 0 then [] else ["- Subagents: "
      ++ code (toString total) ++ " (nested events: " ++ toString nested ++ ", polls: "
      ++ toString polls ++ ")"]).flatMap headings = [] := by
    split
    · rfl
    · simpa using headings_of_other (by simp +decide) (by simp)
  unfold headLines
  dsimp only
  simp only [List.flatMap_append, List.flatMap_cons, List.flatMap_nil, source, events, groups,
    subagents]
  rfl

/-- A report has the headings of its groups. -/
theorem headings_lines {path : Path} (hpath : IsLine path.display) (eventCount : Nat) {g : Grouping}
    (h : ∀ group ∈ g.groups, ∀ number,
      (groupLines g.results number group).flatMap headings = groupOutline number group) :
    (lines path eventCount g).flatMap headings = outline g.groups := by
  rw [lines, List.flatMap_append, headings_headLines hpath, outline]
  refine congrArg (_ :: ·) ?_
  split
  · case isTrue none =>
    rw [List.isEmpty_iff.mp none]
    rfl
  · rw [List.flatMap_assoc]
    exact List.flatMap_congr fun x hx => h x.1 (List.fst_mem_of_mem_zipIdx hx) x.2

end Markdown

theorem Group.referenced_of_mem_entries {g : Group} {e : Entry} (he : e ∈ g.entries) {p : Placed}
    (hp : p ∈ e.referenced) : p ∈ g.referenced := by
  cases g with
  | message event result => cases he
  | subagent entry =>
    obtain rfl := List.mem_singleton.mp he
    exact hp
  | parallel entries => exact List.mem_flatMap.mpr ⟨e, he, hp⟩

namespace Markdown

variable {events : List Event} {options : Options}

theorem onOneLine_of_resultOf (h : ∀ e ∈ events, e.OnOneLine) (e : Event) (r : Placed)
    (hr : (ResultIndex.ofPlaced (Placed.ofEvents events)).resultOf e = some r) :
    r.event.OnOneLine := by
  obtain ⟨-, _, -, last⟩ :=
    (ResultIndex.resultOf_eq_some_iff_isLast (Placed.inOrder_ofEvents events)).mp hr
  exact h _ (List.mem_of_getElem? (Placed.mem_ofEvents_iff.mp last.mem))

theorem plain_of_mem_entries (h : ∀ e ∈ events, e.OnOneLine)
    (contents : ∀ p ∈ (Grouping.ofEvents events options).groups.flatMap Group.heads,
      Preview.beginsWithMark p.event.content = false)
    {g : Group} (hg : g ∈ (Grouping.ofEvents events options).groups) {e : Entry}
    (he : e ∈ g.entries) : Plain e := by
  have fits := Assembly.fits_ofSession (Placed.inOrder_ofEvents events) options
  refine ⟨fun p hp => h _ (Grouping.event_mem_of_mem_referenced events options
    (List.mem_flatMap.mpr ⟨g, hg, Group.referenced_of_mem_entries he hp⟩)), ?_, ?_, ?_⟩
  · intro status hstatus
    obtain ⟨s, -, rfl⟩ := fits.exists_spawn_of_entry (List.mem_flatMap.mpr ⟨g, hg, he⟩)
    obtain ⟨poll, -, hresult⟩ := Option.bind_eq_some_iff.mp hstatus
    obtain ⟨result, hresult, hstatus⟩ := Option.bind_eq_some_iff.mp hresult
    exact (onOneLine_of_resultOf h _ _ hresult).status status hstatus
  · obtain ⟨s, hs, rfl⟩ := fits.exists_spawn_of_entry (List.mem_flatMap.mpr ⟨g, hg, he⟩)
    have id := (Spawn.ofPlaced?_eq_some_iff.mp (fits.discovered.call s hs)).2.1
    exact Option.isSome_iff_exists.mpr ⟨s.toolId, id⟩
  · refine contents _ (List.mem_flatMap.mpr ⟨g, hg, ?_⟩)
    rw [Group.heads_eq, List.mem_append]
    exact .inr (List.mem_map_of_mem he)

theorem headings_groupLines_of_mem (h : ∀ e ∈ events, e.OnOneLine)
    (contents : ∀ p ∈ (Grouping.ofEvents events options).groups.flatMap Group.heads,
      Preview.beginsWithMark p.event.content = false)
    {g : Group} (hg : g ∈ (Grouping.ofEvents events options).groups) (number : Nat) :
    (groupLines (Grouping.ofEvents events options).results number g).flatMap headings =
      groupOutline number g := by
  cases g with
  | message p r =>
    have shown {q : Placed} (hq : q ∈ (Group.message p r).referenced) : q.event.OnOneLine :=
      h _ (Grouping.event_mem_of_mem_referenced events options (List.mem_flatMap.mpr ⟨_, hg, hq⟩))
    exact headings_message _ number (shown (by simp [Group.referenced]))
      (contents p (List.mem_flatMap.mpr ⟨_, hg, List.mem_singleton_self p⟩))
      fun q hq => shown (by simp [Group.referenced, Option.mem_def.mp hq])
  | subagent e =>
    exact headings_subagent (onOneLine_of_resultOf h) number
      (plain_of_mem_entries h contents hg (List.mem_singleton_self e))
  | parallel es =>
    exact headings_parallel (onOneLine_of_resultOf h) number
      fun e he => plain_of_mem_entries h contents hg he

/-- **The headings of a report are the outline of its groups**, if no text that is shown as it is
ends a line and no content of a message or of a spawn begins with a number sign. -/
theorem headings_markdown (s : Session) (options : Options) (path : IsLine s.path.display)
    (events : ∀ e ∈ s.events, e.OnOneLine)
    (contents : ∀ p ∈ (Grouping.ofEvents s.events options).groups.flatMap Group.heads,
      Preview.beginsWithMark p.event.content = false) :
    headings (s.markdown options) = outline (Grouping.ofEvents s.events options).groups := by
  rw [Session.markdown, render, headings_unlines]
  exact headings_lines path s.events.length
    fun g hg number => headings_groupLines_of_mem events contents hg number

/-- A message, two subagents that run in parallel, one with an event under it and the other with a
poll, and a subagent by itself. Number signs in tool names, later in contents, or in contents of nested
events make no headings. -/
theorem headings_markdown_of_four_spawns :
    let call (millis : Int) (metadata : Metadata) (content : Json) : Event :=
      { kind := .toolCall, time := ⟨millis / 1000, 0⟩, content, metadata }
    let s : Session :=
      { path := .ofString "log.jsonl"
        events :=
          [{ kind := .message, time := ⟨0, 0⟩, content := .string "hello\n## there" },
            call 1000 { toolId := some "a", toolName := some "Task" } (.string "go # on"),
            call 1000 { toolId := some "b", toolName := some "Task", background := some true } .null,
            call 2000 { toolName := some "# x", parentId := some "a" } (.string "## forged"),
            call 2000 { toolName := some "TaskOutput", taskId := some "b" } .null,
            call 9000 { toolId := some "#c", toolName := some "Task" } (.object [])] }
    headings (s.markdown {}) =
      ["# Agent Activity", "## 1. Message", "## 2. Parallel Subagents (2)",
        "### 2.1. Subagent `a`", "#### Nested Events", "### 2.2. Subagent `b`", "#### Polls",
        "## 3. Subagent `#c`"] := by
  intro call s
  exact (headings_markdown s {} (by decide +kernel) (by decide +kernel) (by decide +kernel)).trans
    (by decide +kernel)

end Markdown

end AgentThreads
