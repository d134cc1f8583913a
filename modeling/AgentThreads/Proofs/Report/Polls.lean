import AgentThreads.Proofs.Report.Headings

/-!
# The status of the last poll in a report

A report shows the status of a subagent's last poll in two places: on a line of its own, and on the
last line of the list of polls. The line of its own has the status that the result of the poll
carries, as it is, and is left out if there is none. The list takes an empty status for none and has
a word for it. So the two places agree unless the result carries an empty status.
-/

namespace AgentThreads

/-! ### Two places for a status -/

/-- The status of the last poll of a subagent as a report shows it. -/
@[ext]
structure PollDisplay where
  /-- The status on a line of its own, if there is such a line. -/
  told : Option String
  /-- The status on the last line of the list of polls. -/
  listed : String
deriving DecidableEq

namespace PollDisplay

/-- The list has the status that is told. If none is told, it says that there is no result or that
the result has no status. -/
def Agrees (d : PollDisplay) : Prop :=
  match d.told with
  | some status => d.listed = status
  | none => d.listed = "pending" ∨ d.listed = "unknown"

instance (d : PollDisplay) : Decidable d.Agrees :=
  match d with
  | ⟨some status, listed⟩ => inferInstanceAs (Decidable (listed = status))
  | ⟨none, listed⟩ => inferInstanceAs (Decidable (listed = "pending" ∨ listed = "unknown"))

/-- What a report shows of a poll that has this result. -/
def ofResult (result : Option Placed) : PollDisplay where
  told := result.bind (·.event.metadata.status)
  listed := Markdown.resultStatus "unknown" result

/-- A poll whose result has a status. Only an empty one is listed as something else. -/
theorem ofResult_of_status {r : Placed} {status : String}
    (h : r.event.metadata.status = some status) :
    ofResult (some r) = ⟨some status, if status = "" then "unknown" else status⟩ := by
  have listed : Markdown.statusOr "unknown" r = if status = "" then "unknown" else status := by
    rw [Markdown.statusOr, Metadata.status?, h, nonEmpty, Option.filter_some]
    by_cases hempty : status = "" <;> simp [hempty]
  rw [← listed]
  exact congrArg (PollDisplay.mk · _) h

/-- A poll whose result has no status. -/
theorem ofResult_of_no_status {r : Placed} (h : r.event.metadata.status = none) :
    ofResult (some r) = ⟨none, "unknown"⟩ := by
  have listed : Markdown.statusOr "unknown" r = "unknown" := by
    rw [Markdown.statusOr, Metadata.status?, h]
    rfl
  rw [← listed]
  exact congrArg (PollDisplay.mk · _) h

/-- The two places disagree on an empty status only. -/
theorem agrees_ofResult_iff {result : Option Placed} :
    (ofResult result).Agrees ↔ ∀ r ∈ result, r.event.metadata.status ≠ some "" := by
  cases result with
  | none => simp [ofResult, Agrees, Markdown.resultStatus]
  | some r =>
    cases hstatus : r.event.metadata.status with
    | none => simp [ofResult_of_no_status hstatus, Agrees, hstatus]
    | some status =>
      rw [ofResult_of_status hstatus]
      by_cases hempty : status = "" <;> simp [Agrees, hstatus, hempty]

/-- Where they disagree, the status that is told is empty and the one in the list is a word. -/
theorem ofResult_of_not_agrees {result : Option Placed} (h : ¬(ofResult result).Agrees) :
    ofResult result = ⟨some "", "unknown"⟩ := by
  simp only [agrees_ofResult_iff, not_forall, not_not] at h
  obtain ⟨r, rfl, hstatus⟩ := h
  rw [ofResult_of_status hstatus, if_pos rfl]

end PollDisplay

/-! ### The lines of a subagent -/

namespace Markdown

/-- The lines of a subagent up to its result. -/
def entryHead (e : Entry) : List String :=
  eventLines e.spawn.event
    ++ (if e.spawn.event.metadata.runsInBackground then ["- Background: `true`"] else [])
    ++ ["- Result: " ++ code (resultStatus "done" e.result)]

/-- The line that tells the status of the last poll, if there is one to tell. -/
def toldLines (told : Option String) : List String :=
  (told.map fun status => "- Last Poll Status: " ++ code status).toList

/-- The line of a poll with its status. -/
def listedLine (poll : Placed) (status : String) : String :=
  "- " ++ code poll.event.timestamp ++ " " ++ code status

theorem code_inj {s t : String} : code s = code t ↔ s = t := by
  simp [code]

theorem listedLine_inj {poll : Placed} {s t : String} :
    listedLine poll s = listedLine poll t ↔ s = t := by
  simp [listedLine, code_inj]

/-- A line for a status is not empty, so what is told can be read off the lines. -/
theorem toldLines_append_cons_inj {told told' : Option String} {rest rest' : List String}
    (h : toldLines told ++ "" :: rest = toldLines told' ++ "" :: rest') : told = told' := by
  have line {status : String} : "- Last Poll Status: " ++ code status ≠ "" := by
    simp [String.ext_iff]
  cases told with
  | none =>
    cases told' with
    | none => rfl
    | some status => exact absurd (List.head_eq_of_cons_eq h).symm line
  | some status =>
    cases told' with
    | none => exact absurd (List.head_eq_of_cons_eq h) line
    | some status' =>
      rw [code_inj.mp ((String.append_right_inj _).mp (List.head_eq_of_cons_eq h))]

/-- There is an empty line above a preview, or in its place. -/
theorem exists_previewLines_eq_cons (e : Event) : ∃ rest, previewLines e = "" :: rest := by
  unfold previewLines
  dsimp only
  split
  · exact ⟨_, rfl⟩
  · exact ⟨_, rfl⟩

/-- The lines of a subagent with polls show the status of the last one. -/
structure ShowsPoll (results : ResultIndex) (mark : String) (e : Entry) (d : PollDisplay) :
    Prop where
  /-- After the result comes the line that tells the status, if there is one, and then an empty
  line. -/
  told : ∃ rest, entryLines results mark e = entryHead e ++ toldLines d.told ++ "" :: rest
  /-- The list of polls comes last, and its last line is that of the last poll. -/
  listed : ∃ poll ∈ e.polls.getLast?, ∃ before earlier, earlier.length + 1 = e.polls.length ∧
    entryLines results mark e = before ++ [mark ++ " Polls", ""] ++ earlier
      ++ [listedLine poll d.listed, ""]

section Display

variable {results : ResultIndex} {mark : String} {e : Entry}

/-- The lines show one status in each place. -/
theorem ShowsPoll.eq {d d' : PollDisplay} (h : ShowsPoll results mark e d)
    (h' : ShowsPoll results mark e d') : d = d' := by
  have told : d.told = d'.told := by
    obtain ⟨rest, hrest⟩ := h.told
    obtain ⟨rest', hrest'⟩ := h'.told
    have same := hrest.symm.trans hrest'
    rw [List.append_assoc, List.append_assoc, List.append_cancel_left_eq] at same
    exact toldLines_append_cons_inj same
  have listed : d.listed = d'.listed := by
    obtain ⟨poll, hpoll, before, earlier, -, hlines⟩ := h.listed
    obtain ⟨poll', hpoll', before', earlier', -, hlines'⟩ := h'.listed
    obtain rfl := Option.some_inj.mp (hpoll.symm.trans hpoll')
    have ends : [listedLine poll d.listed, ""] = [listedLine poll d'.listed, ""] :=
      List.append_inj_right' (hlines.symm.trans hlines') (by simp)
    exact listedLine_inj.mp (List.head_eq_of_cons_eq ends)
  exact PollDisplay.ext told listed

/-- The list of polls ends with the line of the last one. -/
theorem exists_listLines_polls (results : ResultIndex) (heading : String) {polls : List Placed}
    {poll : Placed} (hpoll : polls.getLast? = some poll) :
    ∃ earlier, earlier.length + 1 = polls.length ∧
      listLines heading (polls.map (pollLine results)) =
        [heading, ""] ++ earlier ++ [pollLine results poll, ""] := by
  obtain ⟨front, hfront⟩ := List.getLast?_eq_some_iff.mp hpoll
  refine ⟨front.map (pollLine results), by simp [hfront], ?_⟩
  simp [hfront, listLines]

/-- The lines show what the last poll's result says, if the entry has the status of this result. -/
theorem showsPoll_ofResult {poll : Placed} (hpoll : e.polls.getLast? = some poll)
    (hstatus : e.lastPollStatus =
      (results.resultOf poll.event).bind (·.event.metadata.status)) :
    ShowsPoll results mark e (.ofResult (results.resultOf poll.event)) := by
  constructor
  · obtain ⟨rest, hrest⟩ := exists_previewLines_eq_cons e.spawn.event
    unfold entryLines
    rw [hrest, hstatus]
    simp only [entryHead, toldLines, PollDisplay.ofResult, List.append_assoc, List.cons_append]
    exact ⟨_, rfl⟩
  · obtain ⟨earlier, hlength, hlist⟩ :=
      exists_listLines_polls results (mark ++ " Polls") hpoll
    obtain ⟨front, hfront⟩ : ∃ front, entryLines results mark e =
        front ++ listLines (mark ++ " Polls") (e.polls.map (pollLine results)) := ⟨_, rfl⟩
    refine ⟨poll, hpoll, front, earlier, hlength, ?_⟩
    rw [hfront, hlist, List.append_assoc, List.append_assoc, List.append_assoc]
    rfl

end Display

/-! ### Reports -/

theorem exists_mem_zipIdx {α : Type} {l : List α} {x : α} (h : x ∈ l) (k : Nat) :
    ∃ n, (x, n) ∈ l.zipIdx k := by
  rw [← List.zipIdx_map_fst k l, List.mem_map] at h
  obtain ⟨⟨_, n⟩, hn, rfl⟩ := h
  exact ⟨n, hn⟩

theorem infix_flatMap {α : Type} {l : List α} {x : α} (h : x ∈ l) (f : α → List String) :
    f x <:+: l.flatMap f :=
  List.infix_of_mem_flatten (List.mem_map_of_mem h)

/-- The lines of a subagent stand together in the section of its group. -/
theorem exists_entryLines_infix_groupLines (results : ResultIndex) (number : Nat) {g : Group}
    {e : Entry} (he : e ∈ g.entries) :
    ∃ mark, entryLines results mark e <:+: groupLines results number g := by
  cases g with
  | message event result => cases he
  | subagent entry =>
    obtain rfl := List.mem_singleton.mp he
    rw [groupLines]
    exact ⟨"###", (List.suffix_append _ _).isInfix⟩
  | parallel entries =>
    obtain ⟨part, hpart⟩ := exists_mem_zipIdx (show e ∈ entries from he) 1
    rw [groupLines]
    refine ⟨"####", List.IsInfix.trans ?_ (List.suffix_append _ _).isInfix⟩
    refine List.IsInfix.trans ?_ (infix_flatMap hpart _)
    exact (List.suffix_append _ _).isInfix

/-- The lines of a subagent stand together in a report. -/
theorem exists_entryLines_infix_lines (path : Path) (eventCount : Nat) {g : Grouping} {e : Entry}
    (he : e ∈ g.groups.flatMap Group.entries) :
    ∃ mark, entryLines g.results mark e <:+: lines path eventCount g := by
  obtain ⟨group, hg, he⟩ := List.mem_flatMap.mp he
  obtain ⟨number, hnumber⟩ := exists_mem_zipIdx hg 1
  obtain ⟨mark, hmark⟩ := exists_entryLines_infix_groupLines g.results number he
  have some_group : ¬g.groups.isEmpty := by
    rw [List.isEmpty_iff]
    exact List.ne_nil_of_mem hg
  rw [lines, if_neg some_group]
  refine ⟨mark, List.IsInfix.trans ?_ (List.suffix_append _ _).isInfix⟩
  refine List.IsInfix.trans ?_ (infix_flatMap hnumber _)
  exact hmark

end Markdown

/-- A poll is a call, and the last poll status is that of the result which the index has for the last
poll. -/
theorem Assembly.Fits.last_poll {events : List Placed} {options : Options} {a : Assembly}
    (h : a.Fits options events) {e : Entry} (he : e ∈ a.groups.flatMap Group.entries)
    {poll : Placed} (hpoll : e.polls.getLast? = some poll) :
    poll.event.isCall ∧
      e.lastPollStatus = (a.results.resultOf poll.event).bind (·.event.metadata.status) := by
  obtain ⟨s, hs, rfl⟩ := h.exists_spawn_of_entry he
  have role := ((h.mem_polls_iff hs).mp (List.mem_of_getLast? hpoll)).2
  have call := (h.discovered.pollOf?_eq_some_iff.mp (Role.ofPlaced_eq_poll_iff.mp role).2.2).1
  have status : (a.entry s).lastPollStatus = (a.entry s).polls.getLast?.bind fun poll =>
      (a.results.resultOf poll.event).bind (·.event.metadata.status) := rfl
  rw [status, hpoll]
  exact ⟨(Bool.and_eq_true_iff.mp call).1, rfl⟩

/-- **The status of the last poll**: the lines of a subagent with polls stand in the report and show
one status on the line of its own and one on the last line of the list of polls. These agree if and
only if the last result for the tool id of the last poll, if there is any, does not carry an empty
status. If it does, the line of its own has the empty status and the list has `unknown`. -/
theorem Session.last_poll_displays_agree_iff (s : Session) (options : Options) {e : Entry}
    (he : e ∈ (Grouping.ofEvents s.events options).groups.flatMap Group.entries) {poll : Placed}
    (hpoll : e.polls.getLast? = some poll) :
    let g := Grouping.ofEvents s.events options
    ∃ mark before after d,
      s.markdown options =
        Markdown.unlines (before ++ Markdown.entryLines g.results mark e ++ after) ∧
      (∀ d', Markdown.ShowsPoll g.results mark e d' ↔ d' = d) ∧
      (d.Agrees ↔ ∀ id r, poll.event.metadata.toolId? = some id →
        ResultIndex.IsLast (Placed.ofEvents s.events) id r → r.event.metadata.status ≠ some "") ∧
      (¬d.Agrees → d = ⟨some "", "unknown"⟩) := by
  intro g
  have ho : Placed.InOrder (Placed.ofEvents s.events) := Placed.inOrder_ofEvents s.events
  obtain ⟨call, status⟩ := (Assembly.fits_ofSession ho options).last_poll he hpoll
  obtain ⟨mark, before, after, report⟩ :=
    Markdown.exists_entryLines_infix_lines s.path s.events.length he
  have shown : Markdown.ShowsPoll g.results mark e (.ofResult (g.results.resultOf poll.event)) :=
    Markdown.showsPoll_ofResult hpoll status
  refine ⟨mark, before, after, _, congrArg Markdown.unlines report.symm,
    fun d' => ⟨fun h => h.eq shown, fun h => h ▸ shown⟩, ?_, PollDisplay.ofResult_of_not_agrees⟩
  rw [PollDisplay.agrees_ofResult_iff]
  have found (r : Placed) : r ∈ g.results.resultOf poll.event ↔
      ∃ id, poll.event.metadata.toolId? = some id ∧
        ResultIndex.IsLast (Placed.ofEvents s.events) id r := by
    refine (ResultIndex.resultOf_eq_some_iff_isLast ho).trans ?_
    simp [call]
  simp only [found]
  constructor
  · exact fun h id r hid last => h r ⟨id, hid, last⟩
  · rintro h r ⟨id, hid, last⟩
    exact h id r hid last

/-- Two polls of one subagent, the first with an empty status, the second with two results of which
the earlier one has an empty status: the last result of the last poll counts. -/
theorem Session.last_poll_displays_agree_of_later_results :
    let call (metadata : Metadata) : Event := { kind := .toolCall, time := ⟨0, 0⟩, metadata }
    let poll (id : String) : Event :=
      call { toolId := some id, toolName := some "TaskOutput", taskId := some "a" }
    let result (id status : String) : Event :=
      { kind := .toolResult, time := ⟨0, 0⟩,
        metadata := { toolId := some id, status := some status } }
    let s : Session :=
      { path := .ofString "log.jsonl"
        events :=
          [call { toolId := some "a", toolName := some "Task", background := some true },
            poll "p", result "p" "", poll "q", result "q" "", result "q" "completed"] }
    let g := Grouping.ofEvents s.events {}
    ∃ e ∈ g.groups.flatMap Group.entries, e.polls.getLast? = some ⟨3, poll "q"⟩ ∧
      ∃ mark before after d,
        s.markdown {} =
          Markdown.unlines (before ++ Markdown.entryLines g.results mark e ++ after) ∧
        Markdown.ShowsPoll g.results mark e d ∧ d.Agrees := by
  intro call poll result s g
  let e : Entry :=
    { spawn := ⟨0, call { toolId := some "a", toolName := some "Task", background := some true }⟩
      result := none
      nested := []
      polls := [⟨1, poll "p"⟩, ⟨3, poll "q"⟩]
      lastPollStatus := some "completed" }
  have entries : g.groups.flatMap Group.entries = [e] := by cbv
  have he : e ∈ g.groups.flatMap Group.entries := entries ▸ List.mem_singleton_self e
  have hpoll : e.polls.getLast? = some ⟨3, poll "q"⟩ := rfl
  obtain ⟨mark, before, after, d, report, shown, agrees, -⟩ :=
    last_poll_displays_agree_iff s {} he hpoll
  refine ⟨e, he, hpoll, mark, before, after, d, report, (shown d).mpr rfl, agrees.mpr ?_⟩
  rintro id r ⟨⟩ last
  have statuses : ∀ r ∈ Placed.ofEvents s.events, ResultIndex.answers "q" r →
      (∀ p ∈ Placed.ofEvents s.events, ResultIndex.answers "q" p → p.position ≤ r.position) →
      r.event.metadata.status ≠ some "" := by
    decide +kernel
  exact statuses r last.mem last.answers last.last

/-- A poll whose result has an empty status: the report tells the empty status and lists the poll as
unknown. -/
theorem Session.last_poll_displays_disagree :
    let call (metadata : Metadata) : Event := { kind := .toolCall, time := ⟨0, 0⟩, metadata }
    let result : Event :=
      { kind := .toolResult, time := ⟨0, 0⟩,
        metadata := { toolId := some "p", status := some "" } }
    let s : Session :=
      { path := .ofString "session.jsonl"
        events :=
          [call { toolId := some "a", toolName := some "Task", background := some true },
            call { toolId := some "p", toolName := some "TaskOutput", taskId := some "a" }, result] }
    let g := Grouping.ofEvents s.events {}
    let d : PollDisplay := ⟨some "", "unknown"⟩
    ∃ e ∈ g.groups.flatMap Group.entries,
      s.markdown {} = Markdown.unlines (Markdown.headLines s.path 3 g
        ++ ["## 1. Subagent `a`", ""] ++ Markdown.entryLines g.results "###" e) ∧
      Markdown.entryLines g.results "###" e =
        ["- Time: `1970-01-01T00:00:00.000Z` (`tool_call`)", "- Tool Id: `a`",
          "- Background: `true`", "- Result: `pending`", "- Last Poll Status: ``", "",
          "### Polls", "", "- `1970-01-01T00:00:00.000Z` `unknown`", ""] ∧
      Markdown.ShowsPoll g.results "###" e d ∧ ¬d.Agrees := by
  intro call result s g d
  let poll : Placed :=
    ⟨1, call { toolId := some "p", toolName := some "TaskOutput", taskId := some "a" }⟩
  let e : Entry :=
    { spawn := ⟨0, call { toolId := some "a", toolName := some "Task", background := some true }⟩
      result := none
      nested := []
      polls := [poll]
      lastPollStatus := some "" }
  have groups : g.groups = [.subagent e] := by cbv
  have found : g.results.resultOf poll.event = some ⟨2, result⟩ := by cbv
  have shown : Markdown.ShowsPoll g.results "###" e (.ofResult (g.results.resultOf poll.event)) :=
    Markdown.showsPoll_ofResult rfl (by rw [found]; rfl)
  rw [found, PollDisplay.ofResult_of_status rfl, if_pos rfl] at shown
  refine ⟨e, ?_, ?_, by decide +kernel, shown, by decide +kernel⟩
  · rw [groups]
    exact List.mem_singleton_self e
  · decide +kernel

end AgentThreads
