import AgentThreads.Command.Outcome
import AgentThreads.Proofs.Files.Loading
import AgentThreads.Proofs.Report.Sessions
import Mathlib

/-!
# The outcome of a report

A run that is asked for a report ends in one of two ways. Either the settings, the sessions or, for the
raw report of a directory, the paths of the sessions stop it, and then it prints nothing and says what
stopped it first. Or nothing does, and then it prints the whole report. A failure in a late session
leaves nothing of the sessions before it, since the report is printed only when all of it is there.
-/

namespace AgentThreads

/-! ### Loading -/

/-- A path that names no directory leads to one session. -/
theorem Files.load_of_not_directory {view : View} {path : Path} {sessions : List Session}
    (h : Command.isDirectory view path = false) (hload : load view path = .ok sessions) :
    ∃ session, sessions = [session] := by
  obtain ⟨node, htarget, -, hall⟩ := load_eq_ok_iff.mp hload
  have hnode : node.isDirectory = false := by
    rw [Command.isDirectory, htarget] at h
    cases node with
    | file | link => rfl
    | directory entries => cases h
  rw [filesToRead_of_not_directory hnode, List.forall₂_cons_left_iff] at hall
  obtain ⟨session, _, -, hrest, rfl⟩ := hall
  exact ⟨session, by rw [List.forall₂_nil_left_iff.mp hrest]⟩

/-! ### Texts one after the other -/

/-- Texts with a mark between two: the mark stands before each but the first. -/
theorem intercalate_cons (mark first : String) (rest : List String) :
    mark.intercalate (first :: rest) = first ++ String.join (rest.map (mark ++ ·)) := by
  induction rest generalizing first with
  | nil => simp
  | cons second rest ih =>
    rw [String.intercalate_cons_cons, ih, List.map_cons, String.join_cons, String.append_assoc,
      String.append_assoc]

namespace Command

variable {view : Files.View} {env : Settings.Environment} {request : Request}

/-! ### What stops a report, and what it is -/

/-- What stops a report first. -/
inductive Stops (view : Files.View) (env : Settings.Environment) (request : Request) :
    Failure → Prop where
  /-- A setting has no value that it can have. -/
  | settings {failure : Failure}
    (hoptions : Settings.resolve env request.overrides = .error failure) :
    Stops view env request failure
  /-- The settings are fine, but not all sessions can be loaded. -/
  | loading {options : Options} {failure : Failure}
    (hoptions : Settings.resolve env request.overrides = .ok options)
    (hload : Files.load view request.path = .error failure) : Stops view env request failure
  /-- The sessions of a directory are loaded, but not all their paths can stand in the raw report. -/
  | path {options : Options} {sessions : List Session} {s : Session}
    (hoptions : Settings.resolve env request.overrides = .ok options)
    (hload : Files.load view request.path = .ok sessions) (hraw : request.raw)
    (hdirectory : isDirectory view request.path) (hs : s ∈ sessions)
    (hpath : s.path.toText? = none) : Stops view env request .pathNotText

/-- What the whole report is. -/
inductive Gives (view : Files.View) (env : Settings.Environment) (request : Request) :
    String → Prop where
  /-- The markdown reports of the sessions, each but the first after an empty line. -/
  | markdown {options : Options} {first : Session} {rest : List Session}
    (hoptions : Settings.resolve env request.overrides = .ok options)
    (hload : Files.load view request.path = .ok (first :: rest)) (hraw : request.raw = false) :
    Gives view env request
      (first.markdown options ++ String.join (rest.map fun s => "\n" ++ s.markdown options))
  /-- The raw report of the session in a file. -/
  | rawFile {options : Options} {session : Session}
    (hoptions : Settings.resolve env request.overrides = .ok options)
    (hload : Files.load view request.path = .ok [session]) (hraw : request.raw)
    (hdirectory : isDirectory view request.path = false) :
    Gives view env request (session.rawJson options)
  /-- The raw report of all sessions of a directory. -/
  | rawDirectory {options : Options} {sessions : List Session} {text : String}
    (hoptions : Settings.resolve env request.overrides = .ok options)
    (hload : Files.load view request.path = .ok sessions) (hraw : request.raw)
    (hdirectory : isDirectory view request.path)
    (htext : Session.rawJsonOfAll sessions options = .ok text) : Gives view env request text

/-! ### The report -/

/-- The raw report of a directory is that of all its sessions, even if there is only one. -/
theorem rawReport_of_directory {path : Path} (h : isDirectory view path) (sessions : List Session)
    (options : Options) :
    rawReport view path sessions options = Session.rawJsonOfAll sessions options := by
  unfold rawReport
  rw [h]
  split
  · contradiction
  · rfl

theorem Stops.reportFor {failure : Failure} (h : Stops view env request failure) :
    reportFor view env request = .error failure := by
  unfold Command.reportFor
  cases h with
  | settings hoptions => rw [hoptions, error_bind]
  | loading hoptions hload => rw [hoptions, ok_bind, hload, error_bind]
  | path hoptions hload hraw hdirectory hs hpath =>
    rw [hoptions, ok_bind, hload, ok_bind, if_pos hraw, rawReport_of_directory hdirectory]
    exact Session.rawJsonOfAll_eq_error_iff.mpr ⟨rfl, _, hs, hpath⟩

theorem Gives.reportFor {text : String} (h : Gives view env request text) :
    reportFor view env request = .ok text := by
  unfold Command.reportFor
  cases h with
  | markdown hoptions hload hraw =>
    rw [hoptions, ok_bind, hload, ok_bind, if_neg (by simp [hraw]), markdownReport, List.map_cons,
      intercalate_cons, List.map_map]
    rfl
  | rawFile hoptions hload hraw hdirectory =>
    rw [hoptions, ok_bind, hload, ok_bind, if_pos hraw]
    unfold rawReport
    rw [hdirectory]
  | rawDirectory hoptions hload hraw hdirectory htext =>
    rw [hoptions, ok_bind, hload, ok_bind, if_pos hraw, rawReport_of_directory hdirectory, htext]

/-- Something stops a report, or there is one. -/
theorem stops_or_gives (view : Files.View) (env : Settings.Environment) (request : Request) :
    (∃ failure, Stops view env request failure) ∨ ∃ text, Gives view env request text := by
  cases hoptions : Settings.resolve env request.overrides with
  | error failure => exact .inl ⟨failure, .settings hoptions⟩
  | ok options =>
    cases hload : Files.load view request.path with
    | error failure => exact .inl ⟨failure, .loading hoptions hload⟩
    | ok sessions =>
      cases hraw : request.raw with
      | false =>
        obtain ⟨first, rest, rfl⟩ := List.exists_cons_of_ne_nil (Files.ne_nil_of_load hload)
        exact .inr ⟨_, .markdown hoptions hload hraw⟩
      | true =>
        cases hdirectory : isDirectory view request.path with
        | false =>
          obtain ⟨session, rfl⟩ := Files.load_of_not_directory hdirectory hload
          exact .inr ⟨_, .rawFile hoptions hload hraw hdirectory⟩
        | true =>
          cases htext : Session.rawJsonOfAll sessions options with
          | error failure =>
            obtain ⟨rfl, s, hs, hpath⟩ := Session.rawJsonOfAll_eq_error_iff.mp htext
            exact .inl ⟨_, .path hoptions hload hraw hdirectory hs hpath⟩
          | ok text => exact .inr ⟨text, .rawDirectory hoptions hload hraw hdirectory htext⟩

/-! ### The run -/

theorem run_of_stops {args : List Argument} (h : Intent.ofArguments args = .report request)
    {failure : Failure} (hstops : Stops view env request failure) :
    run view env args = ⟨1, "", "error: " ++ failure.message⟩ := by
  rw [run, h, Intent.run, hstops.reportFor]

theorem run_of_gives {args : List Argument} (h : Intent.ofArguments args = .report request)
    {text : String} (hgives : Gives view env request text) :
    run view env args = ⟨0, text, ""⟩ := by
  rw [run, h, Intent.run, hgives.reportFor]

/-- **All or nothing**: a run that is asked for a report is stopped or gives a whole report. If it is
stopped, it prints nothing, says what stopped it first, and its status is 1. If it gives a report, it
prints the report, and its status is 0. So the status is 1 if and only if something stops it. -/
theorem run_all_or_nothing (view : Files.View) (env : Settings.Environment) (args : List Argument)
    (request : Request) (h : Intent.ofArguments args = .report request) :
    ((∃ failure, Stops view env request failure) ∨ ∃ text, Gives view env request text) ∧
      (∀ failure, Stops view env request failure →
        run view env args = ⟨1, "", "error: " ++ failure.message⟩) ∧
      (∀ text, Gives view env request text → run view env args = ⟨0, text, ""⟩) ∧
      ((run view env args).status = 1 ↔ ∃ failure, Stops view env request failure) := by
  have either := stops_or_gives view env request
  refine ⟨either, fun _ => run_of_stops h, fun _ => run_of_gives h, ?_⟩
  constructor
  · intro hstatus
    refine either.resolve_right ?_
    rintro ⟨text, hgives⟩
    rw [run_of_gives h hgives] at hstatus
    cases hstatus
  · rintro ⟨failure, hstops⟩
    rw [run_of_stops h hstops]

/-- The raw report of a directory with one session, which holds no events, is an array. -/
theorem run_all_or_nothing_single_session :
    let root : Files.Node :=
      .directory [(bytes "d", .directory [(bytes "a.jsonl", .file "\n".toByteArray)])]
    let request : Request := ⟨Path.ofString "d", true, {}⟩
    let args := [bytes "d", bytes "--raw"]
    Intent.ofArguments args = .report request ∧
      run root.view (fun _ => none) args =
        ⟨0, Markdown.unlines ["[", "  \x7b", "    \"path\": \"d/a.jsonl\",", "    \"groups\": [],",
          "    \"results\": \x7b\x7d", "  \x7d", "]"], ""⟩ := by
  intro root request args
  have asked : Intent.ofArguments args = .report request := rfl
  have loaded : Files.load root.view request.path = .ok [⟨Path.ofString "d/a.jsonl", []⟩] := by
    cbv
  have directory : isDirectory root.view request.path := by cbv
  have text : Session.rawJsonOfAll [⟨Path.ofString "d/a.jsonl", []⟩] {} = .ok _ := rfl
  have gives : Gives root.view (fun _ => none) request _ :=
    .rawDirectory rfl loaded rfl directory text
  exact ⟨asked, (run_all_or_nothing root.view _ args request asked).2.2.1 _ gives⟩

set_option maxRecDepth 20000 in
/-- Below a directory, a file with a message and one with a spawn call give the reports of two
sessions, with an empty line between them. If the second file holds an object that is no event, the
run is stopped, and nothing of the first session is printed. -/
example :
    let root (text : String) : Files.Node := .directory [(bytes "d", .directory
      [(bytes "a.jsonl", .file
          "\x7b\"kind\":\"message\",\"timestamp\":0,\"content\":\"hi\"\x7d\n".toByteArray),
        (bytes "b.jsonl", .file text.toByteArray)])]
    let spawn := "\x7b\"kind\":\"tool_call\",\"timestamp\":1000,\"metadata\":"
      ++ "\x7b\"toolId\":\"t\",\"toolName\":\"Task\"\x7d\x7d\n"
    let firstReport := ["# Agent Activity", "", "- Source: `d/a.jsonl`", "- Events: `1`",
      "- Groups: `1` (messages: 1, subagents: 0, parallel groups: 0)", "",
      "## 1. Message", "", "- Time: `1970-01-01T00:00:00.000Z` (`message`)", "", "hi", ""]
    let secondReport := ["# Agent Activity", "", "- Source: `d/b.jsonl`", "- Events: `1`",
      "- Groups: `1` (messages: 0, subagents: 1, parallel groups: 0)",
      "- Subagents: `1` (nested events: 0, polls: 0)", "",
      "## 1. Subagent `t`", "", "- Time: `1970-01-01T00:00:01.000Z` (`tool_call`)",
      "- Tool Id: `t`", "- Result: `pending`", ""]
    run (root spawn).view (fun _ => none) [bytes "d"] =
        ⟨0, Markdown.unlines (firstReport ++ "" :: secondReport), ""⟩ ∧
      run (root "\x7b\x7d\n").view (fun _ => none) [bytes "d"] =
        ⟨1, "", "error: invalid json line in d/b.jsonl at line 1: missing field `kind`"⟩ := by
  intro root spawn firstReport secondReport
  let request : Request := ⟨Path.ofString "d", false, {}⟩
  let first : Session :=
    ⟨Path.ofString "d/a.jsonl", [{ kind := .message, time := ⟨0, 0⟩, content := .string "hi" }]⟩
  let second : Session :=
    ⟨Path.ofString "d/b.jsonl",
      [{ kind := .toolCall, time := ⟨1, 0⟩
         metadata := { toolId := some "t", toolName := some "Task" } }]⟩
  have asked : Intent.ofArguments [bytes "d"] = .report request := rfl
  have options : Settings.resolve (fun _ => none) request.overrides = .ok {} := rfl
  -- Whatever the second file holds, both files are read, and the first one gives its session.
  have directory (text : String) :
      ∃ entries, (root text).view.target request.path = .ok (.directory entries) := ⟨_, by cbv⟩
  have files (text : String) :
      Files.discover (root text).view request.path = [first.path, second.path] := by cbv
  have accepted (text : String) :
      Files.readSession (root text).view first.path = .ok first := by cbv
  constructor
  · obtain ⟨entries, target⟩ := directory spawn
    have next : Files.readSession (root spawn).view second.path = .ok second := by cbv
    have loaded : Files.load (root spawn).view request.path = .ok [first, second] := by
      refine Files.load_eq_ok_iff.mpr ⟨.directory entries, target, ?_⟩
      rw [Files.filesToRead_directory, files]
      exact ⟨List.cons_ne_nil _ _, .cons (accepted spawn) (.cons next .nil)⟩
    have shown : first.markdown {} = Markdown.unlines firstReport := by decide +kernel
    have shownToo : second.markdown {} = Markdown.unlines secondReport := by cbv
    rw [run_of_gives asked (.markdown options loaded rfl), shown, List.map_singleton, shownToo]
    rfl
  · obtain ⟨entries, target⟩ := directory "\x7b\x7d\n"
    let failure : Failure := .badLine second.path 1 (.missingField .kind)
    have rejected : Files.readSession (root "\x7b\x7d\n").view second.path = .error failure := by
      cbv
    have read : Files.filesToRead (root "\x7b\x7d\n").view request.path (.directory entries) =
      [first.path] ++ [second.path] := files _
    have before : ∀ file ∈ [first.path], ∃ session,
        Files.readSession (root "\x7b\x7d\n").view file = .ok session :=
      List.forall_mem_singleton.mpr ⟨first, accepted _⟩
    have stopped : Files.load (root "\x7b\x7d\n").view request.path = .error failure :=
      Files.load_eq_error_iff.mpr (.rejected target read before rejected)
    have said : failure.message =
        "invalid json line in d/b.jsonl at line 1: missing field `kind`" := by decide +kernel
    rw [run_of_stops asked (.loading options stopped), said]
    rfl

end Command

end AgentThreads
