import AgentThreads.Files.Loading
import AgentThreads.Proofs.Files.Discovery
import AgentThreads.Proofs.Outcomes
import AgentThreads.Proofs.Session.Lines
import Mathlib

/-!
# Sessions that are loaded

Loading reads the files that a path leads to, one after another: those that are discovered below a
directory, or else the one that the path names. It gives the sessions of all of them, or it fails as the
first file that is rejected; what comes after this file does not matter. A file that is discovered is
accepted if its path is not too long and its content is a text, and not empty, that can be read.
-/

namespace AgentThreads.Files

/-! ### One file -/

/-- The content of a file at a path gives a session. -/
structure HoldsSession (path : Path) (content : ByteArray) (session : Session) : Prop where
  /-- There is some content. -/
  not_empty : content.isEmpty = false
  /-- It is the encoding of a text that can be read. -/
  read : ∃ text, String.fromUTF8? content = some text ∧ Session.ofText path text = .ok session

section View

variable {view : View} {path : Path}

theorem readText_eq_ok_iff {text : String} : readText view path = .ok text ↔
    ∃ content, view.target path = .ok (.file content) ∧ content.isEmpty = false ∧
      String.fromUTF8? content = some text := by
  unfold readText
  split
  · case _ fault htarget => simp [htarget]
  · case _ content htarget =>
    cases hempty : content.isEmpty with
    | true => simp [htarget, hempty]
    | false => cases htext : String.fromUTF8? content <;> simp [htarget, hempty, htext]
  · case _ node hfile htarget =>
    constructor
    · intro h
      cases h
    · rintro ⟨content, hcontent, -⟩
      rw [htarget] at hcontent
      cases hcontent
      exact absurd rfl (hfile content)

theorem readSession_eq_ok_iff {session : Session} : readSession view path = .ok session ↔
    ∃ content, view.target path = .ok (.file content) ∧ HoldsSession path content session := by
  rw [readSession, bind_eq_ok_iff]
  constructor
  · rintro ⟨text, htext, hsession⟩
    obtain ⟨content, htarget, hempty, hcontent⟩ := readText_eq_ok_iff.mp htext
    exact ⟨content, htarget, hempty, text, hcontent, hsession⟩
  · rintro ⟨content, htarget, hempty, text, hcontent, hsession⟩
    exact ⟨text, readText_eq_ok_iff.mpr ⟨content, htarget, hempty, hcontent⟩, hsession⟩

/-! ### All files -/

/-- The files that are read where a path names a node. -/
def filesToRead (view : View) (path : Path) (node : Node) : List Path :=
  if node.isDirectory then discover view path else [path]

theorem filesToRead_directory (view : View) (path : Path) (entries : List (Name × Node)) :
    filesToRead view path (.directory entries) = discover view path := rfl

theorem filesToRead_of_not_directory {node : Node} (h : node.isDirectory = false) :
    filesToRead view path node = [path] :=
  if_neg (by simp [h])

theorem filesToRead_eq_nil_iff {node : Node} :
    filesToRead view path node = [] ↔ node.isDirectory ∧ discover view path = [] := by
  unfold filesToRead
  split <;> simp [*]

theorem load_eq {node : Node} (h : view.target path = .ok node) : load view path =
    if filesToRead view path node = [] then .error (.noSessionFiles path)
    else (filesToRead view path node).mapM (readSession view) := by
  unfold load
  rw [h]
  cases node with
  | file | link =>
    cases hsession : readSession view path <;> simp [filesToRead, Node.isDirectory, hsession]
  | directory entries =>
    rw [filesToRead_directory]
    cases discover view path <;> rfl

theorem load_eq_ok_iff {sessions : List Session} : load view path = .ok sessions ↔
    ∃ node, view.target path = .ok node ∧ filesToRead view path node ≠ [] ∧
      List.Forall₂ (fun file session => readSession view file = .ok session)
        (filesToRead view path node) sessions := by
  cases htarget : view.target path with
  | error fault => simp [load, htarget]
  | ok node =>
    rw [load_eq htarget]
    by_cases hfiles : filesToRead view path node = []
    · simp [hfiles]
    · simp [hfiles, mapM_eq_ok_iff]

/-- Loading gives a session, or it fails. -/
theorem ne_nil_of_load {sessions : List Session} (h : load view path = .ok sessions) :
    sessions ≠ [] := by
  obtain ⟨node, -, hfiles, hall⟩ := load_eq_ok_iff.mp h
  rintro rfl
  exact hfiles (List.forall₂_nil_right_iff.mp hall)

/-- Loading gives sessions if there are files to read and all of them are accepted. -/
theorem exists_load_iff : (∃ sessions, load view path = .ok sessions) ↔
    ∃ node, view.target path = .ok node ∧ filesToRead view path node ≠ [] ∧
      ∀ file ∈ filesToRead view path node, ∃ session, readSession view file = .ok session := by
  simp only [load_eq_ok_iff, ← mapM_eq_ok_iff, ← exists_mapM_eq_ok_iff]
  constructor
  · rintro ⟨sessions, node, htarget, hfiles, hall⟩
    exact ⟨node, htarget, hfiles, sessions, hall⟩
  · rintro ⟨node, htarget, hfiles, sessions, hall⟩
    exact ⟨sessions, node, htarget, hfiles, hall⟩

/-- Why loading gives no sessions. -/
inductive Refuses (view : View) (path : Path) : Failure → Prop where
  /-- The path leads nowhere. -/
  | unreachable {fault : Fault} (htarget : view.target path = .error fault) :
    Refuses view path (.unreadable path fault)
  /-- The path leads to a directory with no session files. -/
  | noSessionFiles {entries : List (Name × Node)}
    (htarget : view.target path = .ok (.directory entries)) (hfiles : discover view path = []) :
    Refuses view path (.noSessionFiles path)
  /-- A file is rejected, and the files before it are not. -/
  | rejected {node : Node} {earlier later : List Path} {file : Path} {failure : Failure}
    (htarget : view.target path = .ok node)
    (hfiles : filesToRead view path node = earlier ++ file :: later)
    (hearlier : ∀ e ∈ earlier, ∃ session, readSession view e = .ok session)
    (hfile : readSession view file = .error failure) : Refuses view path failure

theorem load_eq_error_iff {failure : Failure} :
    load view path = .error failure ↔ Refuses view path failure := by
  constructor
  · intro h
    cases htarget : view.target path with
    | error fault =>
      rw [load, htarget] at h
      cases h
      exact .unreachable htarget
    | ok node =>
      rw [load_eq htarget] at h
      by_cases hfiles : filesToRead view path node = []
      · rw [if_pos hfiles] at h
        cases h
        obtain ⟨hdirectory, hnone⟩ := filesToRead_eq_nil_iff.mp hfiles
        obtain ⟨entries, rfl⟩ := Node.isDirectory_iff.mp hdirectory
        exact .noSessionFiles htarget hnone
      · rw [if_neg hfiles] at h
        obtain ⟨earlier, file, later, hsplit, hearlier, hfile⟩ := mapM_eq_error_iff.mp h
        exact .rejected htarget hsplit hearlier hfile
  · intro h
    cases h with
    | unreachable htarget => rw [load, htarget]
    | noSessionFiles htarget hfiles =>
      rw [load_eq htarget, if_pos (filesToRead_eq_nil_iff.mpr ⟨rfl, hfiles⟩)]
    | rejected htarget hfiles hearlier hfile =>
      rw [load_eq htarget, if_neg (by simp [hfiles])]
      exact mapM_eq_error_iff.mpr ⟨_, _, _, hfiles, hearlier, hfile⟩

/-- What comes after a file that is rejected does not matter. -/
theorem load_eq_of_rejected {view' : View} {node node' : Node} {earlier later later' : List Path}
    {file : Path} {failure : Failure} (htarget : view.target path = .ok node)
    (htarget' : view'.target path = .ok node')
    (hfiles : filesToRead view path node = earlier ++ file :: later)
    (hfiles' : filesToRead view' path node' = earlier ++ file :: later')
    (hsame : ∀ e ∈ earlier ++ [file], readSession view' e = readSession view e)
    (hfile : readSession view file = .error failure) : load view' path = load view path := by
  obtain ⟨hearlier, hlast⟩ := List.forall_mem_append.mp hsame
  have rejected := hlast file List.mem_cons_self
  have some_file : filesToRead view path node ≠ [] := by simp [hfiles]
  have some_file' : filesToRead view' path node' ≠ [] := by simp [hfiles']
  rw [load_eq htarget, load_eq htarget', if_neg some_file, if_neg some_file', hfiles, hfiles']
  exact mapM_append_cons_eq hearlier rejected (rejected.trans hfile)

end View

section Tree

variable {root : Node} {path : Path}

/-- A file that is discovered is accepted if its path is not too long and its content gives a
session. -/
theorem readSession_discovered_iff (hroot : root.WellFormed) {entries : List (Name × Node)}
    (htarget : root.view.target path = .ok (.directory entries)) {location : Location}
    {content : ByteArray}
    (hfile : (Node.directory entries).find? location = some (.file content)) {session : Session} :
    readSession root.view (path.joinAll location) = .ok session ↔
      (path.joinAll location).bytes.length ≤ Path.maxLength ∧
        HoldsSession (path.joinAll location) content session := by
  rw [readSession_eq_ok_iff]
  by_cases hshort : (path.joinAll location).bytes.length ≤ Path.maxLength
  · rw [target_joinAll hroot htarget hfile (Path.isTooLong_eq_false_iff.mpr hshort)]
    constructor
    · rintro ⟨_, ⟨⟩, hholds⟩
      exact ⟨hshort, hholds⟩
    · rintro ⟨-, hholds⟩
      exact ⟨content, rfl, hholds⟩
  · have hlong : (path.joinAll location).isTooLong := decide_eq_true (Nat.not_le.mp hshort)
    rw [target_joinAll_of_isTooLong hroot htarget hfile hlong]
    constructor
    · rintro ⟨_, ⟨⟩, -⟩
    · rintro ⟨hshort', -⟩
      exact absurd hshort' hshort

/-- A file below a node that a path names: it can be opened, and its content gives a session. -/
def CanBeLoaded (path : Path) (node : Node) (file : Path) : Prop :=
  ∃ location content session, file = path.joinAll location ∧
    node.find? location = some (.file content) ∧
    file.bytes.length ≤ Path.maxLength ∧ HoldsSession file content session

theorem exists_readSession_discovered_iff (hroot : root.WellFormed) {entries : List (Name × Node)}
    (htarget : root.view.target path = .ok (.directory entries)) {file : Path}
    (hmem : file ∈ discover root.view path) :
    (∃ session, readSession root.view file = .ok session) ↔
      CanBeLoaded path (.directory entries) file := by
  constructor
  · rintro ⟨session, hread⟩
    obtain ⟨location, rfl, hsession⟩ := exists_of_mem_discover hroot htarget hmem
    obtain ⟨content, hfile⟩ := hsession.file
    obtain ⟨hshort, hholds⟩ := (readSession_discovered_iff hroot htarget hfile).mp hread
    exact ⟨location, content, session, rfl, hfile, hshort, hholds⟩
  · rintro ⟨location, content, session, rfl, hfile, hshort, hholds⟩
    exact ⟨session, (readSession_discovered_iff hroot htarget hfile).mpr ⟨hshort, hholds⟩⟩

/-- Loading a directory gives sessions if something is discovered and each file can be loaded. -/
theorem exists_load_directory_iff (hroot : root.WellFormed) {entries : List (Name × Node)}
    (htarget : root.view.target path = .ok (.directory entries)) :
    (∃ sessions, load root.view path = .ok sessions) ↔
      discover root.view path ≠ [] ∧
        ∀ file ∈ discover root.view path, CanBeLoaded path (.directory entries) file := by
  have accepted {file : Path} (hmem : file ∈ discover root.view path) :=
    exists_readSession_discovered_iff hroot htarget hmem
  rw [exists_load_iff]
  constructor
  · rintro ⟨node, hnode, hsome, hall⟩
    cases htarget.symm.trans hnode
    exact ⟨hsome, fun file hmem => (accepted hmem).mp (hall file hmem)⟩
  · rintro ⟨hsome, hall⟩
    exact ⟨_, htarget, hsome, fun file hmem => (accepted hmem).mpr (hall file hmem)⟩

/-- **All or the first failure**: loading gives sessions if the path leads to a file, whatever its name,
that is accepted, or to a directory below which something is discovered and everything discovered has a
path that is not too long and a content that gives a session. Then it gives what each of these files is
read as, in their order. Otherwise it fails because the path leads nowhere or nothing is discovered, or
else as the first file that is rejected, whatever comes after this file. -/
theorem load_all_or_first_failure (hroot : root.WellFormed) (path : Path) :
    ((∃ sessions, load root.view path = .ok sessions) ↔
      (∃ node session, root.view.target path = .ok node ∧ node.isDirectory = false ∧
        readSession root.view path = .ok session) ∨
      ∃ entries, root.view.target path = .ok (.directory entries) ∧
        discover root.view path ≠ [] ∧
        ∀ file ∈ discover root.view path, CanBeLoaded path (.directory entries) file) ∧
    (∀ node sessions, root.view.target path = .ok node → load root.view path = .ok sessions →
      List.Forall₂ (fun file session => readSession root.view file = .ok session)
        (filesToRead root.view path node) sessions) ∧
    (∀ failure, load root.view path = .error failure ↔ Refuses root.view path failure) ∧
    ∀ (other node node' : Node) (earlier later later' : List Path) (file : Path) (failure : Failure),
      root.view.target path = .ok node → other.view.target path = .ok node' →
      filesToRead root.view path node = earlier ++ file :: later →
      filesToRead other.view path node' = earlier ++ file :: later' →
      (∀ e ∈ earlier ++ [file], readSession other.view e = readSession root.view e) →
      readSession root.view file = .error failure →
      load other.view path = load root.view path := by
  refine ⟨?_, ?_, fun _ => load_eq_error_iff,
    fun _ _ _ _ _ _ _ _ htarget htarget' hfiles hfiles' hsame hfile =>
      load_eq_of_rejected htarget htarget' hfiles hfiles' hsame hfile⟩
  · constructor
    · intro hload
      obtain ⟨node, htarget, -, hall⟩ := exists_load_iff.mp hload
      cases hdirectory : node.isDirectory with
      | false =>
        rw [filesToRead_of_not_directory hdirectory] at hall
        obtain ⟨session, hsession⟩ := hall path List.mem_cons_self
        exact .inl ⟨node, session, htarget, hdirectory, hsession⟩
      | true =>
        obtain ⟨entries, rfl⟩ := Node.isDirectory_iff.mp hdirectory
        exact .inr ⟨entries, htarget, (exists_load_directory_iff hroot htarget).mp hload⟩
    · rintro (⟨node, session, htarget, hdirectory, hsession⟩ | ⟨entries, htarget, hall⟩)
      · refine exists_load_iff.mpr ⟨node, htarget, ?_⟩
        rw [filesToRead_of_not_directory hdirectory, List.forall_mem_singleton]
        exact ⟨List.cons_ne_nil path [], session, hsession⟩
      · exact (exists_load_directory_iff hroot htarget).mpr hall
  · intro node sessions htarget hload
    obtain ⟨_, htarget', -, hall⟩ := load_eq_ok_iff.mp hload
    cases htarget.symm.trans htarget'
    exact hall

/-- Below a directory `d` the second of three files is rejected because it is empty, and this is the
failure, although the third is rejected too. The first is accepted alone. -/
theorem load_all_or_first_failure_empty_file :
    let entries : List (Name × Node) :=
      [((Path.ofString "c.jsonl").bytes, .file ⟨#[0xff]⟩),
        ((Path.ofString "b.jsonl").bytes, .file .empty),
        ((Path.ofString "a.jsonl").bytes, .file "\n".toByteArray)]
    let root : Node := .directory [((Path.ofString "d").bytes, .directory entries)]
    let path := Path.ofString "d"
    let first := Path.ofString "d/a.jsonl"
    let second := Path.ofString "d/b.jsonl"
    root.WellFormed ∧ root.view.target path = .ok (.directory entries) ∧
      filesToRead root.view path (.directory entries) = [first, second, Path.ofString "d/c.jsonl"] ∧
      load root.view path = .error (.emptyFile second) ∧
      ∃ sessions, load root.view first = .ok sessions := by
  intro entries root path first second
  have hentries : (Node.directory entries).WellFormed :=
    .directory (by decide) (by decide)
      (List.forall_mem_cons.mpr ⟨.file _, List.forall_mem_cons.mpr ⟨.file _,
        List.forall_mem_singleton.mpr (.file _)⟩⟩)
  have hroot : root.WellFormed := .singleton (by decide) hentries
  have htarget : root.view.target path = .ok (.directory entries) := by cbv
  have hfiles : filesToRead root.view path (.directory entries) =
      [first] ++ second :: [Path.ofString "d/c.jsonl"] := by cbv
  have hfirst : readSession root.view first = .ok ⟨first, []⟩ := by cbv
  have hsecond : readSession root.view second = .error (.emptyFile second) := by cbv
  have haccepted : ∀ e ∈ [first], ∃ session, readSession root.view e = .ok session :=
    List.forall_mem_singleton.mpr ⟨_, hfirst⟩
  have hfile : root.view.target first = .ok (.file "\n".toByteArray) := by cbv
  exact ⟨hroot, htarget, hfiles,
    ((load_all_or_first_failure hroot path).2.2.1 _).mpr
      (.rejected htarget hfiles haccepted hsecond),
    (load_all_or_first_failure hroot first).1.mpr (.inl ⟨_, _, hfile, rfl, hfirst⟩)⟩

/-- A session file is discovered although its path is too long, if that of its directory is not. Its
content gives a session, but it cannot be opened, and loading fails. -/
theorem load_fails_at_long_path :
    let name := (Path.ofString "a_directory_of_twenty").bytes
    let file := (Path.ofString "b.jsonl").bytes
    let text := "\x7b\"kind\":\"message\",\"timestamp\":0\x7d\n"
    let content := text.toByteArray
    let entries : List (Name × Node) := [(name, .directory [(file, .file content)])]
    let root : Node := .directory entries
    let path := Path.detour 2037
    let found := path.joinAll [name, file]
    root.WellFormed ∧ root.view.target path = .ok (.directory entries) ∧
      discover root.view path = [found] ∧ root.find? [name, file] = some (.file content) ∧
      (∃ session, HoldsSession found content session) ∧
      load root.view path = .error (.unreadable found .nameTooLong) := by
  intro name file text content entries root path found
  have hroot : root.WellFormed := .singleton (by decide) (.singleton (by decide) (.file _))
  have htarget : root.view.target path = .ok (.directory entries) :=
    target_detour (by decide) (by decide)
  have hfile : root.find? [name, file] = some (.file content) := rfl
  have directory : (path.join name).bytes.length = 4095 := Path.length_join_detour 2037 name
  -- Of the path only this is needed from here on, and it is too long to be written out.
  clear_value path
  have long : found.isTooLong := by
    have further : 4095 + file.length ≤ found.bytes.length :=
      directory ▸ (path.join name).length_add_le_join file
    exact decide_eq_true (Nat.lt_of_lt_of_le (by decide) further)
  have discovered : discover root.view path = [found] := by
    have files : root.sessionFiles = [[name, file]] := by cbv
    have reached : isReached path [name, file] := isReached_iff.mpr (Nat.le_of_eq directory)
    rw [discover_eq htarget, Node.sessionPaths, files, List.filter_cons_of_pos reached, List.filter_nil,
      List.map_singleton]
  have holds : ∃ session, HoldsSession found content session := by
    have encoded : String.fromUTF8? content = some text := dif_pos text.isValidUTF8
    have events : Session.readEvents text.toList = .ok [{ kind := .message, time := ⟨0, 0⟩ }] := by
      cbv
    exact ⟨_, by cbv, _, encoded, Session.ofText_eq_ok_iff.mpr ⟨_, events, rfl⟩⟩
  have rejected : readSession root.view found = .error (.unreadable found .nameTooLong) := by
    rw [readSession, readText, target_joinAll_of_isTooLong hroot htarget hfile long, error_bind]
  have hfiles : filesToRead root.view path (.directory entries) = [] ++ found :: [] := discovered
  exact ⟨hroot, htarget, discovered, hfile, holds,
    load_eq_error_iff.mpr (.rejected htarget hfiles (by simp) rejected)⟩

end Tree

end AgentThreads.Files
