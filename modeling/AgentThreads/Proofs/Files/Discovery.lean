import AgentThreads.Files.Discovery
import AgentThreads.Proofs.Files.Tree
import Mathlib

/-!
# Session files that are found

The files below a directory come in the order of their locations, which are compared name by name, each
name by its bytes: the entries of a directory are put in order by their names, and what is found below
one of them stays together. So each file comes once. Of these files discovery gives those with the name
of a session file, unless the path of their directory is too long.
-/

namespace AgentThreads.Files

/-! ### Files below a node -/

theorem filesByEntry_eq_map (entries : List (Name × Node)) :
    filesByEntry entries = entries.map fun e => (e.1, e.2.files) := by
  induction entries with
  | nil => rfl
  | cons e entries ih =>
    obtain ⟨name, node⟩ := e
    rw [filesByEntry, ih, List.map_cons]

namespace Node

/-- The entries of a directory by name, each with the files below it. -/
def inOrder (entries : List (Name × Node)) : List (Name × List Location) :=
  (entries.map fun e => (e.1, e.2.files)).mergeSort fun a b => decide (a.1 ≤ b.1)

theorem files_directory (entries : List (Name × Node)) :
    (directory entries).files = (inOrder entries).flatMap fun e => e.2.map (e.1 :: ·) := by
  rw [files, filesByEntry_eq_map, inOrder]

theorem mem_files_directory {entries : List (Name × Node)} {location : Location} :
    location ∈ (directory entries).files ↔
      ∃ e ∈ entries, ∃ rest ∈ e.2.files, e.1 :: rest = location := by
  simp only [files_directory, inOrder, List.mem_flatMap, List.mem_mergeSort, List.mem_map]
  constructor
  · rintro ⟨_, ⟨e, he, rfl⟩, rest, hrest, rfl⟩
    exact ⟨e, he, rest, hrest, rfl⟩
  · rintro ⟨e, he, rest, hrest, rfl⟩
    exact ⟨_, ⟨e, he, rfl⟩, rest, hrest, rfl⟩

/-- The files below a node are at the places where a file is found through directories only. -/
theorem mem_files_iff {node : Node} (h : node.WellFormed) {location : Location} :
    location ∈ node.files ↔ ∃ content, node.find? location = some (.file content) := by
  induction h generalizing location with
  | file content =>
    cases location with
    | nil => simp [files, find?_nil]
    | cons name rest => simp [files, find?_cons, entry?]
  | link target =>
    cases location with
    | nil => simp [files, find?_nil]
    | cons name rest => simp [files, find?_cons, entry?]
  | @directory entries nodup names nodes ih =>
    rw [mem_files_directory]
    cases location with
    | nil => simp [find?_nil]
    | cons name rest =>
      -- Each name is there once, so the entry that is listed is the one that its name leads to.
      constructor
      · rintro ⟨e, he, _, hrest, ⟨⟩⟩
        obtain ⟨content, hfind⟩ := (ih e he).mp hrest
        refine ⟨content, ?_⟩
        rw [find?_cons, (entry?_eq_some_iff (.directory nodup names nodes)).mpr he]
        exact hfind
      · rintro ⟨content, hfind⟩
        rw [find?_cons] at hfind
        obtain ⟨node, hnode, hrest⟩ := Option.bind_eq_some_iff.mp hfind
        have hmem := (entry?_eq_some_iff (.directory nodup names nodes)).mp hnode
        exact ⟨_, hmem, rest, (ih _ hmem).mpr ⟨content, hrest⟩, rfl⟩

/-- The names of the entries in order are strictly increasing. -/
theorem pairwise_inOrder {entries : List (Name × Node)} (h : (entries.map (·.1)).Nodup) :
    (inOrder entries).Pairwise fun a b => a.1 < b.1 := by
  have trans (a b c : Name × List Location) (hab : decide (a.1 ≤ b.1) = true)
      (hbc : decide (b.1 ≤ c.1) = true) : decide (a.1 ≤ c.1) = true :=
    decide_eq_true (List.le_trans (of_decide_eq_true hab) (of_decide_eq_true hbc))
  have total (a b : Name × List Location) : (decide (a.1 ≤ b.1) || decide (b.1 ≤ a.1)) = true := by
    simpa using List.le_total a.1 b.1
  have sorted : (inOrder entries).Pairwise fun a b => decide (a.1 ≤ b.1) = true :=
    List.pairwise_mergeSort trans total _
  have distinct : (inOrder entries).Pairwise fun a b => a.1 ≠ b.1 := by
    have same : (inOrder entries).Perm (entries.map fun e => (e.1, e.2.files)) :=
      List.mergeSort_perm _ _
    refine List.pairwise_map.mp ((same.map Prod.fst).nodup_iff.mpr ?_)
    rwa [List.map_map]
  exact (sorted.and distinct).imp fun hab => Std.lt_of_le_of_ne (of_decide_eq_true hab.1) hab.2

/-- The files below a node come in strictly increasing order. -/
theorem pairwise_files {node : Node} (h : node.WellFormed) : node.files.Pairwise (· < ·) := by
  induction h with
  | file content => exact List.pairwise_singleton _ _
  | link target => exact .nil
  | @directory entries nodup names nodes ih =>
    rw [files_directory, List.pairwise_flatMap]
    -- Below one entry the order is that of its node, between entries it is that of their names.
    constructor
    · intro e he
      obtain ⟨entry, hentry, rfl⟩ := List.mem_map.mp (List.mem_mergeSort.mp he)
      exact List.pairwise_map.mpr ((ih entry hentry).imp fun hlt =>
        List.cons_lt_cons_iff.mpr (.inr ⟨rfl, hlt⟩))
    · refine (pairwise_inOrder nodup).imp fun hlt x hx y hy => ?_
      obtain ⟨_, -, rfl⟩ := List.mem_map.mp hx
      obtain ⟨_, -, rfl⟩ := List.mem_map.mp hy
      exact List.cons_lt_cons_iff.mpr (.inl hlt)

end Node

/-! ### Session files -/

theorem isSessionName_iff {name : Name} :
    isSessionName name ↔ ∃ stem, stem ≠ [] ∧ name = stem ++ sessionSuffix := by
  rw [isSessionName, Bool.and_eq_true, decide_eq_true_eq, List.isSuffixOf_iff_suffix]
  constructor
  · rintro ⟨hlength, stem, rfl⟩
    refine ⟨stem, ?_, rfl⟩
    rintro rfl
    exact Nat.lt_irrefl _ hlength
  · rintro ⟨stem, hne, rfl⟩
    refine ⟨?_, List.suffix_append stem sessionSuffix⟩
    rw [List.length_append]
    have := List.length_pos_iff.mpr hne
    omega

theorem isReached_iff {path : Path} {location : Location} : isReached path location ↔
    (path.joinAll location.dropLast).bytes.length ≤ Path.maxLength := by
  rw [isReached, Bool.not_eq_true', Path.isTooLong_eq_false_iff]

/-- Where a session file lies below a node that a path names, so that a walk comes to it. -/
structure IsSessionFile (path : Path) (node : Node) (location : Location) : Prop where
  /-- A file is there, and the way to it is through directories only. -/
  file : ∃ content, node.find? location = some (.file content)
  /-- Its name ends in the suffix, with something before it. -/
  name : ∃ above stem, stem ≠ [] ∧ location = above ++ [stem ++ sessionSuffix]
  /-- The path of its directory is not too long. -/
  reached : (path.joinAll location.dropLast).bytes.length ≤ Path.maxLength

/-- The last name on the way to a file is that of a session file. -/
theorem isSessionName_getLast?_iff {location : Location} :
    isSessionName (location.getLast?.getD []) ↔
      ∃ above stem, stem ≠ [] ∧ location = above ++ [stem ++ sessionSuffix] := by
  rcases List.eq_nil_or_concat' location with rfl | ⟨above, name, rfl⟩
  · constructor
    · intro h
      cases h
    · rintro ⟨above, stem, -, h⟩
      cases above <;> cases h
  · rw [List.getLast?_concat, Option.getD_some, isSessionName_iff]
    constructor
    · rintro ⟨stem, hne, rfl⟩
      exact ⟨above, stem, hne, rfl⟩
    · rintro ⟨above', stem, hne, h⟩
      obtain ⟨-, hlast⟩ := List.append_inj' h rfl
      obtain rfl := List.singleton_inj.mp hlast
      exact ⟨stem, hne, rfl⟩

/-- The session files that a walk from a node comes to. -/
theorem mem_reached_iff {path : Path} {node : Node} (h : node.WellFormed) {location : Location} :
    location ∈ node.sessionFiles.filter (isReached path) ↔ IsSessionFile path node location := by
  rw [List.mem_filter, Node.sessionFiles, List.mem_filter, Node.mem_files_iff h,
    isSessionName_getLast?_iff, isReached_iff]
  exact ⟨fun ⟨⟨hfile, hname⟩, hreached⟩ => ⟨hfile, hname, hreached⟩,
    fun ⟨hfile, hname, hreached⟩ => ⟨⟨hfile, hname⟩, hreached⟩⟩

section Discover

variable {root : Node} {path : Path} {entries : List (Name × Node)}

/-- Where a path leads to a directory, its session files are those below this directory. -/
theorem discover_eq (h : root.view.target path = .ok (.directory entries)) :
    discover root.view path = (Node.directory entries).sessionPaths path := by
  unfold discover
  rcases entry_of_target h with hentry | ⟨target, hentry⟩
  · rw [hentry]
  · rw [hentry, h]

/-- What is discovered is a session file below the directory. -/
theorem exists_of_mem_discover (hroot : root.WellFormed)
    (htarget : root.view.target path = .ok (.directory entries)) {file : Path}
    (h : file ∈ discover root.view path) :
    ∃ location, file = path.joinAll location ∧ IsSessionFile path (.directory entries) location := by
  rw [discover_eq htarget, Node.sessionPaths] at h
  obtain ⟨location, hmem, rfl⟩ := List.mem_map.mp h
  exact ⟨location, rfl, (mem_reached_iff (wellFormed_of_target hroot htarget)).mp hmem⟩

/-- **Discovery**: where a path leads to a directory of a file system, what is discovered are the
session files below the directory to which a walk comes, through directories only. Each of them comes
once, and they are in the order of their locations: the names on the way are compared one by one, each
by its bytes. -/
theorem discover_directory (hroot : root.WellFormed)
    (htarget : root.view.target path = .ok (.directory entries)) :
    ∃ locations : List Location,
      discover root.view path = locations.map path.joinAll ∧
        locations.Pairwise (· < ·) ∧ (discover root.view path).Nodup ∧
        ∀ location, location ∈ locations ↔ IsSessionFile path (.directory entries) location := by
  have hdirectory := wellFormed_of_target hroot htarget
  have ordered : ((Node.directory entries).sessionFiles.filter (isReached path)).Pairwise (· < ·) :=
    ((Node.pairwise_files hdirectory).filter _).filter _
  refine ⟨_, discover_eq htarget, ordered, ?_, fun _ => mem_reached_iff hdirectory⟩
  rw [discover_eq htarget, Node.sessionPaths]
  -- Different locations have different paths, since no name on the way has a slash.
  refine List.Nodup.map_on ?_ (ordered.imp Std.ne_of_lt)
  intro location hlocation other hother heq
  obtain ⟨_, hfind⟩ := ((mem_reached_iff hdirectory).mp hlocation).file
  obtain ⟨_, hfind'⟩ := ((mem_reached_iff hdirectory).mp hother).file
  exact Path.joinAll_injOn (hdirectory.names hfind) (hdirectory.names hfind') heq

/-- In a directory with a file `a.jsonl` and a directory `a` the file `a/b.jsonl` comes first, although
its path is the later one by bytes. A link is not listed. -/
theorem discover_directory_beside_file :
    let entries : List (Name × Node) :=
      [((Path.ofString "a.jsonl").bytes, .file .empty),
        ((Path.ofString "a").bytes, .directory [((Path.ofString "b.jsonl").bytes, .file .empty)]),
        ((Path.ofString "c.jsonl").bytes, .link (Path.ofString "a.jsonl"))]
    let root : Node := .directory [((Path.ofString "d").bytes, .directory entries)]
    let path := Path.ofString "d"
    root.WellFormed ∧ root.view.target path = .ok (.directory entries) ∧
      ∃ locations : List Location,
        locations.map path.joinAll = [Path.ofString "d/a/b.jsonl", Path.ofString "d/a.jsonl"] ∧
          locations.Pairwise (· < ·) ∧
          ∀ location, location ∈ locations ↔ IsSessionFile path (.directory entries) location := by
  intro entries root path
  have hentries : (Node.directory entries).WellFormed :=
    .directory (by decide) (by decide)
      (List.forall_mem_cons.mpr ⟨.file _, List.forall_mem_cons.mpr
        ⟨.singleton (by decide) (.file _), List.forall_mem_singleton.mpr (.link _)⟩⟩)
  have hroot : root.WellFormed := .singleton (by decide) hentries
  have htarget : root.view.target path = .ok (.directory entries) := by cbv
  obtain ⟨locations, hlocations, ordered, -, hmem⟩ := discover_directory hroot htarget
  have found : discover root.view path = [Path.ofString "d/a/b.jsonl", Path.ofString "d/a.jsonl"] := by
    cbv
  exact ⟨hroot, htarget, locations, hlocations.symm.trans found, ordered, hmem⟩

/-- A walk does not come to a session file in a directory with a path that is too long: the directory
cannot be opened, and it is passed over. -/
theorem discover_passes_over_long_path :
    let name := (Path.ofString "a_directory_of_twenty").bytes
    let file := (Path.ofString "b.jsonl").bytes
    let content := "\x7b\"kind\":\"message\",\"timestamp\":0\x7d\n".toByteArray
    let entries : List (Name × Node) := [(name, .directory [(file, .file content)])]
    let root : Node := .directory entries
    let path := Path.detour 2040
    root.WellFormed ∧ root.view.target path = .ok (.directory entries) ∧
      root.find? [name, file] = some (.file content) ∧ isSessionName file ∧
      discover root.view path = [] := by
  intro name file content entries root path
  have hroot : root.WellFormed := .singleton (by decide) (.singleton (by decide) (.file _))
  have htarget : root.view.target path = .ok (.directory entries) :=
    target_detour (by decide) (by decide)
  have files : root.sessionFiles = [[name, file]] := by cbv
  have directory : (path.join name).bytes.length = 4101 := Path.length_join_detour 2040 name
  -- Of the path only this is needed from here on, and it is too long to be written out.
  clear_value path
  have passed : ¬isReached path [name, file] := by
    rw [isReached_iff]
    exact Nat.not_le.mpr (directory ▸ by decide)
  refine ⟨hroot, htarget, rfl, by decide, ?_⟩
  rw [discover_eq htarget, Node.sessionPaths, files, List.filter_cons_of_neg passed, List.filter_nil,
    List.map_nil]

end Discover

end AgentThreads.Files
