import AgentThreads.Proofs.Files.Path
import AgentThreads.Proofs.Keyed
import AgentThreads.Proofs.Outcomes
import AgentThreads.Files.Tree

/-!
# Trees that can lie in a file system

In a tree as a file system holds it each directory has each name once, and names are such that a path
can lead to their entries. What a path names in such a tree is such a tree again. If a path names a
directory, then a path that goes on with the names of directories below it and of a file in the last
one names this file, unless it is too long.
-/

namespace AgentThreads.Files

/-- A name that an entry of a directory can have. -/
structure IsEntryName (name : Name) : Prop where
  /-- There is something in it. -/
  ne_nil : name ≠ []
  /-- It is not the name by which a directory names itself. -/
  ne_here : name ≠ Path.here
  /-- It is not the name by which a directory names the one above it. -/
  ne_above : name ≠ Path.above
  /-- It has no slash. -/
  slash_not_mem : Path.slash ∉ name
  /-- It has no zero byte. -/
  zero_not_mem : 0 ∉ name
  /-- It is not too long. -/
  length_le : name.length ≤ maxName

instance (name : Name) : Decidable (IsEntryName name) :=
  decidable_of_iff (name ≠ [] ∧ name ≠ Path.here ∧ name ≠ Path.above ∧ Path.slash ∉ name ∧ 0 ∉ name ∧
      name.length ≤ maxName)
    ⟨fun ⟨hne, hhere, habove, hslash, hzero, hlength⟩ => ⟨hne, hhere, habove, hslash, hzero, hlength⟩,
      fun h => ⟨h.ne_nil, h.ne_here, h.ne_above, h.slash_not_mem, h.zero_not_mem, h.length_le⟩⟩

namespace Node

/-- The node is a directory. -/
def isDirectory : Node → Bool
  | directory _ => true
  | _ => false

theorem isDirectory_iff {node : Node} : node.isDirectory ↔ ∃ entries, node = directory entries := by
  cases node <;> simp [isDirectory]

/-- In each directory of the tree, each name is given once and can be the name of an entry. -/
inductive WellFormed : Node → Prop where
  /-- A file is well-formed. -/
  | file (content : ByteArray) : WellFormed (.file content)
  /-- A link is well-formed, wherever it leads. -/
  | link (target : Path) : WellFormed (.link target)
  /-- A directory is well-formed if its entries are. -/
  | directory {entries : List (Name × Node)} (nodup : (entries.map (·.1)).Nodup)
      (names : ∀ e ∈ entries, IsEntryName e.1) (nodes : ∀ e ∈ entries, WellFormed e.2) :
      WellFormed (.directory entries)

/-- A directory with one entry. -/
theorem WellFormed.singleton {name : Name} {node : Node} (hname : IsEntryName name)
    (hnode : node.WellFormed) : (Node.directory [(name, node)]).WellFormed :=
  .directory (List.nodup_singleton name) (List.forall_mem_singleton.mpr hname)
    (List.forall_mem_singleton.mpr hnode)

theorem entry?_eq_some_iff {entries : List (Name × Node)} (h : (directory entries).WellFormed)
    {name : Name} {node : Node} :
    entry? name (directory entries) = some node ↔ (name, node) ∈ entries := by
  cases h with
  | directory nodup _ _ => exact lookup_eq_some_iff_mem nodup

theorem find?_nil (node : Node) : find? [] node = some node := rfl

theorem find?_cons (name : Name) (names : List Name) (node : Node) :
    find? (name :: names) node = entry? name node >>= find? names := rfl

/-- What is at a place below a well-formed node is well-formed, and the names on the way are names of
entries. -/
theorem WellFormed.find? {names : List Name} {node found : Node} (h : node.WellFormed)
    (hfound : find? names node = some found) :
    found.WellFormed ∧ ∀ name ∈ names, IsEntryName name := by
  induction names generalizing node with
  | nil =>
    cases hfound
    exact ⟨h, by simp⟩
  | cons name names ih =>
    rw [find?_cons] at hfound
    obtain ⟨next, hnext, hrest⟩ := Option.bind_eq_some_iff.mp hfound
    cases node with
    | file | link => cases hnext
    | directory entries =>
      have hmem := (entry?_eq_some_iff h).mp hnext
      cases h with
      | directory _ hnames hnodes =>
        obtain ⟨hwf, hothers⟩ := ih (hnodes _ hmem) hrest
        exact ⟨hwf, List.forall_mem_cons.mpr ⟨hnames _ hmem, hothers⟩⟩

/-- The names on the way to a place below a well-formed node stay apart in a path. -/
theorem WellFormed.names {names : List Name} {node found : Node} (h : node.WellFormed)
    (hfound : node.find? names = some found) : ∀ name ∈ names, Path.slash ∉ name ∧ name ≠ [] :=
  fun name hname =>
    have entryName := (h.find? hfound).2 name hname
    ⟨entryName.slash_not_mem, entryName.ne_nil⟩

end Node

/-! ### Going along names -/

section Walk

variable {root : Node} {follow : Bool} {links : Nat} {above : List Node} {here : Node}

/-- A name that leads to the same directory. -/
theorem walk_stay {name : Name} (h : name = [] ∨ name = Path.here) (rest : List Name) :
    walk root follow links above here (name :: rest) = walk root follow links above here rest :=
  (walk.eq_def ..).trans (if_pos h)

theorem walk_stays {names : List Name} (h : ∀ name ∈ names, name = [] ∨ name = Path.here) :
    walk root follow links above here names = .ok here := by
  induction names with
  | nil => rw [walk]
  | cons name names ih =>
    obtain ⟨hname, hnames⟩ := List.forall_mem_cons.mp h
    rw [walk_stay hname, ih hnames]

/-- A name that leads to the directory above. -/
theorem walk_up (rest : List Name) :
    walk root follow links above here (Path.above :: rest) =
      walk root follow links above.tail (above.head?.getD here) rest := by
  rw [walk.eq_def]
  dsimp only
  rw [if_neg (by decide), if_pos rfl]
  cases above <;> rfl

/-- How a walk goes on at an entry of the directory. -/
def onward (root : Node) (follow : Bool) (links : Nat) (above : List Node) (here : Node)
    (rest : List Name) : Option Node → Except Fault Node
  | none => .error .notFound
  | some (.directory entries) => walk root follow links (here :: above) (.directory entries) rest
  | some (.file content) => if rest.isEmpty then .ok (.file content) else .error .notDirectory
  | some (.link target) =>
    if rest.isEmpty && !follow then .ok (.link target)
    else match links with
      | 0 => .error .tooManyLinks
      | links + 1 =>
        if target.bytes.head? = some Path.slash then
          walk root follow links [] root (target.components ++ rest)
        else walk root follow links above here (target.components ++ rest)

/-- A link that is followed stands for the names of its target. -/
theorem onward_link (rest : List Name) (target : Path) :
    onward root true (links + 1) above here rest (some (.link target)) =
      if target.bytes.head? = some Path.slash then
        walk root true links [] root (target.components ++ rest)
      else walk root true links above here (target.components ++ rest) := by
  simp [onward]

/-- A name that leads to an entry. -/
theorem walk_entry {name : Name} (hstay : ¬(name = [] ∨ name = Path.here)) (hup : name ≠ Path.above)
    (hshort : ¬maxName < name.length) (rest : List Name) :
    walk root follow links above here (name :: rest) =
      onward root follow links above here rest ( here.entry? name) := by
  rw [walk.eq_def]
  dsimp only
  rw [if_neg hstay, if_neg hup, if_neg hshort]
  rfl

theorem wellFormed_entry {name : Name} {node : Node} (hhere : here.WellFormed)
    (hentry : here.entry? name = some node) : node.WellFormed := by
  have found : here.find? [name] = some node := by
    rw [Node.find?_cons, hentry]
    rfl
  exact (hhere.find? found).1

/-- What is reached in a well-formed tree is well-formed. -/
theorem wellFormed_of_walk (hroot : root.WellFormed) {node : Node} {names : List Name}
    (habove : ∀ n ∈ above, n.WellFormed) (hhere : here.WellFormed)
    (h : walk root follow links above here names = .ok node) : node.WellFormed := by
  fun_induction walk root follow links above here names with
  | case1 =>
    cases h
    exact hhere
  | case2 _ _ _ _ _ _ ih => exact ih habove hhere h
  | case3 _ _ _ _ ih => exact ih habove hhere h
  | case4 _ _ _ _ _ _ ih =>
    obtain ⟨hparent, habove⟩ := List.forall_mem_cons.mp habove
    exact ih habove hparent h
  | case7 _ _ _ _ _ _ _ _ _ hentry ih =>
    exact ih (List.forall_mem_cons.mpr ⟨hhere, habove⟩) (wellFormed_entry hhere hentry) h
  | case8 =>
    cases h
    exact .file _
  | case10 =>
    cases h
    exact .link _
  | case12 _ _ _ _ _ _ _ _ _ _ _ _ ih => exact ih (by simp) hroot h
  | case13 _ _ _ _ _ _ _ _ _ _ _ _ ih => exact ih habove hhere h
  | case5 | case6 | case9 | case11 => cases h

/-- Where a link at the end is followed to a directory, there is a link or the directory itself. -/
theorem walk_unfollowed {names : List Name} {entries : List (Name × Node)}
    (h : walk root true links above here names = .ok (.directory entries)) :
    walk root false links above here names = .ok (.directory entries) ∨
      ∃ target, walk root false links above here names = .ok (.link target) := by
  fun_induction walk root true links above here names with
  | case1 =>
    rw [walk]
    exact .inl h
  | case2 _ _ _ _ _ hstay ih =>
    rw [walk_stay hstay]
    exact ih h
  | case3 _ _ _ _ ih =>
    rw [walk_up]
    exact ih h
  | case4 _ _ _ _ _ _ ih =>
    rw [walk_up]
    exact ih h
  | case7 _ _ _ _ _ hstay hup hshort _ hentry ih =>
    rw [walk_entry hstay hup hshort, hentry, onward]
    exact ih h
  | case12 _ _ _ rest hstay hup hshort target hentry _ _ hslash ih
  | case13 _ _ _ rest hstay hup hshort target hentry _ _ hslash ih =>
    rw [walk_entry hstay hup hshort, hentry, onward]
    by_cases hend : rest.isEmpty
    · exact .inr ⟨target, by simp [hend]⟩
    · simpa [hend, hslash] using ih h
  | case5 | case6 | case8 | case9 | case10 | case11 => cases h

/-- If names lead to a directory, perhaps with empty names after them, what they lead to further on is
what is reached from the directory. -/
theorem walk_append {names tail : List Name} (htail : ∀ name ∈ tail, name = [])
    {entries : List (Name × Node)}
    (h : walk root true links above here (names ++ tail) = .ok (.directory entries)) :
    ∃ links' above', ∀ rest, walk root true links above here (names ++ rest) =
      walk root true links' above' (.directory entries) rest := by
  -- By the recursion of the walk; what follows the names is met only when it has come to their end.
  fun_induction walk root true links above here names with
  | case1 =>
    rw [List.nil_append, walk_stays fun name hname => .inl (htail name hname)] at h
    cases h
    exact ⟨_, _, fun rest => rfl⟩
  | case2 _ _ _ _ _ hstay ih =>
    simp only [List.cons_append, walk_stay hstay] at h ⊢
    exact ih h
  | case3 _ _ _ _ ih =>
    simp only [List.cons_append, walk_up] at h ⊢
    exact ih h
  | case4 _ _ _ _ _ _ ih =>
    simp only [List.cons_append, walk_up] at h ⊢
    exact ih h
  | case5 _ _ _ _ _ hstay hup hlong =>
    rw [List.cons_append, walk.eq_def] at h
    simp [hstay, hup, hlong] at h
  | case6 _ _ _ _ _ hstay hup hshort hentry =>
    rw [List.cons_append, walk_entry hstay hup hshort, hentry] at h
    cases h
  | case7 _ _ _ _ _ hstay hup hshort _ hentry ih =>
    simp only [List.cons_append, walk_entry hstay hup hshort, hentry, onward] at h ⊢
    exact ih h
  | case8 _ _ _ _ rest hstay hup hshort _ hentry _ | case9 _ _ _ _ rest hstay hup hshort _ hentry _ =>
    rw [List.cons_append, walk_entry hstay hup hshort, hentry, onward] at h
    split at h <;> cases h
  | case10 _ _ _ _ _ hstay hup hshort _ hentry hnever => simp at hnever
  | case11 _ _ _ _ hstay hup hshort _ hentry _ =>
    rw [List.cons_append, walk_entry hstay hup hshort, hentry] at h
    simp [onward] at h
  | case12 _ _ _ _ hstay hup hshort _ hentry _ _ hslash ih =>
    simp only [List.cons_append, walk_entry hstay hup hshort, hentry, onward_link, if_pos hslash,
      ← List.append_assoc] at h ⊢
    exact ih h
  | case13 _ _ _ _ hstay hup hshort _ hentry _ _ hslash ih =>
    simp only [List.cons_append, walk_entry hstay hup hshort, hentry, onward_link, if_neg hslash,
      ← List.append_assoc] at h ⊢
    exact ih h

/-- Names of directories below a directory, and of a file in the last one, lead to the file. -/
theorem walk_find? {names : List Name} (hnames : ∀ name ∈ names, IsEntryName name)
    {entries : List (Name × Node)} {content : ByteArray} (hdirectory : here = .directory entries)
    (h : here.find? names = some (.file content)) :
    walk root follow links above here names = .ok (.file content) := by
  induction names generalizing here above entries with
  | nil =>
    subst hdirectory
    cases h
  | cons name names ih =>
    obtain ⟨hname, hothers⟩ := List.forall_mem_cons.mp hnames
    have hstay : ¬(name = [] ∨ name = Path.here) := fun hor =>
      hor.elim hname.ne_nil hname.ne_here
    rw [Node.find?_cons] at h
    obtain ⟨next, hentry, hrest⟩ := Option.bind_eq_some_iff.mp h
    rw [walk_entry hstay hname.ne_above (Nat.not_lt.mpr hname.length_le), hentry]
    cases next with
    | directory entries' => exact ih hothers rfl hrest
    | file content' =>
      cases names with
      | nil =>
        cases hrest
        rfl
      | cons _ _ => cases hrest
    | link target =>
      cases names with
      | nil => cases hrest
      | cons _ _ => cases hrest

end Walk

/-! ### What paths name -/

section LookUp

variable {root node : Node} {path : Path} {entries : List (Name × Node)}

theorem lookUp_eq_ok_iff {follow : Bool} : lookUp root follow path = .ok node ↔
    0 ∉ path.bytes ∧ path.bytes ≠ [] ∧ path.isTooLong = false ∧
      walk root follow maxLinks [] root path.components = .ok node := by
  unfold lookUp
  split
  · case isTrue hzero => simp [hzero]
  split
  · case isTrue hempty => simp [List.isEmpty_iff.mp hempty]
  split
  · case isTrue hlong => simp [hlong]
  · case isFalse hzero hempty hlong =>
    simp [hzero, hlong, show path.bytes ≠ [] from fun heq => hempty (by simp [heq])]

/-- What a path names in a well-formed tree is well-formed. -/
theorem wellFormed_of_target (hroot : root.WellFormed) (h : root.view.target path = .ok node) :
    node.WellFormed :=
  wellFormed_of_walk hroot (by simp) hroot (lookUp_eq_ok_iff.mp h).2.2.2

/-- A path that leads to a directory names it, or a link to it. -/
theorem entry_of_target (h : root.view.target path = .ok (.directory entries)) :
    root.view.entry path = .ok (.directory entries) ∨
      ∃ target, root.view.entry path = .ok (.link target) := by
  obtain ⟨hzero, hempty, hlong, hwalk⟩ := lookUp_eq_ok_iff.mp h
  rcases walk_unfollowed hwalk with hwalk | ⟨target, hwalk⟩
  · exact .inl (lookUp_eq_ok_iff.mpr ⟨hzero, hempty, hlong, hwalk⟩)
  · exact .inr ⟨target, lookUp_eq_ok_iff.mpr ⟨hzero, hempty, hlong, hwalk⟩⟩

section Below

variable (hroot : root.WellFormed) (h : root.view.target path = .ok (.directory entries))
  {location : List Name} {content : ByteArray}
  (hfile : (Node.directory entries).find? location = some (.file content))
include hroot h hfile

/-- The path of a file below a directory has no zero byte. -/
theorem zero_not_mem_joinAll : 0 ∉ (path.joinAll location).bytes := by
  have names := ((wellFormed_of_target hroot h).find? hfile).2
  intro hzero
  rcases Path.mem_bytes_joinAll hzero with hpath | hslash | ⟨name, hname, hmem⟩
  · exact (lookUp_eq_ok_iff.mp h).1 hpath
  · cases hslash
  · exact (names name hname).zero_not_mem hmem

/-- The path of a file below a directory names the file, unless it is too long. -/
theorem target_joinAll (hlong : (path.joinAll location).isTooLong = false) :
    root.view.target (path.joinAll location) = .ok (.file content) := by
  obtain ⟨-, hempty, -, hwalk⟩ := lookUp_eq_ok_iff.mp h
  have names := ((wellFormed_of_target hroot h).find? hfile).2
  have nonempty : location ≠ [] := by
    rintro rfl
    cases hfile
  have components := Path.components_joinAll ((wellFormed_of_target hroot h).names hfile) nonempty path
  obtain ⟨tail, hstem, htail⟩ := path.components_eq
  rw [hstem] at hwalk
  obtain ⟨links, above, further⟩ := walk_append htail hwalk
  refine lookUp_eq_ok_iff.mpr ⟨zero_not_mem_joinAll hroot h hfile,
    Path.bytes_joinAll_ne_nil hempty location, hlong, ?_⟩
  rw [components, further]
  exact walk_find? names rfl hfile

/-- A path that is too long names nothing. -/
theorem target_joinAll_of_isTooLong (hlong : (path.joinAll location).isTooLong) :
    root.view.target (path.joinAll location) = .error .nameTooLong := by
  obtain ⟨-, hempty, -⟩ := lookUp_eq_ok_iff.mp h
  have nonempty := Path.bytes_joinAll_ne_nil hempty location
  have zero := zero_not_mem_joinAll hroot h hfile
  have unfolded : root.view.target (path.joinAll location) = lookUp root true _ := rfl
  rw [unfolded, lookUp, if_neg zero, if_neg (by simpa using nonempty), if_pos hlong]

end Below

/-- A path that stays in its directory names it, unless the path is too long. -/
theorem target_detour {n : Nat} (hpos : n ≠ 0) (hlength : 2 * n ≤ Path.maxLength) :
    root.view.target (Path.detour n) = .ok root := by
  have nonempty : (Path.detour n).bytes ≠ [] := by
    rw [← List.length_pos_iff, Path.length_detour]
    omega
  have short : (Path.detour n).isTooLong = false := by
    rwa [Path.isTooLong_eq_false_iff, Path.length_detour]
  exact lookUp_eq_ok_iff.mpr ⟨Path.zero_not_mem_detour n, nonempty, short,
    walk_stays (Path.components_detour n)⟩

end LookUp

end AgentThreads.Files
