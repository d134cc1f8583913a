import AgentThreads.Proofs.Json.Layouts
import AgentThreads.Proofs.Outcomes
import AgentThreads.Proofs.Text.Utf8
import AgentThreads.Report.Document

/-!
# One session and many

The raw document of sessions is the array of what the raw documents of the single sessions say, each
with its path in front. It fails only if a path is no text. An item has the members that the document
of its session has, and it is written as this document is, with the path as the first member and the
lines moved in; so it depends on no other session.
-/

namespace AgentThreads.Session

open Json
open List (Forall₂)

variable {sessions : List Session} {options : Options} {failure : Failure}

/-! ### Paths that are no text -/

theorem toJson_eq_error_iff {s : Session} :
    toJson options s = .error failure ↔ failure = .pathNotText ∧ s.path.toText? = none := by
  unfold toJson
  split
  · case _ hpath => simp [hpath]
  · case _ hpath => simp [hpath, eq_comm]

/-- The raw report of several sessions fails if the path of one of them is no text. -/
theorem rawJsonOfAll_eq_error_iff : rawJsonOfAll sessions options = .error failure ↔
    failure = .pathNotText ∧ ∃ s ∈ sessions, s.path.toText? = none := by
  unfold rawJsonOfAll
  cases hitems : sessions.mapM (toJson options) with
  | error failure' =>
    obtain ⟨earlier, s, later, rfl, -, hs⟩ := mapM_eq_error_iff.mp hitems
    obtain ⟨rfl, hpath⟩ := toJson_eq_error_iff.mp hs
    rw [error_bind]
    constructor
    · rintro ⟨⟩
      exact ⟨rfl, s, by simp, hpath⟩
    · rintro ⟨rfl, -⟩
      rfl
  | ok items =>
    constructor
    · rintro ⟨⟩
    · rintro ⟨-, s, hs, hpath⟩
      have failed : toJson options s = .error .pathNotText :=
        toJson_eq_error_iff.mpr ⟨rfl, hpath⟩
      obtain ⟨item, hitem⟩ := exists_of_mem_of_mapM_eq_ok hitems hs
      rw [failed] at hitem
      cases hitem

/-! ### The items -/

/-- The document of an object, with the path as one more member in front. -/
def withPath (name : String) (document : List Char) : List Char :=
  '\x7b' :: newLine 1 ++ quote "path" ++ ':' :: ' ' :: quote name ++ ',' :: document.tail

/-- The item stands for the session under the name: it says what the raw document of the session
says. -/
structure Stands (options : Options) (s : Session) (name : String) (groups results item : Json) :
    Prop where
  /-- The name is the path. -/
  path : s.path = .ofString name
  /-- The path is the first member of the item. -/
  value : item = .object [("path", .string name), ("groups", groups), ("results", results)]
  /-- The other members come from the events of this session alone. -/
  members : (Grouping.ofEvents s.events options).toMembers = [("groups", groups), ("results", results)]
  /-- The document of the session has these members and no other ones. -/
  document : s.rawJson options =
    String.ofList (Json.object [("groups", groups), ("results", results)]).pretty
  /-- The item is written as the document is, without its last line feed, one level further in. -/
  layout : item.prettyAt 1 = indent (withPath name (s.rawJson options).toList.dropLast)

/-- The item stands for the session. -/
def IsItemOf (options : Options) (s : Session) (item : Json) : Prop :=
  ∃ name groups results, Stands options s name groups results item

/-- One more member in front of others. -/
theorem prettyAt_path (name : String) (groups results : Json) :
    prettyAt 0 (.object [("path", .string name), ("groups", groups), ("results", results)]) =
      withPath name (prettyAt 0 (.object [("groups", groups), ("results", results)])) := by
  simp [prettyAt, prettyMembers, block, withPath, List.intercalate, scalarChars]

theorem isItemOf_toJson {s : Session} {item : Json} (h : toJson options s = .ok item) :
    IsItemOf options s item := by
  unfold toJson at h
  split at h
  · case _ name hname =>
    cases h
    refine ⟨name, _, _, Path.toText?_eq_some_iff.mp hname, rfl, rfl, rfl, ?_⟩
    rw [rawJson, String.toList_ofList, pretty, List.dropLast_concat, ← indent_prettyAt]
    exact congrArg indent (prettyAt_path name _ _)
  · cases h

/-- **The raw document of sessions fails if and only if a path is no text.** Otherwise its items are
those of the sessions, in their order. -/
theorem rawJsonOfAll_items (sessions : List Session) (options : Options) :
    (∀ failure, rawJsonOfAll sessions options = .error failure ↔
      failure = .pathNotText ∧ ∃ s ∈ sessions, ∀ name, s.path ≠ .ofString name) ∧
    ((∀ s ∈ sessions, ∃ name, s.path = .ofString name) →
      ∃ items, Forall₂ (IsItemOf options) sessions items ∧
        rawJsonOfAll sessions options = .ok (String.ofList (Json.array items).pretty)) := by
  have notText {p : Path} : p.toText? = none ↔ ∀ name, p ≠ .ofString name := by
    simp only [Option.eq_none_iff_forall_ne_some, ne_eq, Path.toText?_eq_some_iff]
  refine ⟨fun failure => ?_, fun paths => ?_⟩
  · simp only [rawJsonOfAll_eq_error_iff, notText]
  · cases hitems : sessions.mapM (toJson options) with
    | error failure =>
      have failed : rawJsonOfAll sessions options = .error failure := by
        rw [rawJsonOfAll, hitems, error_bind]
      obtain ⟨-, s, hs, hpath⟩ := rawJsonOfAll_eq_error_iff.mp failed
      obtain ⟨name, hname⟩ := paths s hs
      exact absurd hname (notText.mp hpath name)
    | ok items =>
      refine ⟨items, (mapM_eq_ok_iff.mp hitems).imp fun _ _ => isItemOf_toJson, ?_⟩
      rw [rawJsonOfAll, hitems, ok_bind]
      rfl

/-- Two sessions have an item each, and with a third one, whose path is no text, there is no
document. -/
theorem rawJsonOfAll_items_of_two :
    let first : Session := ⟨.ofString "a", [{ kind := .message, time := ⟨0, 0⟩ }]⟩
    let second : Session := ⟨.ofString "b", []⟩
    let third : Session := ⟨⟨[0xFF]⟩, []⟩
    (∃ items, Forall₂ (IsItemOf {}) [first, second] items ∧
      rawJsonOfAll [first, second] {} = .ok (String.ofList (Json.array items).pretty)) ∧
    rawJsonOfAll [first, second, third] {} = .error .pathNotText := by
  intro first second third
  refine ⟨(rawJsonOfAll_items _ _).2 ?_, ((rawJsonOfAll_items _ _).1 _).mpr ⟨rfl, third, by simp, ?_⟩⟩
  · simp only [List.mem_cons, List.not_mem_nil, or_false, forall_eq_or_imp, forall_eq]
    exact ⟨⟨"a", rfl⟩, ⟨"b", rfl⟩⟩
  · intro name hname
    have text : third.path.toText? = some name := Path.toText?_eq_some_iff.mpr hname
    cases text

end AgentThreads.Session
