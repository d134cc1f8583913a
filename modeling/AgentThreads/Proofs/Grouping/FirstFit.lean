import AgentThreads.Proofs.Grouping.Clustering

/-!
# First fit

Clusters are formed anchor by anchor: an anchor takes every later spawn near it that is still free.
They can be formed spawn by spawn as well: a spawn joins the earliest cluster whose anchor it is near,
and opens a new last one if there is none. The two agree because a spawn that is still free when an
anchor is reached is near none of the anchors before.

Outside leap seconds the distance of two spawns is that of two points on a line, in nanoseconds.
-/

namespace AgentThreads

/-! ### Distances -/

namespace Instant

/-- The nanoseconds from 1970-01-01T00:00:00Z to an instant outside leap seconds. -/
def sinceEpoch (t : Instant) : Int :=
  t.seconds * 1000000000 + t.nanos

variable {a b : Instant} (ha : a.isLeap = false) (hb : b.isLeap = false)
include ha hb

theorem nanosSince_eq_sub : nanosSince a b = a.sinceEpoch - b.sinceEpoch := by
  have leap : leapSeconds a b = 0 := by simp [leapSeconds, ha, hb]
  unfold nanosSince sinceEpoch
  rw [leap]
  omega

/-- Whole milliseconds are cut off toward zero, so that the limit is kept up to its last nanosecond
on either side. -/
theorem millisBetween_le_iff {limit : Nat} :
    millisBetween a b ≤ limit ↔ (a.sinceEpoch - b.sinceEpoch).natAbs < (limit + 1) * 1000000 := by
  unfold millisBetween
  rw [nanosSince_eq_sub ha hb]
  omega

end Instant

namespace Spawn

/-- The spawn begins in a leap second. -/
def isLeap (s : Spawn) : Bool :=
  s.call.event.time.isLeap

/-- The nanoseconds between the beginnings of two spawns outside leap seconds. -/
def nanosApart (s t : Spawn) : Nat :=
  (s.call.event.time.sinceEpoch - t.call.event.time.sinceEpoch).natAbs

theorem isNear_iff {threshold : Nat} {s t : Spawn} (hs : s.isLeap = false) (ht : t.isLeap = false) :
    s.isNear threshold t ↔ s.nanosApart t < (threshold + 1) * 1000000 := by
  rw [isNear, decide_eq_true_iff, Instant.millisBetween_le_iff ht hs, nanosApart]
  omega

end Spawn

/-! ### Spawn by spawn -/

namespace Cluster

variable {threshold : Nat}

/-- Puts a spawn into the earliest cluster whose anchor it is near, or into a new last one. -/
def join (threshold : Nat) : List Cluster → Spawn → List Cluster
  | [], s => [⟨s, []⟩]
  | c :: later, s =>
    if c.anchor.isNear threshold s then ⟨c.anchor, c.others ++ [s]⟩ :: later
    else c :: join threshold later s

/-- The clusters of spawns that are taken one by one. -/
def firstFit (threshold : Nat) (spawns : List Spawn) : List Cluster :=
  spawns.foldl (join threshold) []

/-- A spawn passes by the clusters whose anchors it is not near. -/
theorem join_append {s : Spawn} {earlier : List Cluster}
    (far : ∀ c ∈ earlier, c.anchor.isNear threshold s = false) (rest : List Cluster) :
    join threshold (earlier ++ rest) s = earlier ++ join threshold rest s := by
  induction earlier with
  | nil => rfl
  | cons c earlier ih =>
    have hfar := far c List.mem_cons_self
    rw [List.cons_append, join, if_neg (by simp [hfar]),
      ih fun d hd => far d (List.mem_cons_of_mem c hd), List.cons_append]

/-- A spawn that is near no anchor forms a cluster of its own. -/
theorem join_of_far {clusters : List Cluster} {s : Spawn}
    (h : clusters.find? (·.anchor.isNear threshold s) = none) :
    join threshold clusters s = clusters ++ [⟨s, []⟩] := by
  have far : ∀ c ∈ clusters, c.anchor.isNear threshold s = false := by simpa using h
  rw [← List.append_nil clusters, join_append far, List.append_nil, join]

/-- A spawn becomes the last member of the earliest cluster whose anchor it is near. -/
theorem join_of_near {clusters : List Cluster} {s : Spawn} {c : Cluster}
    (h : clusters.find? (·.anchor.isNear threshold s) = some c) :
    ∃ earlier later, clusters = earlier ++ c :: later ∧
      join threshold clusters s = earlier ++ ⟨c.anchor, c.others ++ [s]⟩ :: later := by
  obtain ⟨near, earlier, later, rfl, hfar⟩ := List.find?_eq_some_iff_append.mp h
  have far : ∀ d ∈ earlier, d.anchor.isNear threshold s = false := by simpa using hfar
  refine ⟨earlier, later, rfl, ?_⟩
  rw [join_append far, join, if_pos near]

/-- The first cluster takes what is near its anchor, and the others see only the rest. -/
theorem foldl_join_cons (c : Cluster) (later : List Cluster) (spawns : List Spawn) :
    spawns.foldl (join threshold) (c :: later) =
      ⟨c.anchor, c.others ++ spawns.filter (c.anchor.isNear threshold)⟩ ::
        (far threshold c.anchor spawns).foldl (join threshold) later := by
  induction spawns generalizing c later with
  | nil => simp [far]
  | cons s spawns ih =>
    rw [List.foldl_cons, join]
    by_cases near : c.anchor.isNear threshold s
    · rw [if_pos near, ih]
      simp [far, near]
    · rw [if_neg near, ih]
      simp [far, near]

theorem ofSpawns_eq_firstFit (spawns : List Spawn) :
    ofSpawns threshold spawns = firstFit threshold spawns := by
  induction spawns using ofSpawns.induct threshold with
  | case1 => simp [ofSpawns, firstFit]
  | case2 anchor later ih =>
    calc ofSpawns threshold (anchor :: later)
      _ = ⟨anchor, later.filter (anchor.isNear threshold)⟩ ::
          firstFit threshold (far threshold anchor later) := by rw [ofSpawns_cons, ih]
      _ = later.foldl (join threshold) [⟨anchor, []⟩] := by
          rw [foldl_join_cons, List.nil_append, firstFit]
      _ = firstFit threshold (anchor :: later) := rfl

/-- **First fit**: the clusters share out the spawns, and they are those that first fit gives, in the
same order. Two spawns outside leap seconds are near each other if and only if what lies between them
is less than one millisecond more than the threshold. -/
theorem shared_out_by_first_fit (threshold : Nat) (spawns : List Spawn) :
    ofSpawns threshold spawns = firstFit threshold spawns ∧
      ((ofSpawns threshold spawns).flatMap members).Perm spawns ∧
      ∀ s t : Spawn, s.isLeap = false → t.isLeap = false →
        (s.isNear threshold t ↔ s.nanosApart t < (threshold + 1) * 1000000) :=
  ⟨ofSpawns_eq_firstFit spawns, flatMap_members_perm spawns, fun _ _ => Spawn.isNear_iff⟩

/-- A spawn that begins 1.999999 milliseconds before another is within one millisecond of it. -/
theorem shared_out_by_first_fit_last_nanosecond :
    let spawn (nanos : Nat) : Spawn :=
      ⟨⟨0, { kind := .toolCall, time := ⟨0, nanos⟩ }⟩, "a"⟩
    (spawn 5000000).isLeap = false ∧ (spawn 3000001).isLeap = false ∧
      (spawn 5000000).isNear 1 (spawn 3000001) := by
  intro spawn
  have late : (spawn 5000000).isLeap = false := by decide
  have early : (spawn 3000001).isLeap = false := by decide
  have near := (shared_out_by_first_fit 1 []).2.2 _ _ late early
  exact ⟨late, early, near.mpr (by decide)⟩

end Cluster

end AgentThreads
