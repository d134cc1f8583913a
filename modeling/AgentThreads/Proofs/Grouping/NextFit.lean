import AgentThreads.Proofs.Grouping.FirstFit

/-!
# Next fit

If the spawns of a session begin one after the other, those that are near an anchor come first among
the spawns behind it. So each cluster is a run of the spawns, and a spawn need not look for a place:
it joins the cluster that was opened last, or opens the next one. It is near the anchor of no earlier
cluster, since the spawn that opened the last one was not near it either, and began no later.
-/

namespace AgentThreads

/-! ### The order of instants -/

namespace Instant

/-- Instants come one after the other by their seconds, and within a second by their nanoseconds. -/
instance : LE Instant where
  le a b := a.seconds < b.seconds ∨ a.seconds = b.seconds ∧ a.nanos ≤ b.nanos

theorem le_def {a b : Instant} :
    a ≤ b ↔ a.seconds < b.seconds ∨ a.seconds = b.seconds ∧ a.nanos ≤ b.nanos :=
  Iff.rfl

instance (a b : Instant) : Decidable (a ≤ b) :=
  decidable_of_iff _ le_def.symm

/-- Outside leap seconds no instant has more nanoseconds than a second. -/
theorem sinceEpoch_le_of_le {a b : Instant} (ha : a.isLeap = false) (h : a ≤ b) :
    a.sinceEpoch ≤ b.sinceEpoch := by
  rw [isLeap, decide_eq_false_iff_not] at ha
  unfold sinceEpoch
  rcases le_def.mp h with hlt | ⟨heq, hle⟩
  · omega
  · omega

end Instant

namespace Spawn

/-- The spawn begins no later than another. -/
def BeginsNoLater (s t : Spawn) : Prop :=
  s.call.event.time ≤ t.call.event.time

instance (s t : Spawn) : Decidable (s.BeginsNoLater t) :=
  inferInstanceAs (Decidable (_ ≤ _))

/-- A spawn that begins between two others is near the first if the last is. -/
theorem isNear_of_between {threshold : Nat} {s t u : Spawn} (hs : s.isLeap = false)
    (ht : t.isLeap = false) (hu : u.isLeap = false) (hst : s.BeginsNoLater t)
    (htu : t.BeginsNoLater u) (h : s.isNear threshold u) : s.isNear threshold t := by
  rw [isNear_iff hs hu] at h
  rw [isNear_iff hs ht]
  have first := Instant.sinceEpoch_le_of_le hs hst
  have second := Instant.sinceEpoch_le_of_le ht htu
  unfold nanosApart at h ⊢
  omega

end Spawn

/-! ### What passes a test first -/

section

variable {α : Type} {test : α → Bool} {l : List α}

/-- If nothing that passes a test stands behind something that fails it, what passes comes first. -/
theorem filter_eq_takeWhile (h : l.Pairwise fun a b => test b → test a) :
    l.filter test = l.takeWhile test := by
  induction l with
  | nil => rfl
  | cons a l ih =>
    obtain ⟨ha, hl⟩ := List.pairwise_cons.mp h
    by_cases hpass : test a
    · rw [List.filter_cons_of_pos hpass, List.takeWhile_cons_of_pos hpass, ih hl]
    · rw [List.filter_cons_of_neg hpass, List.takeWhile_cons_of_neg hpass]
      exact List.filter_eq_nil_iff.mpr fun b hb hb' => hpass (ha b hb hb')

theorem filter_not_eq_dropWhile (h : l.Pairwise fun a b => test b → test a) :
    l.filter (!test ·) = l.dropWhile test := by
  induction l with
  | nil => rfl
  | cons a l ih =>
    obtain ⟨ha, hl⟩ := List.pairwise_cons.mp h
    by_cases hpass : test a
    · rw [List.filter_cons_of_neg (by simp [hpass]), List.dropWhile_cons_of_pos hpass, ih hl]
    · rw [List.dropWhile_cons_of_neg hpass]
      refine List.filter_eq_self.mpr fun b hb => ?_
      rcases List.mem_cons.mp hb with rfl | hb
      · simpa using hpass
      · simpa using fun hb' => hpass (ha b hb hb')

end

namespace Cluster

variable {threshold : Nat}

/-! ### The open cluster -/

/-- Goes on with a cluster that is open. A spawn joins it if it is near the anchor, and otherwise
closes it and opens the next one. -/
def nextFitFrom (threshold : Nat) (opened : Cluster) : List Spawn → List Cluster
  | [] => [opened]
  | s :: later =>
    if opened.anchor.isNear threshold s then
      nextFitFrom threshold ⟨opened.anchor, opened.others ++ [s]⟩ later
    else opened :: nextFitFrom threshold ⟨s, []⟩ later

/-- The clusters of spawns that are taken one by one, where only the last cluster is open. -/
def nextFit (threshold : Nat) : List Spawn → List Cluster
  | [] => []
  | anchor :: later => nextFitFrom threshold ⟨anchor, []⟩ later

/-- The open cluster takes the spawns up to the first that is not near its anchor. -/
theorem nextFitFrom_eq (anchor : Spawn) (others spawns : List Spawn) :
    nextFitFrom threshold ⟨anchor, others⟩ spawns =
      ⟨anchor, others ++ spawns.takeWhile (anchor.isNear threshold)⟩ ::
        nextFit threshold (spawns.dropWhile (anchor.isNear threshold)) := by
  induction spawns generalizing others with
  | nil => rw [nextFitFrom, List.takeWhile_nil, List.dropWhile_nil, nextFit, List.append_nil]
  | cons s later ih =>
    rw [nextFitFrom]
    by_cases hnear : anchor.isNear threshold s
    · rw [if_pos hnear, ih, List.takeWhile_cons_of_pos hnear, List.dropWhile_cons_of_pos hnear,
        List.append_assoc, List.singleton_append]
    · rw [if_neg hnear, List.takeWhile_cons_of_neg hnear, List.dropWhile_cons_of_neg hnear,
        List.append_nil, nextFit]

/-! ### Spawns that begin one after the other -/

section Ordered

variable (threshold) {anchor : Spawn} {later : List Spawn}
  (leap : ∀ s ∈ anchor :: later, s.isLeap = false)
  (ordered : (anchor :: later).Pairwise Spawn.BeginsNoLater)
include leap ordered

/-- No spawn near the anchor stands behind one that is not. -/
theorem pairwise_isNear :
    later.Pairwise fun s t => anchor.isNear threshold t → anchor.isNear threshold s := by
  obtain ⟨hanchor, hlater⟩ := List.pairwise_cons.mp ordered
  refine hlater.imp_of_mem fun {s t} hs ht hst => ?_
  exact Spawn.isNear_of_between (leap anchor List.mem_cons_self)
    (leap s (List.mem_cons_of_mem _ hs)) (leap t (List.mem_cons_of_mem _ ht)) (hanchor s hs) hst

/-- The first cluster is a run of the spawns, and the others are those of the spawns behind it. -/
theorem ofSpawns_cons_of_ordered :
    ofSpawns threshold (anchor :: later) =
      ⟨anchor, later.takeWhile (anchor.isNear threshold)⟩ ::
        ofSpawns threshold (later.dropWhile (anchor.isNear threshold)) := by
  have near := pairwise_isNear threshold leap ordered
  rw [ofSpawns_cons, far, filter_eq_takeWhile near, filter_not_eq_dropWhile near]

end Ordered

/-- The spawns stand in the clusters as they come, and next fit gives the same clusters. -/
theorem ofSpawns_of_ordered (threshold : Nat) {spawns : List Spawn}
    (leap : ∀ s ∈ spawns, s.isLeap = false)
    (ordered : spawns.Pairwise Spawn.BeginsNoLater) :
    (ofSpawns threshold spawns).flatMap members = spawns ∧
      ofSpawns threshold spawns = nextFit threshold spawns := by
  induction spawns using ofSpawns.induct threshold with
  | case1 => simp [ofSpawns, nextFit]
  | case2 anchor later ih =>
    have near := pairwise_isNear threshold leap ordered
    have rest : (far threshold anchor later).Sublist (anchor :: later) :=
      List.filter_sublist.cons anchor
    -- What is far from the anchor is what the first cluster leaves, in order, so both hold of it.
    obtain ⟨runs, fit⟩ := ih (fun s hs => leap s (rest.subset hs)) (ordered.sublist rest)
    rw [far, filter_not_eq_dropWhile near] at runs fit
    rw [ofSpawns_cons_of_ordered threshold leap ordered]
    constructor
    · rw [List.flatMap_cons, runs, members, List.cons_append, List.takeWhile_append_dropWhile]
    · rw [fit, nextFit, nextFitFrom_eq, List.nil_append]

/-- **Next fit**: if the spawns begin one after the other, and none in a leap second, the clusters
are runs of the spawns, one behind the other, and they are those that next fit gives. -/
theorem runs_of_ordered (threshold : Nat) (spawns : List Spawn)
    (leap : ∀ s ∈ spawns, s.isLeap = false) (ordered : spawns.Pairwise Spawn.BeginsNoLater) :
    (ofSpawns threshold spawns).flatMap members = spawns ∧
      (∀ c ∈ ofSpawns threshold spawns, c.members <:+: spawns) ∧
      ofSpawns threshold spawns = nextFit threshold spawns := by
  obtain ⟨runs, fit⟩ := ofSpawns_of_ordered threshold leap ordered
  refine ⟨runs, fun c hc => ?_, fit⟩
  obtain ⟨before, after, hsplit⟩ := List.append_of_mem hc
  refine ⟨before.flatMap members, after.flatMap members, ?_⟩
  rw [← runs, hsplit, List.flatMap_append, List.flatMap_cons, List.append_assoc]

/-- Spawns at once, at the last nanosecond of the threshold, and one behind a member but not behind
the anchor. -/
theorem runs_of_ordered_not_chained :
    let spawn (second : Int) (nanos : Nat) : Spawn :=
      ⟨⟨0, { kind := .toolCall, time := ⟨second, nanos⟩ }⟩, "a"⟩
    let spawns := [spawn 0 0, spawn 0 0, spawn 2 999999, spawn 2 1000000, spawn 4 0]
    (∀ s ∈ spawns, s.isLeap = false) ∧ spawns.Pairwise Spawn.BeginsNoLater ∧
      (nextFit 2000 spawns).map (·.members.length) = [3, 2] ∧
      (ofSpawns 2000 spawns).flatMap members = spawns ∧
      ofSpawns 2000 spawns = nextFit 2000 spawns := by
  intro spawn spawns
  have leap : ∀ s ∈ spawns, s.isLeap = false := by decide
  have ordered : spawns.Pairwise Spawn.BeginsNoLater := by decide
  obtain ⟨runs, -, fit⟩ := runs_of_ordered 2000 spawns leap ordered
  exact ⟨leap, ordered, by decide, runs, fit⟩

end Cluster

end AgentThreads
