import AgentThreads.Grouping.Cluster
import AgentThreads.Proofs.Grouping.Discovery
import Mathlib.Data.List.Pairwise
import Mathlib.Data.List.Perm.Basic

/-!
# Clustering

Clusters share out the spawns: each spawn is a member of one cluster, the members of a cluster stand
as the spawns do, and the clusters stand as their anchors do. Spawns that are far from every anchor
form clusters of their own.
-/

namespace AgentThreads.Cluster

variable {threshold : Nat}

theorem ofSpawns_cons (anchor : Spawn) (later : List Spawn) :
    ofSpawns threshold (anchor :: later) =
      ⟨anchor, later.filter (anchor.isNear threshold)⟩ ::
        ofSpawns threshold (far threshold anchor later) := by
  rw [ofSpawns]

/-! ### Sharing out -/

/-- The members of the clusters are the spawns, each once. -/
theorem flatMap_members_perm (spawns : List Spawn) :
    ((ofSpawns threshold spawns).flatMap members).Perm spawns := by
  induction spawns using ofSpawns.induct threshold with
  | case1 => simp [ofSpawns]
  | case2 anchor later ih =>
    rw [ofSpawns_cons, List.flatMap_cons, members, List.cons_append]
    have split := List.filter_append_perm (anchor.isNear threshold) later
    exact ((ih.append_left _).trans split).cons anchor

/-- The clusters stand as their anchors do. -/
theorem map_anchor_sublist (spawns : List Spawn) :
    ((ofSpawns threshold spawns).map (·.anchor)).Sublist spawns := by
  induction spawns using ofSpawns.induct threshold with
  | case1 => simp [ofSpawns]
  | case2 anchor later ih =>
    rw [ofSpawns_cons, List.map_cons]
    exact (ih.trans List.filter_sublist).cons_cons anchor

theorem nodup_ofSpawns {spawns : List Spawn} (hn : spawns.Nodup) :
    (ofSpawns threshold spawns).Nodup :=
  (hn.sublist (map_anchor_sublist spawns)).of_map _

/-- The members of a cluster stand as the spawns do. -/
theorem members_sublist {spawns : List Spawn} {c : Cluster} (hc : c ∈ ofSpawns threshold spawns) :
    c.members.Sublist spawns := by
  induction spawns using ofSpawns.induct threshold with
  | case1 => simp [ofSpawns] at hc
  | case2 anchor later ih =>
    rw [ofSpawns_cons, List.mem_cons] at hc
    rcases hc with rfl | hc
    · exact List.filter_sublist.cons_cons anchor
    · exact ((ih hc).trans List.filter_sublist).cons anchor

theorem anchor_mem_members (c : Cluster) : c.anchor ∈ c.members :=
  List.mem_cons_self

theorem mem_spawns {spawns : List Spawn} {c : Cluster} (hc : c ∈ ofSpawns threshold spawns)
    {s : Spawn} (hs : s ∈ c.members) : s ∈ spawns :=
  (members_sublist hc).subset hs

/-- Every spawn is a member of a cluster. -/
theorem exists_mem_members {spawns : List Spawn} {s : Spawn} (hs : s ∈ spawns) :
    ∃ c ∈ ofSpawns threshold spawns, s ∈ c.members :=
  List.mem_flatMap.mp ((flatMap_members_perm spawns).mem_iff.mpr hs)

/-- A spawn is a member of no two clusters. -/
theorem eq_of_mem_members {spawns : List Spawn} (hn : spawns.Nodup) {c d : Cluster}
    (hc : c ∈ ofSpawns threshold spawns) (hd : d ∈ ofSpawns threshold spawns) {s : Spawn}
    (hsc : s ∈ c.members) (hsd : s ∈ d.members) : c = d := by
  by_contra hne
  have all : ((ofSpawns threshold spawns).flatMap members).Nodup :=
    (flatMap_members_perm spawns).nodup_iff.mpr hn
  have apart := (List.nodup_flatMap.mp all).2
  have symm : Std.Symm (Function.onFun List.Disjoint members) := ⟨fun _ _ h => List.disjoint_symm h⟩
  exact apart.forall hc hd hne hsc hsd

/-! ### Near and far -/

/-- The members of a cluster are near its anchor. -/
theorem isNear_of_mem_others {spawns : List Spawn} {c : Cluster}
    (hc : c ∈ ofSpawns threshold spawns) {s : Spawn} (hs : s ∈ c.others) :
    c.anchor.isNear threshold s := by
  induction spawns using ofSpawns.induct threshold with
  | case1 => simp [ofSpawns] at hc
  | case2 anchor later ih =>
    rw [ofSpawns_cons, List.mem_cons] at hc
    rcases hc with rfl | hc
    · exact (List.mem_filter.mp hs).2
    · exact ih hc

/-- The members of a cluster are far from the anchors of the clusters before it. -/
theorem pairwise_far (spawns : List Spawn) :
    (ofSpawns threshold spawns).Pairwise fun c d =>
      ∀ s ∈ d.members, c.anchor.isNear threshold s = false := by
  induction spawns using ofSpawns.induct threshold with
  | case1 => simp [ofSpawns]
  | case2 anchor later ih =>
    rw [ofSpawns_cons, List.pairwise_cons]
    refine ⟨fun d hd s hs => ?_, ih⟩
    have hfar := (List.mem_filter.mp (mem_spawns hd hs)).2
    simpa using hfar

/-- Spawns that are far from the anchors of those before them leave their clusters as they are, and
form clusters of their own. -/
theorem ofSpawns_append {before after : List Spawn}
    (h : ∀ c ∈ ofSpawns threshold before, ∀ s ∈ after, c.anchor.isNear threshold s = false) :
    ofSpawns threshold (before ++ after) =
      ofSpawns threshold before ++ ofSpawns threshold after := by
  induction before using ofSpawns.induct threshold with
  | case1 => simp [ofSpawns]
  | case2 anchor later ih =>
    rw [ofSpawns_cons] at h ⊢
    have hfar : ∀ s ∈ after, anchor.isNear threshold s = false :=
      h ⟨anchor, later.filter (anchor.isNear threshold)⟩ List.mem_cons_self
    have hnear : after.filter (anchor.isNear threshold) = [] :=
      List.filter_eq_nil_iff.mpr fun s hs => by simp [hfar s hs]
    have hrest : far threshold anchor after = after :=
      List.filter_eq_self.mpr fun s hs => by simp [hfar s hs]
    rw [List.cons_append, ofSpawns_cons, List.filter_append, hnear, List.append_nil, far,
      List.filter_append, ← far, ← far, hrest,
      ih fun c hc => h c (List.mem_cons_of_mem _ hc), List.cons_append]

end AgentThreads.Cluster

namespace AgentThreads.Spawn.Discovered

variable {tool : String} {events : List Placed} {spawns : List Spawn} {threshold : Nat}

/-- A search by a spawn finds the cluster it is a member of. -/
theorem find?_contains_iff (h : Discovered tool events spawns) (ho : Placed.InOrder events)
    {s : Spawn} (hs : s ∈ spawns) {c : Cluster} :
    (Cluster.ofSpawns threshold spawns).find? (·.contains s) = some c ↔
      c ∈ Cluster.ofSpawns threshold spawns ∧ s ∈ c.members := by
  have contains_iff : ∀ d ∈ Cluster.ofSpawns threshold spawns,
      d.contains s = true ↔ s ∈ d.members := by
    intro d hd
    rw [Cluster.contains, List.any_eq_true]
    constructor
    · rintro ⟨t, ht, hpos⟩
      have htm := Cluster.mem_spawns hd ht
      have hcall := ho.eq_of_position_eq (h.call_mem htm) (h.call_mem hs) (by simpa using hpos)
      rwa [← List.inj_on_of_nodup_map (h.inOrder ho).nodup htm hs hcall]
    · exact fun hm => ⟨s, hm, by simp⟩
  constructor
  · intro hf
    have hc := List.mem_of_find?_eq_some hf
    have hm := List.find?_some hf
    exact ⟨hc, (contains_iff c hc).mp hm⟩
  · rintro ⟨hc, hm⟩
    cases hf : (Cluster.ofSpawns threshold spawns).find? (·.contains s) with
    | none => exact absurd ((contains_iff c hc).mpr hm) (List.find?_eq_none.mp hf c hc)
    | some d =>
      have hd := List.mem_of_find?_eq_some hf
      have hmd := List.find?_some hf
      rw [Cluster.eq_of_mem_members (h.nodup ho) hd hc ((contains_iff d hd).mp hmd) hm]

end AgentThreads.Spawn.Discovered
