import AgentThreads.Proofs.Grouping.Coverage
import AgentThreads.Proofs.Grouping.Results

/-!
# Pairing

Which result stands with which call. A call has the last result that carries its tool id, unless it
is a spawn call that repeats the id of an earlier one: then it stands alone. A group refers to the
results of the events at its head, the event of a message or the spawns of the entries, and to no
others. So a result is referred to as often as there are such calls for it.
-/

namespace AgentThreads

/-! ### Last results -/

namespace ResultIndex

/-- The last result among events that carries a tool id. -/
structure IsLast (events : List Placed) (toolId : String) (r : Placed) : Prop where
  /-- It is one of the events. -/
  mem : r ∈ events
  /-- It is a result that carries the tool id. -/
  answers : answers toolId r
  /-- No other such result stands behind it. -/
  last : ∀ q ∈ events, ResultIndex.answers toolId q → q.position ≤ r.position

theorem answers_iff {toolId : String} {p : Placed} :
    answers toolId p ↔ p.event.isResult ∧ p.event.metadata.toolId? = some toolId := by
  simp [answers]

/-- A result is the last one for one id only. -/
theorem IsLast.toolId_eq {events : List Placed} {id id' : String} {r : Placed}
    (h : IsLast events id r) (h' : IsLast events id' r) : id = id' :=
  Option.some_inj.mp ((answers_iff.mp h.answers).2.symm.trans (answers_iff.mp h'.answers).2)

variable {events : List Placed} (ho : Placed.InOrder events)
include ho

/-- The index of events finds the last result for a tool id. -/
theorem find?_eq_some_iff_isLast {toolId : String} {r : Placed} :
    (ofPlaced events).find? toolId = some r ↔ IsLast events toolId r := by
  have backwards : events.reverse.Pairwise fun p q => q.position < p.position :=
    List.pairwise_reverse.mpr ho
  rw [find?_ofPlaced, find?_eq_some_iff_first (fun _ _ => Nat.lt_asymm) backwards]
  simp only [List.mem_reverse]
  constructor
  · rintro ⟨hr, hanswers, hfirst⟩
    refine ⟨hr, hanswers, fun q hq hq' => ?_⟩
    rcases hfirst q hq hq' with rfl | hlt
    · exact Nat.le_refl _
    · exact Nat.le_of_lt hlt
  · rintro ⟨hr, hanswers, hlast⟩
    refine ⟨hr, hanswers, fun q hq hq' => ?_⟩
    rcases Nat.eq_or_lt_of_le (hlast q hq hq') with heq | hlt
    · exact .inl (ho.eq_of_position_eq hq hr heq)
    · exact .inr hlt

/-- A call has the last result for its tool id. -/
theorem resultOf_eq_some_iff_isLast {e : Event} {r : Placed} :
    (ofPlaced events).resultOf e = some r ↔
      e.isCall ∧ ∃ id, e.metadata.toolId? = some id ∧ IsLast events id r := by
  unfold resultOf
  split
  · case isTrue hcall => simp [hcall, Option.bind_eq_some_iff, find?_eq_some_iff_isLast ho]
  · case isFalse hcall => simp [hcall]

end ResultIndex

/-! ### Repeated ids -/

/-- The event is a spawn call whose tool id an earlier spawn call carries. -/
def Placed.repeatsCall (tool : String) (events : List Placed) (p : Placed) : Bool :=
  (Spawn.ofPlaced? tool p).any fun s =>
    events.any fun q =>
      q.position < p.position && (Spawn.ofPlaced? tool q).any (·.toolId == s.toolId)

theorem Placed.repeatsCall_iff {tool : String} {events : List Placed} {p : Placed} :
    p.repeatsCall tool events ↔ ∃ s, Spawn.ofPlaced? tool p = some s ∧
      ∃ t ∈ Spawn.callsAmong tool events, t.toolId = s.toolId ∧ t.call.position < p.position := by
  simp only [repeatsCall, Option.any_eq_true, List.any_eq_true, Bool.and_eq_true,
    decide_eq_true_eq, beq_iff_eq, Spawn.mem_callsAmong_iff]
  refine exists_congr fun s => and_congr_right fun _ => ?_
  constructor
  · rintro ⟨q, hq, hlt, t, ht, hid⟩
    obtain rfl := (Spawn.ofPlaced?_eq_some_iff.mp ht).2.2
    exact ⟨t, ⟨hq, ht⟩, hid, hlt⟩
  · rintro ⟨t, ⟨hq, ht⟩, hid, hlt⟩
    exact ⟨t.call, hq, hlt, t, ht, hid⟩

namespace Assembly

/-- An assembly knows which calls repeat an id. -/
theorem isRepeat_eq_repeatsCall {events : List Placed} (ho : Placed.InOrder events)
    (results : ResultIndex) (options : Options) {p : Placed} (hp : p ∈ events) :
    (ofPlaced events results options).isRepeat p = p.repeatsCall options.spawnTool events := by
  rw [Bool.eq_iff_iff, Placed.repeatsCall_iff, isRepeat, List.any_eq_true]
  constructor
  · rintro ⟨x, hx, hpos⟩
    obtain ⟨hcall, t, ht, hid, hlt⟩ := (Roster.mem_later_iff ho).mp (List.mem_map_of_mem hx)
    obtain ⟨hmem, hlater⟩ := Spawn.mem_callsAmong_iff.mp hcall
    obtain rfl := ho.eq_of_position_eq hmem hp (by simpa using hpos)
    exact ⟨x.later, hlater, t, ht, hid, hlt⟩
  · rintro ⟨s, hs, t, ht, hid, hlt⟩
    obtain rfl := (Spawn.ofPlaced?_eq_some_iff.mp hs).2.2
    have later := (Roster.mem_later_iff ho).mpr
      ⟨Spawn.mem_callsAmong_iff.mpr ⟨hp, hs⟩, t, ht, hid, hlt⟩
    obtain ⟨x, hx, rfl⟩ := List.mem_map.mp later
    exact ⟨x, hx, by simp⟩

/-- A spawn repeats no id. -/
theorem isRepeat_call {events : List Placed} (ho : Placed.InOrder events) (results : ResultIndex)
    (options : Options) {s : Spawn} (hs : s ∈ (ofPlaced events results options).spawns) :
    (ofPlaced events results options).isRepeat s.call = false := by
  have discovered := Roster.discovered options.spawnTool events
  rw [isRepeat_eq_repeatsCall ho results options (discovered.call_mem hs), ← Bool.not_eq_true,
    Placed.repeatsCall_iff]
  rintro ⟨u, hu, t, ht, hid, hlt⟩
  obtain rfl := Option.some_inj.mp ((discovered.call s hs).symm.trans hu)
  have first := ((Roster.mem_holders_iff ho).mp (List.mem_of_mem_filter hs)).le t ht hid
  omega

end Assembly

/-! ### Heads and results of groups -/

/-- An entry refers to what it carries and to its result. -/
theorem Entry.referenced_perm (e : Entry) : e.referenced.Perm (e.carried ++ e.result.toList) := by
  simp only [referenced, carried, List.cons_append, List.append_assoc]
  refine .cons _ ?_
  rw [← List.append_assoc e.nested]
  exact List.perm_append_comm

namespace Group

/-- The events that may have a result in a group: that of a message, or the spawns of the entries. -/
def heads : Group → List Placed
  | message event _ => [event]
  | subagent entry => [entry.spawn]
  | parallel entries => entries.map (·.spawn)

/-- The results in a group. -/
def results : Group → List Placed
  | message _ result => result.toList
  | subagent entry => entry.result.toList
  | parallel entries => entries.flatMap (·.result.toList)

theorem heads_eq (g : Group) : g.heads = g.message?.toList ++ g.entries.map (·.spawn) := by
  cases g <;> simp [heads, message?, entries]

/-- A group refers to what it carries and to its results. -/
theorem referenced_perm (g : Group) : g.referenced.Perm (g.carried ++ g.results) := by
  cases g with
  | message event result => exact .refl _
  | subagent entry => exact entry.referenced_perm
  | parallel entries =>
    refine .trans ?_ (List.flatMap_append_perm ..).symm
    exact List.Perm.flatMap_left entries fun e _ => e.referenced_perm

theorem flatMap_referenced_perm (groups : List Group) :
    (groups.flatMap referenced).Perm (groups.flatMap carried ++ groups.flatMap results) :=
  (List.Perm.flatMap_left _ fun g _ => g.referenced_perm).trans (List.flatMap_append_perm ..).symm

end Group

namespace Assembly

/-- The result that stands with an event at the head of a group. -/
def paired (a : Assembly) (p : Placed) : Option Placed :=
  if a.isRepeat p then none else a.results.resultOf p.event

namespace Fits

variable {options : Options} {events : List Placed} {a : Assembly} (h : a.Fits options events)
include h

theorem eq_paired_of_message {p : Placed} {result : Option Placed}
    (hg : Group.message p result ∈ a.groups) : p ∈ events ∧ result = a.paired p := by
  obtain ⟨⟨q, role⟩, hx, hat⟩ := List.mem_filterMap.mp hg
  cases role with
  | message =>
    cases hat
    exact ⟨(h.mem_cast_iff.mp hx).1, rfl⟩
  | spawn s =>
    rw [h.groupAt?_spawn hx, Option.map_eq_some_iff] at hat
    obtain ⟨c, -, hgroup⟩ := hat
    have none := a.message?_groupOf c
    rw [hgroup] at none
    cases none
  | result | nested | poll => cases hat

theorem exists_spawn_of_entry {e : Entry} (he : e ∈ a.groups.flatMap Group.entries) :
    ∃ s ∈ a.spawns, e = a.entry s := by
  rw [h.flatMap_entries] at he
  obtain ⟨s, hs, rfl⟩ := List.mem_map.mp he
  exact ⟨s, h.mem_spawns_of_mem_shown hs, rfl⟩

/-! ### Heads -/

theorem flatMap_heads_perm : (a.groups.flatMap Group.heads).Perm
    (a.cast.playing Role.isMessage ++ a.shown.map (·.call)) := by
  have parts : a.groups.flatMap Group.heads =
      a.groups.flatMap fun g => g.message?.toList ++ g.entries.map (·.spawn) :=
    List.flatMap_congr fun g _ => g.heads_eq
  have spawns : (a.groups.flatMap fun g => g.entries.map (·.spawn)) = a.shown.map (·.call) := by
    rw [← List.map_flatMap, h.flatMap_entries, List.map_map]
    rfl
  rw [parts, ← h.filterMap_message?, ← spawns, List.filterMap_eq_flatMap_toList]
  exact (List.flatMap_append_perm ..).symm

/-- No event heads two groups, or one group twice. -/
theorem nodup_heads : (a.groups.flatMap Group.heads).Nodup := by
  rw [h.flatMap_heads_perm.nodup_iff, List.nodup_append']
  refine ⟨?_, ?_, ?_⟩
  · refine h.inOrder.nodup.sublist ?_
    rw [← h.map_fst_cast]
    exact List.filter_sublist.map _
  · refine h.nodup_shown.map_on fun s hs t ht heq => ?_
    have position := congrArg Placed.position heq
    exact h.call_inj (h.mem_spawns_of_mem_shown hs) (h.mem_spawns_of_mem_shown ht) position
  · intro p hmessage hspawn
    obtain ⟨role, hx, hrole⟩ := Role.Cast.mem_playing_iff.mp hmessage
    obtain ⟨s, hs, rfl⟩ := List.mem_map.mp hspawn
    obtain ⟨hp, hplaced⟩ := h.mem_cast_iff.mp hx
    have self := (h.discovered.find?_position_iff h.inOrder hp).mpr
      ⟨h.mem_spawns_of_mem_shown hs, rfl⟩
    cases role with
    | message =>
      have none := (Role.ofPlaced_eq_message_iff.mp hplaced).2.2.2
      rw [self] at none
      cases none
    | result | nested | poll | spawn => cases hrole

theorem mem_of_mem_heads {p : Placed} (hp : p ∈ a.groups.flatMap Group.heads) : p ∈ events := by
  rcases List.mem_append.mp (h.flatMap_heads_perm.mem_iff.mp hp) with hp | hp
  · obtain ⟨role, hx, -⟩ := Role.Cast.mem_playing_iff.mp hp
    exact (h.mem_cast_iff.mp hx).1
  · obtain ⟨s, hs, rfl⟩ := List.mem_map.mp hp
    exact h.discovered.call_mem (h.mem_spawns_of_mem_shown hs)

/-- The heads of the groups are the events that head a group. -/
theorem flatMap_heads_perm_filter : (a.groups.flatMap Group.heads).Perm
    (events.filter fun p => (a.groups.flatMap Group.heads).any (·.position == p.position)) := by
  have nodup := h.inOrder.nodup.sublist (List.filter_sublist (p := fun p =>
    (a.groups.flatMap Group.heads).any (·.position == p.position)))
  refine (List.perm_ext_iff_of_nodup h.nodup_heads nodup).mpr fun p => ?_
  rw [List.mem_filter, List.any_eq_true]
  constructor
  · exact fun hp => ⟨h.mem_of_mem_heads hp, p, hp, beq_self_eq_true _⟩
  · rintro ⟨hp, q, hq, hpos⟩
    obtain rfl := h.inOrder.eq_of_position_eq (h.mem_of_mem_heads hq) hp (by simpa using hpos)
    exact hq

/-- No result is carried. -/
theorem not_isResult_of_mem_carried {p : Placed} (hp : p ∈ a.groups.flatMap Group.carried) :
    p ∈ events ∧ p.event.isResult = false := by
  have playing : ∀ {test : Role → Bool}, test .result = false → p ∈ a.cast.playing test →
      p ∈ events ∧ p.event.isResult = false := by
    intro test htest hmem
    obtain ⟨role, hx, hrole⟩ := Role.Cast.mem_playing_iff.mp hmem
    obtain ⟨hp, rfl⟩ := h.mem_cast_iff.mp hx
    refine ⟨hp, Bool.eq_false_iff.mpr fun hresult => ?_⟩
    rw [Role.ofPlaced_eq_result_iff.mpr hresult, htest] at hrole
    cases hrole
  have hp := h.carried_perm_append.mem_iff.mp hp
  simp only [List.mem_append, List.mem_map, List.mem_flatMap] at hp
  rcases hp with hmessage | ⟨s, hs, rfl⟩ | ⟨s, -, hnested⟩ | ⟨s, -, hpoll⟩
  · exact playing rfl hmessage
  · have hs := h.mem_spawns_of_mem_shown hs
    exact ⟨h.discovered.call_mem hs, h.discovered.isResult_call hs⟩
  · rw [Role.Cast.nestedUnder_eq] at hnested
    exact playing rfl hnested
  · rw [Role.Cast.pollsOf_eq] at hpoll
    exact playing rfl hpoll

/-! ### Results -/

variable (held : ∀ s ∈ a.spawns, a.isRepeat s.call = false)
include held

theorem eq_paired_of_entry {e : Entry} (he : e ∈ a.groups.flatMap Group.entries) :
    e.result = a.paired e.spawn := by
  obtain ⟨s, hs, rfl⟩ := h.exists_spawn_of_entry he
  change a.results.resultOf s.call.event = a.paired s.call
  rw [paired, held s hs]
  rfl

/-- The results in the groups are those paired with their heads. -/
theorem flatMap_results :
    a.groups.flatMap Group.results = (a.groups.flatMap Group.heads).filterMap a.paired := by
  rw [List.filterMap_flatMap]
  refine List.flatMap_congr fun g hg => ?_
  have entry : ∀ e ∈ g.entries, e.result = a.paired e.spawn :=
    fun e he => h.eq_paired_of_entry held (List.mem_flatMap.mpr ⟨g, hg, he⟩)
  cases g with
  | message p result =>
    rw [Group.results, Group.heads, (h.eq_paired_of_message hg).2,
      List.filterMap_eq_flatMap_toList, List.flatMap_singleton]
  | subagent e =>
    rw [Group.results, Group.heads, entry e (List.mem_singleton_self e),
      List.filterMap_eq_flatMap_toList, List.flatMap_singleton]
  | parallel es =>
    rw [Group.results, Group.heads, List.filterMap_map, List.filterMap_eq_flatMap_toList]
    exact List.flatMap_congr fun e he => congrArg _ (entry e he)

/-- A result is referred to as often as it is paired with the head of a group. -/
theorem countP_referenced {r : Placed} (hr : r ∈ events) (hresult : r.event.isResult) :
    (a.groups.flatMap Group.referenced).countP (·.position == r.position) =
      events.countP fun p => (a.groups.flatMap Group.heads).any (·.position == p.position) &&
        (a.paired p).any (·.position == r.position) := by
  -- What is carried is no result, so only what is paired with the heads counts.
  have carried : (a.groups.flatMap Group.carried).countP (·.position == r.position) = 0 := by
    refine List.countP_eq_zero.mpr fun p hp hpos => ?_
    obtain ⟨hmem, hnot⟩ := h.not_isResult_of_mem_carried hp
    obtain rfl := h.inOrder.eq_of_position_eq hmem hr (by simpa using hpos)
    rw [hresult] at hnot
    cases hnot
  rw [(Group.flatMap_referenced_perm _).countP_eq, List.countP_append, carried, Nat.zero_add, h.flatMap_results held,
    List.countP_filterMap, h.flatMap_heads_perm_filter.countP_eq, List.countP_filter]
  refine List.countP_congr fun p _ => ?_
  cases a.paired p <;> simp [and_comm]

end Fits

/-- What the groups of events are made from, with the index of their own results. -/
def ofSession (events : List Placed) (options : Options) : Assembly :=
  ofPlaced events (ResultIndex.ofPlaced events) options

section Session

variable {events : List Placed} (ho : Placed.InOrder events) (options : Options)
include ho

theorem fits_ofSession : (ofSession events options).Fits options events :=
  fits_ofPlaced ho _ options

/-- Which result stands with an event at the head of a group. -/
theorem paired_eq_some_iff {p : Placed} (hp : p ∈ events) {r : Placed} :
    (ofSession events options).paired p = some r ↔
      p.event.isCall ∧ ¬p.repeatsCall options.spawnTool events ∧
        ∃ id, p.event.metadata.toolId? = some id ∧ ResultIndex.IsLast events id r := by
  rw [ofSession, paired, isRepeat_eq_repeatsCall ho _ options hp]
  split
  · case isTrue hrepeat => simp [hrepeat]
  · case isFalse hrepeat =>
    refine (ResultIndex.resultOf_eq_some_iff_isLast ho).trans ?_
    simp [hrepeat]

/-- An entry has the last result for the id of its spawn. -/
theorem entry_result_eq_some_iff {s : Spawn} (hs : s ∈ (ofSession events options).spawns)
    {r : Placed} :
    ((ofSession events options).entry s).result = some r ↔
      ResultIndex.IsLast events s.toolId r := by
  obtain ⟨hcall, hid, -⟩ :=
    Spawn.ofPlaced?_eq_some_iff.mp ((fits_ofSession ho options).discovered.call s hs)
  have isCall : s.call.event.isCall := (Bool.and_eq_true_iff.mp hcall).1
  refine (ResultIndex.resultOf_eq_some_iff_isLast ho).trans ?_
  simp [isCall, hid]

/-- The groups refer to nothing but events of the session. -/
theorem mem_of_mem_referenced {p : Placed}
    (hp : p ∈ (ofSession events options).groups.flatMap Group.referenced) : p ∈ events := by
  have h := fits_ofSession ho options
  rcases List.mem_append.mp ((Group.flatMap_referenced_perm _).mem_iff.mp hp) with hp | hp
  · exact (h.not_isResult_of_mem_carried hp).1
  · rw [h.flatMap_results fun _ hs => isRepeat_call ho _ options hs] at hp
    obtain ⟨q, hq, hpaired⟩ := List.mem_filterMap.mp hp
    obtain ⟨-, -, _, -, hlast⟩ := (paired_eq_some_iff ho options (h.mem_of_mem_heads hq)).mp hpaired
    exact hlast.mem

/-- How often the groups refer to a result. -/
theorem countP_referenced_ofSession {r : Placed} (hr : r ∈ events) (hresult : r.event.isResult) :
    ((ofSession events options).groups.flatMap Group.referenced).countP (·.position == r.position) =
      events.countP fun p =>
        ((ofSession events options).groups.flatMap Group.heads).any (·.position == p.position) &&
          ((ofSession events options).paired p).any (·.position == r.position) :=
  (fits_ofSession ho options).countP_referenced (fun _ hs => isRepeat_call ho _ options hs) hr
    hresult

theorem any_paired_iff {p r : Placed} (hp : p ∈ events) (hr : r ∈ events) :
    ((ofSession events options).paired p).any (·.position == r.position) ↔
      p.event.isCall ∧ ¬p.repeatsCall options.spawnTool events ∧
        ∃ id, p.event.metadata.toolId? = some id ∧ ResultIndex.IsLast events id r := by
  rw [Option.any_eq_true, ← paired_eq_some_iff ho options hp]
  constructor
  · rintro ⟨q, hq, hpos⟩
    obtain ⟨-, -, id, -, hlast⟩ := (paired_eq_some_iff ho options hp).mp hq
    obtain rfl := ho.eq_of_position_eq hlast.mem hr (by simpa using hpos)
    exact hq
  · exact fun hpaired => ⟨r, hpaired, beq_self_eq_true _⟩

/-- The last result for an id is referred to once for each head that is a call with the id and
repeats none. -/
theorem countP_referenced_of_isLast {r : Placed} {id : String}
    (hlast : ResultIndex.IsLast events id r) :
    ((ofSession events options).groups.flatMap Group.referenced).countP (·.position == r.position) =
      events.countP fun p =>
        p.event.isCall && p.event.metadata.toolId? == some id &&
          !p.repeatsCall options.spawnTool events &&
          ((ofSession events options).groups.flatMap Group.heads).any
            (·.position == p.position) := by
  have hresult := (ResultIndex.answers_iff.mp hlast.answers).1
  refine (countP_referenced_ofSession ho options hlast.mem hresult).trans ?_
  refine List.countP_congr fun p hp => ?_
  -- The id for which `r` is the last result is the given one.
  have carries : (∃ id', p.event.metadata.toolId? = some id' ∧ ResultIndex.IsLast events id' r) ↔
      p.event.metadata.toolId? = some id := by
    constructor
    · rintro ⟨id', hid, hlast'⟩
      rw [hid, hlast.toolId_eq hlast']
    · exact fun hid => ⟨id, hid, hlast⟩
  rw [Bool.and_eq_true, any_paired_iff ho options hp hlast.mem, carries]
  simp only [Bool.and_eq_true, beq_iff_eq, Bool.not_eq_true', Bool.not_eq_true]
  constructor
  · rintro ⟨hhead, hcall, hrepeat, hid⟩
    exact ⟨⟨⟨hcall, hid⟩, hrepeat⟩, hhead⟩
  · rintro ⟨⟨⟨hcall, hid⟩, hrepeat⟩, hhead⟩
    exact ⟨hhead, hcall, hrepeat, hid⟩

/-- A result that is the last one for no id is not referred to. -/
theorem countP_referenced_of_not_isLast {r : Placed} (hr : r ∈ events) (hresult : r.event.isResult)
    (hnot : ∀ id, ¬ResultIndex.IsLast events id r) :
    ((ofSession events options).groups.flatMap Group.referenced).countP
      (·.position == r.position) = 0 := by
  refine (countP_referenced_ofSession ho options hr hresult).trans ?_
  refine List.countP_eq_zero.mpr fun p hp hpaired => ?_
  rw [Bool.and_eq_true, any_paired_iff ho options hp hr] at hpaired
  obtain ⟨-, -, -, id, -, hlast⟩ := hpaired
  exact hnot id hlast

end Session

end Assembly

/-- **Pairing**: a message has a result if it is a call with a tool id that repeats no spawn call's
id, and then the last result for its id. An entry has the last result for the id of its spawn. The
groups refer to the last result for an id as often as there are calls with this id among the messages
and the spawns of the entries, repeated spawn calls excepted, and to no other result. -/
theorem Grouping.last_results_paired (events : List Event) (options : Options) :
    let placed := Placed.ofEvents events
    let groups := (ofEvents events options).groups
    (∀ p result, Group.message p result ∈ groups → ∀ r, result = some r ↔
      p.event.isCall ∧ ¬p.repeatsCall options.spawnTool placed ∧
        ∃ id, p.event.metadata.toolId? = some id ∧ ResultIndex.IsLast placed id r) ∧
    (∀ e ∈ groups.flatMap Group.entries, ∃ id, e.spawn.event.metadata.toolId? = some id ∧
      ∀ r, e.result = some r ↔ ResultIndex.IsLast placed id r) ∧
    ∀ r ∈ placed, r.event.isResult →
      (∀ id, ResultIndex.IsLast placed id r →
        (groups.flatMap Group.referenced).countP (·.position == r.position) =
          placed.countP fun p =>
            p.event.isCall && p.event.metadata.toolId? == some id &&
              !p.repeatsCall options.spawnTool placed &&
              (groups.flatMap Group.heads).any (·.position == p.position)) ∧
      ((∀ id, ¬ResultIndex.IsLast placed id r) →
        (groups.flatMap Group.referenced).countP (·.position == r.position) = 0) := by
  intro placed groups
  have ho : Placed.InOrder placed := Placed.inOrder_ofEvents events
  have h := Assembly.fits_ofSession ho options
  refine ⟨fun p result hg r => ?_, fun e he => ?_, fun r hr hresult => ⟨fun id hlast => ?_, ?_⟩⟩
  · obtain ⟨hp, rfl⟩ := h.eq_paired_of_message hg
    exact Assembly.paired_eq_some_iff ho options hp
  · obtain ⟨s, hs, rfl⟩ := h.exists_spawn_of_entry he
    have hid := (Spawn.ofPlaced?_eq_some_iff.mp (h.discovered.call s hs)).2.1
    exact ⟨s.toolId, hid, fun r => Assembly.entry_result_eq_some_iff ho options hs⟩
  · exact Assembly.countP_referenced_of_isLast ho options hlast
  · exact fun hnot => Assembly.countP_referenced_of_not_isLast ho options hr hresult hnot

/-- One id for a spawn, for another call, for a repeated spawn call and for two results, of which one
comes before all the calls: the other is referred to twice. -/
theorem Grouping.last_results_paired_shared_id :
    let call (tool : String) : Event :=
      { kind := .toolCall, time := ⟨0, 0⟩,
        metadata := { toolId := some "a", toolName := some tool } }
    let result : Event :=
      { kind := .toolResult, time := ⟨0, 0⟩, metadata := { toolId := some "a" } }
    let events := [result, call "Task", call "Read", result, call "Task"]
    ResultIndex.IsLast (Placed.ofEvents events) "a" ⟨3, result⟩ ∧
      ((ofEvents events {}).groups.flatMap Group.referenced).countP (·.position == 3) = 2 := by
  intro call result events
  have mem : ⟨3, result⟩ ∈ Placed.ofEvents events := Placed.mem_ofEvents_iff.mpr rfl
  have last : ResultIndex.IsLast (Placed.ofEvents events) "a" ⟨3, result⟩ :=
    ⟨mem, by decide, by decide +kernel⟩
  have count := ((last_results_paired events {}).2.2 ⟨3, result⟩ mem (by decide)).1 "a" last
  exact ⟨last, count.trans (by decide +kernel)⟩

end AgentThreads
