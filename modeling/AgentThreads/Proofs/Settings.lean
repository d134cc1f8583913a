import AgentThreads.Proofs.Outcomes
import AgentThreads.Proofs.Text.Unsigned
import AgentThreads.Settings

/-!
# What settles an option

Each option of a grouping is settled by its own override and its own variable. An override is taken as
it is, even if it is empty. Without one the variable counts, unless it is blank, and without both the
default. Only the threshold can be refused: if it is not overridden, and its variable is neither blank
nor an unsigned number with blanks around it.
-/

namespace AgentThreads.Settings

/-- There are nothing but blanks in the value. -/
def IsBlank (value : String) : Prop :=
  ∀ c ∈ value.toList, Text.isBlank c

theorem isAllBlank_iff {value : String} : Text.isAllBlank value.toList ↔ IsBlank value :=
  List.all_eq_true

instance (value : String) : Decidable (IsBlank value) :=
  decidable_of_iff _ isAllBlank_iff

/-- The value is a threshold. -/
def IsThreshold (value : String) (n : Nat) : Prop :=
  Text.IsUnsigned value.toList n

/-- What settles an option, given its override and the value of its variable, where `Reads` says what
values of the variable stand for. -/
inductive Settles {α : Type} (Reads : String → α → Prop) (default : α) :
    Option α → Option String → α → Prop where
  /-- An override goes before everything else. -/
  | override (a : α) (value : Option String) : Settles Reads default (some a) value a
  /-- A variable that is not blank is read. -/
  | read {value : String} {a : α} (hvalue : ¬IsBlank value) (ha : Reads value a) :
    Settles Reads default none (some value) a
  /-- A blank variable leaves the default. -/
  | blank {value : String} (hvalue : IsBlank value) : Settles Reads default none (some value) default
  /-- A variable that is not set leaves the default. -/
  | unset : Settles Reads default none none default

/-! ### Values of variables -/

theorem valueOf?_eq_some_iff {env : Environment} {key value : String} :
    valueOf? env key = some value ↔ env key = some value ∧ ¬IsBlank value := by
  rw [valueOf?, Option.filter_eq_some_iff, Bool.not_eq_true', ← Bool.not_eq_true, isAllBlank_iff]

theorem valueOf?_eq_none_iff {env : Environment} {key : String} :
    valueOf? env key = none ↔ ∀ value, env key = some value → IsBlank value := by
  simp only [Option.eq_none_iff_forall_ne_some, ne_eq, valueOf?_eq_some_iff, not_and, not_not]

/-- An option of which the override or the variable gives a value, and what settles it. -/
theorem settles_iff {α : Type} {Reads : String → α → Prop} {default a : α} {env : Environment}
    {key : String} {override : Option α} :
    Settles Reads default override (env key) a ↔
      override = some a ∨ override = none ∧
        ((∃ value, valueOf? env key = some value ∧ Reads value a) ∨
          valueOf? env key = none ∧ default = a) := by
  constructor
  · intro h
    generalize hkey : env key = value at h
    cases h with
    | override => exact .inl rfl
    | read hvalue ha => exact .inr ⟨rfl, .inl ⟨_, valueOf?_eq_some_iff.mpr ⟨hkey, hvalue⟩, ha⟩⟩
    | blank hvalue =>
      refine .inr ⟨rfl, .inr ⟨valueOf?_eq_none_iff.mpr fun _ hset => ?_, rfl⟩⟩
      exact Option.some_inj.mp (hkey.symm.trans hset) ▸ hvalue
    | unset =>
      refine .inr ⟨rfl, .inr ⟨valueOf?_eq_none_iff.mpr fun _ hset => ?_, rfl⟩⟩
      cases hkey.symm.trans hset
  · rintro (rfl | ⟨rfl, ⟨value, hvalue, ha⟩ | ⟨hnone, rfl⟩⟩)
    · exact .override a _
    · obtain ⟨hset, hvalue⟩ := valueOf?_eq_some_iff.mp hvalue
      exact hset ▸ .read hvalue ha
    · cases hset : env key with
      | none => exact .unset
      | some value => exact .blank (valueOf?_eq_none_iff.mp hnone value hset)

/-- If values of a variable stand for one thing, an option is settled in one way. -/
theorem Settles.unique {α : Type} {Reads : String → α → Prop} {default a b : α}
    {override : Option α} {value : Option String} (ha : Settles Reads default override value a)
    (hb : Settles Reads default override value b)
    (single : ∀ value a b, Reads value a → Reads value b → a = b) : a = b := by
  cases ha with
  | override => cases hb; rfl
  | read hvalue ha =>
    cases hb with
    | read _ hb => exact single _ a b ha hb
    | blank hblank => exact absurd hblank hvalue
  | blank hblank =>
    cases hb with
    | read hvalue _ => exact absurd hblank hvalue
    | blank => rfl
  | unset => cases hb; rfl

/-! ### Options -/

/-- What settles an option that is a text. -/
theorem settles_eq_iff {default a : String} {env : Environment} {key : String}
    {override : Option String} :
    Settles Eq default override (env key) a ↔
      (override <|> valueOf? env key).getD default = a := by
  rw [settles_iff]
  cases override with
  | some text => simp
  | none => cases valueOf? env key <;> simp

theorem threshold_eq_ok_iff {value : String} {n : Nat} :
    threshold value = .ok n ↔ IsThreshold value n := by
  rw [IsThreshold, ← Text.unsigned?_trim_eq_some_iff, threshold]
  split
  · case h_1 m hm => rw [hm, Except.ok.injEq, Option.some_inj]
  · case h_2 hm => simp [hm]

theorem threshold_eq_error_iff {value : String} {failure : Failure} :
    threshold value = .error failure ↔
      (∀ n, ¬IsThreshold value n) ∧ failure = .invalidSetting thresholdKey value := by
  simp only [← threshold_eq_ok_iff]
  rw [threshold]
  split
  · simp
  · simp [eq_comm]

theorem resolveThreshold_eq_ok_iff {env : Environment} {override : Option Nat} {n : Nat} :
    resolveThreshold env override = .ok n ↔
      Settles IsThreshold ({} : Options).thresholdMs override (env thresholdKey) n := by
  rw [settles_iff]
  unfold resolveThreshold
  cases override with
  | some m => simp
  | none => cases valueOf? env thresholdKey <;> simp [threshold_eq_ok_iff]

theorem resolveThreshold_eq_error_iff {env : Environment} {override : Option Nat}
    {failure : Failure} :
    resolveThreshold env override = .error failure ↔
      override = none ∧ ∃ value, valueOf? env thresholdKey = some value ∧
        threshold value = .error failure := by
  unfold resolveThreshold
  cases override with
  | some m => simp
  | none => cases valueOf? env thresholdKey <;> simp

theorem resolve_eq_ok_iff {env : Environment} {overrides : Overrides} {options : Options} :
    resolve env overrides = .ok options ↔
      Settles Eq "Task" overrides.spawnTool (env spawnToolKey) options.spawnTool ∧
      Settles Eq "TaskOutput" overrides.pollTool (env pollToolKey) options.pollTool ∧
      Settles IsThreshold 2000 overrides.thresholdMs (env thresholdKey) options.thresholdMs := by
  rw [settles_eq_iff, settles_eq_iff, ← resolveThreshold_eq_ok_iff, resolve, bind_eq_ok_iff]
  constructor
  · rintro ⟨n, hn, ⟨⟩⟩
    exact ⟨rfl, rfl, hn⟩
  · obtain ⟨spawnTool, pollTool, thresholdMs⟩ := options
    rintro ⟨rfl, rfl, hn⟩
    exact ⟨_, hn, rfl⟩

theorem resolve_eq_error_iff {env : Environment} {overrides : Overrides} {failure : Failure} :
    resolve env overrides = .error failure ↔
      overrides.thresholdMs = none ∧ ∃ value, env thresholdKey = some value ∧ ¬IsBlank value ∧
        (∀ n, ¬IsThreshold value n) ∧ failure = .invalidSetting thresholdKey value := by
  have same : resolve env overrides = .error failure ↔
      resolveThreshold env overrides.thresholdMs = .error failure := by
    rw [resolve]
    cases resolveThreshold env overrides.thresholdMs with
    | error e => simp
    | ok n => simp [pure, Except.pure]
  rw [same, resolveThreshold_eq_error_iff]
  simp only [valueOf?_eq_some_iff, threshold_eq_error_iff, and_assoc]

/-- **Settings are settled one by one**: there are options if and only if each of the three is settled,
by its own override and its own variable. The alternative is that the threshold has no override and a
variable that is neither blank nor a threshold, and then the failure carries the value as it is. So in
two environments with overrides, of which both give options, an option is the same if its override and
its variable are. -/
theorem resolve_settles_each (env : Environment) (overrides : Overrides) :
    (∀ options, resolve env overrides = .ok options ↔
      Settles Eq "Task" overrides.spawnTool (env "AGROUP_SPAWN_TOOL") options.spawnTool ∧
      Settles Eq "TaskOutput" overrides.pollTool (env "AGROUP_POLL_TOOL") options.pollTool ∧
      Settles IsThreshold 2000 overrides.thresholdMs (env "AGROUP_PARALLEL_THRESHOLD_MS")
        options.thresholdMs) ∧
    (∀ failure, resolve env overrides = .error failure ↔
      overrides.thresholdMs = none ∧ ∃ value, env "AGROUP_PARALLEL_THRESHOLD_MS" = some value ∧
        ¬IsBlank value ∧ (∀ n, ¬IsThreshold value n) ∧
        failure = .invalidSetting "AGROUP_PARALLEL_THRESHOLD_MS" value) ∧
    ∀ (env' : Environment) (overrides' : Overrides) (options options' : Options),
      resolve env overrides = .ok options → resolve env' overrides' = .ok options' →
        (overrides.spawnTool = overrides'.spawnTool → env spawnToolKey = env' spawnToolKey →
          options.spawnTool = options'.spawnTool) ∧
        (overrides.pollTool = overrides'.pollTool → env pollToolKey = env' pollToolKey →
          options.pollTool = options'.pollTool) ∧
        (overrides.thresholdMs = overrides'.thresholdMs → env thresholdKey = env' thresholdKey →
          options.thresholdMs = options'.thresholdMs) := by
  refine ⟨fun _ => resolve_eq_ok_iff, fun _ => resolve_eq_error_iff, ?_⟩
  intro env' overrides' options options' h h'
  obtain ⟨spawnTool, pollTool, threshold⟩ := resolve_eq_ok_iff.mp h
  obtain ⟨spawnTool', pollTool', threshold'⟩ := resolve_eq_ok_iff.mp h'
  refine ⟨fun hoverride hkey => ?_, fun hoverride hkey => ?_, fun hoverride hkey => ?_⟩
  · rw [← hoverride, ← hkey] at spawnTool'
    exact spawnTool.unique spawnTool' fun _ _ _ ha hb => ha.symm.trans hb
  · rw [← hoverride, ← hkey] at pollTool'
    exact pollTool.unique pollTool' fun _ _ _ ha hb => ha.symm.trans hb
  · rw [← hoverride, ← hkey] at threshold'
    exact threshold.unique threshold' fun _ _ _ => Text.IsUnsigned.unique

/-- A blank variable, an empty override, and a threshold with blanks around it on one side; on the other
side a threshold that is overridden and whose variable is none. -/
theorem resolve_settles_each_overridden :
    let env (threshold : String) : Environment := fun key =>
      if key = spawnToolKey then some "\u2003" else
      if key = pollToolKey then some "wait" else
      if key = thresholdKey then some threshold else none
    let here := env "\u00a0+007\n"
    let there := env "soon"
    resolve here { pollTool := some "" } = .ok ⟨"Task", "", 7⟩ ∧
      resolve there { thresholdMs := some 250 } = .ok ⟨"Task", "wait", 250⟩ ∧
      here spawnToolKey = there spawnToolKey ∧
      (⟨"Task", "", 7⟩ : Options).spawnTool = (⟨"Task", "wait", 250⟩ : Options).spawnTool := by
  intro env here there
  have blank : here spawnToolKey = some "\u2003" ∧ there spawnToolKey = some "\u2003" := ⟨rfl, rfl⟩
  have typed : here thresholdKey = some "\u00a0+007\n" := rfl
  have wait : there pollToolKey = some "wait" := rfl
  have seven : IsThreshold "\u00a0+007\n" 7 :=
    Text.unsigned?_trim_eq_some_iff.mp (by decide +kernel)
  have first : resolve here { pollTool := some "" } = .ok ⟨"Task", "", 7⟩ := by
    rw [resolve_eq_ok_iff, blank.1, typed]
    exact ⟨.blank (by decide +kernel), .override "" _, .read (by decide +kernel) seven⟩
  have second : resolve there { thresholdMs := some 250 } = .ok ⟨"Task", "wait", 250⟩ := by
    rw [resolve_eq_ok_iff, blank.2, wait]
    exact ⟨.blank (by decide +kernel), .read (by decide +kernel) rfl, .override 250 _⟩
  have same := ((resolve_settles_each here _).2.2 there _ _ _ first second).1 rfl rfl
  exact ⟨first, second, rfl, same⟩

end AgentThreads.Settings
