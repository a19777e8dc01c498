import Leitwerk.Policy.Launch
/-!
# A prepared launch plan is valid and stays as it is

Every profile a prepared plan carries may be used, and preparing the plan again
changes nothing: what is left of a configuration is left of that, too.
-/

namespace Leitwerk.Policy

open Engine Precedence

variable {snapshot : PolicySnapshot} {keepsKey : TurnId → Bool} {plan : LaunchPlan} {opts : PrepareLaunchPlanOptions}
  {processId : String}

/-! ## Trimmed ids -/

theorem trimToNull_trimToNull (text : Option String) : trimToNull (trimToNull text) = trimToNull text := by
  cases h : trimToNull text with
  | none => rfl
  | some id => exact trimToNull_trimmed h

theorem truthy_trimToNull (text : Option String) : truthy (trimToNull text) = trimToNull text := by
  unfold truthy trimToNull
  rw [Option.filter_filter]
  simp

/-! ## What validation leaves -/

/-- A profile without an issue is usable. -/
theorem modelIssue_none {profileId : Option String} {modelTarget : ModelTarget} {id : String}
    (h : modelIssue snapshot processId profileId modelTarget = none) (hid : truthy profileId = some id) :
    Usable snapshot processId none id := by
  unfold modelIssue at h
  rw [hid] at h
  dsimp only at h
  split at h
  · rename_i hv
    obtain ⟨-, -, s, hs, husable⟩ := validateSelection_ok hv
    cases hs
    exact husable
  · cases h

/-- The target of a check only words its issue. -/
theorem modelIssue_isNone (profileId : Option String) (target other : ModelTarget) :
    (modelIssue snapshot processId profileId target).isNone = (modelIssue snapshot processId profileId other).isNone := by
  unfold modelIssue
  split
  · rfl
  · split <;> rfl

/-- The turn configs of a configuration as it is stored: trimmed profiles of turns that can be keys. -/
def Normal (turnConfigs : TurnConfigs) : Prop :=
  ∀ x ∈ turnConfigs, assignable x.1 = true ∧ ∃ id, x.2 = some id ∧ trimToNull (some id) = some id

theorem normal_normalize (input : LaunchModelConfigInput) : Normal (normalizeLaunchModelConfigInput input).turnConfigs := by
  intro x hx
  obtain ⟨⟨turnId, modelProfileId⟩, -, hx⟩ := List.mem_filterMap.1 hx
  dsimp only at hx
  split at hx
  · rename_i ha
    obtain ⟨id, hid, rfl⟩ := Option.map_eq_some_iff.1 hx
    exact ⟨ha, id, rfl, trimToNull_trimmed hid⟩
  · cases hx

/-- Rebuilding normal turn configs entry by entry keeps those that pass. -/
theorem filterMap_normal {turnConfigs : TurnConfigs} (h : Normal turnConfigs) (keep : TurnId × Option String → Bool) :
    (turnConfigs.filterMap fun x => if keep x = true then (trimToNull x.2).map fun id => (x.1, some id) else none) =
      turnConfigs.filter keep := by
  induction turnConfigs with
  | nil => rfl
  | cons x rest ih =>
    obtain ⟨-, id, hid, htrim⟩ := h x (List.mem_cons_self ..)
    have ih := ih fun y hy => h y (List.mem_cons_of_mem _ hy)
    obtain ⟨turnId, modelProfileId⟩ := x
    subst hid
    rw [List.filterMap_cons, List.filter_cons, ih]
    by_cases hk : keep (turnId, some id) = true
    · simp [hk, htrim]
    · simp [hk]

theorem normalize_normal {input : LaunchModelConfigInput} (h : Normal input.turnConfigs) :
    (normalizeLaunchModelConfigInput input).turnConfigs = input.turnConfigs := by
  have heq := filterMap_normal h fun x => assignable x.1
  refine Eq.trans heq (List.filter_eq_self.2 fun x hx => (h x hx).1)

theorem normal_merge (base override : LaunchModelConfigInput) : Normal (mergeModelConfig base override).turnConfigs := by
  unfold mergeModelConfig
  dsimp only
  split
  · exact normal_normalize _
  · exact normal_normalize _

/-- The configuration that is validated, without its second normalization. -/
theorem normalizedConfig_eq : normalizedConfig keepsKey plan opts =
    mergeModelConfig (if opts.replaceModelConfig then {} else plan.baseConfig keepsKey) opts.modelConfig := by
  unfold normalizedConfig
  generalize (if opts.replaceModelConfig = true then ({} : LaunchModelConfigInput) else plan.baseConfig keepsKey) = base
  have hturns := normalize_normal (normal_merge base opts.modelConfig)
  have hdefault : (normalizeLaunchModelConfigInput (mergeModelConfig base opts.modelConfig)).defaultModelProfileId =
      (mergeModelConfig base opts.modelConfig).defaultModelProfileId := by
    show trimToNull ((trimToNull opts.modelConfig.defaultModelProfileId).or (trimToNull base.defaultModelProfileId)) =
      (trimToNull opts.modelConfig.defaultModelProfileId).or (trimToNull base.defaultModelProfileId)
    cases h : trimToNull opts.modelConfig.defaultModelProfileId with
    | none => exact trimToNull_trimToNull _
    | some id => exact trimToNull_trimmed h
  generalize normalizeLaunchModelConfigInput (mergeModelConfig base opts.modelConfig) = n at hturns hdefault
  cases n
  cases hm : mergeModelConfig base opts.modelConfig
  rw [hm] at hturns hdefault
  cases hturns
  cases hdefault
  rfl

theorem normal_normalizedConfig : Normal (normalizedConfig keepsKey plan opts).turnConfigs := normal_normalize _

theorem trimmed_normalizedConfig : trimToNull (normalizedConfig keepsKey plan opts).defaultModelProfileId =
    (normalizedConfig keepsKey plan opts).defaultModelProfileId := trimToNull_trimToNull _

/-- The turns that are left are those without an issue. -/
theorem validConfig_turnConfigs {normalized : LaunchModelConfigInput} (h : Normal normalized.turnConfigs) :
    (validConfig snapshot processId normalized).turnConfigs =
      normalized.turnConfigs.filter fun x => (turnIssue snapshot processId x.1 x.2).isNone :=
  filterMap_normal h fun x => (turnIssue snapshot processId x.1 x.2).isNone

theorem normal_validConfig {normalized : LaunchModelConfigInput} (h : Normal normalized.turnConfigs) :
    Normal (validConfig snapshot processId normalized).turnConfigs := by
  rw [validConfig_turnConfigs h]
  exact fun x hx => h x (List.mem_of_mem_filter hx)

theorem trimmed_validConfig : trimToNull (validConfig snapshot processId (normalizedConfig keepsKey plan
    opts)).defaultModelProfileId = (validConfig snapshot processId (normalizedConfig keepsKey plan opts)).defaultModelProfileId := by
  unfold validConfig
  dsimp only
  split
  · exact trimmed_normalizedConfig
  · rfl

/-- What is left of a configuration is left of a mix of both. -/
theorem validConfig_again {normalized again : LaunchModelConfigInput} (h : Normal normalized.turnConfigs)
    (hd : again.defaultModelProfileId = normalized.defaultModelProfileId ∨
      again.defaultModelProfileId = (validConfig snapshot processId normalized).defaultModelProfileId)
    (ht : again.turnConfigs = normalized.turnConfigs ∨
      again.turnConfigs = (validConfig snapshot processId normalized).turnConfigs) :
    validConfig snapshot processId again = validConfig snapshot processId normalized := by
  have hnormal : Normal again.turnConfigs := by
    rcases ht with ht | ht <;> rw [ht]
    · exact h
    · exact normal_validConfig h
  have hdefault : (validConfig snapshot processId again).defaultModelProfileId =
      (validConfig snapshot processId normalized).defaultModelProfileId := by
    unfold validConfig at hd ⊢
    dsimp only at hd ⊢
    rcases hd with hd | hd
    · rw [hd]
    · rw [hd]
      by_cases hvalid : (modelIssue snapshot processId normalized.defaultModelProfileId .defaultModel).isNone = true
      · rw [if_pos hvalid, if_pos hvalid]
      · rw [if_neg hvalid, ite_self]
  have hturns : (validConfig snapshot processId again).turnConfigs =
      (validConfig snapshot processId normalized).turnConfigs := by
    rw [validConfig_turnConfigs hnormal]
    rcases ht with ht | ht <;> rw [ht]
    · exact (validConfig_turnConfigs h).symm
    · rw [validConfig_turnConfigs h, List.filter_filter]
      simp
  generalize validConfig snapshot processId again = a at hdefault hturns
  generalize validConfig snapshot processId normalized = b at hdefault hturns
  cases a
  cases b
  cases hdefault
  cases hturns
  rfl

/-! ## The configuration of the prepared plan -/

/-- Normal turn configs parse to what was serialized, as far as a record keeps their keys. -/
theorem parse_serialize {turnConfigs : TurnConfigs} (h : Normal turnConfigs) :
    parseStrictInstanceTurnConfigsJson keepsKey (serializeInstanceTurnConfigs turnConfigs) =
      .ok (turnConfigs.filter fun x => keepsKey x.1) := by
  have hentries : (turnConfigs.filterMap fun x => (trimToNull x.2).map fun id => (x.1, id)).map
      (fun x => (x.1, TurnConfigValue.config (some x.2))) = turnConfigs.map fun x => (x.1, .config x.2) := by
    rw [List.map_filterMap, ← List.filterMap_eq_map]
    refine List.filterMap_congr fun x hx => ?_
    obtain ⟨-, id, hid, htrim⟩ := h x hx
    simp [hid, htrim]
  have hparse : parseStrictInstanceTurnConfigsJson keepsKey (.object (turnConfigs.map fun x => (x.1, .config x.2))) =
      .ok (turnConfigs.filter fun x => keepsKey x.1) := by
    unfold parseStrictInstanceTurnConfigsJson
    dsimp only
    rw [List.filter_map]
    have hnone : ((turnConfigs.filter ((fun x => keepsKey x.1) ∘ fun x => (x.1, TurnConfigValue.config x.2))).map
        fun x => (x.1, TurnConfigValue.config x.2)).find? (fun x => x.2 == .notObject) = none := by
      rw [List.find?_eq_none]
      intro x hx
      obtain ⟨y, -, rfl⟩ := List.mem_map.1 hx
      simp
    rw [hnone]
    dsimp only
    rw [List.filter_map, List.map_map, List.filter_eq_self.2 fun x hx => ?_]
    · refine congrArg Except.ok (Eq.trans (List.map_congr_left fun x hx => ?_) (List.map_id _))
      obtain ⟨-, id, hid, htrim⟩ := h x (List.mem_of_mem_filter hx)
      simp [hid, htrim, Prod.ext_iff]
    · exact (h x (List.mem_of_mem_filter hx)).1
  unfold serializeInstanceTurnConfigs
  cases hl : turnConfigs.filterMap fun x => (trimToNull x.2).map fun id => (x.1, id) with
  | nil =>
    rw [hl] at hentries
    rw [List.map_eq_nil_iff.1 hentries.symm]
    rfl
  | cons entry rest =>
    dsimp only
    rw [← hl, hentries]
    exact hparse

/-- The configuration of a prepared plan is what was left of the validated one. -/
theorem baseConfig_prepared {modelConfig : LaunchModelConfigInput} {selected : Option String}
    (h : Normal modelConfig.turnConfigs) (hk : ∀ x ∈ modelConfig.turnConfigs, keepsKey x.1 = true) :
    (preparedPlan snapshot plan modelConfig selected).baseConfig keepsKey = modelConfig := by
  have hparsed : (preparedPlan snapshot plan modelConfig selected).parsed keepsKey = .ok modelConfig.turnConfigs := by
    refine (parse_serialize h).trans ?_
    rw [List.filter_eq_self.2 hk]
  unfold LaunchPlan.baseConfig
  rw [hparsed]
  rfl

/-- Turn configs that were parsed have keys a record keeps. -/
theorem keepsKey_base {x : TurnId × Option String}
    (hx : x ∈ (normalizeLaunchModelConfigInput (plan.baseConfig keepsKey)).turnConfigs) : keepsKey x.1 = true := by
  obtain ⟨⟨turnId, modelProfileId⟩, hmem, hx⟩ := List.mem_filterMap.1 hx
  dsimp only at hx
  split at hx
  · obtain ⟨id, -, rfl⟩ := Option.map_eq_some_iff.1 hx
    unfold LaunchPlan.baseConfig LaunchPlan.parsed parseStrictInstanceTurnConfigsJson at hmem
    dsimp only at hmem
    split at hmem
    · rename_i turnConfigs hparsed
      split at hparsed
      · cases hparsed
        cases hmem
      · cases hparsed
      · cases hparsed
      · split at hparsed
        · cases hparsed
        · cases hparsed
          obtain ⟨y, hy, heq⟩ := List.mem_map.1 hmem
          have hkeeps := (List.mem_filter.1 (List.mem_of_mem_filter hy)).2
          obtain ⟨t, v⟩ := y
          cases v <;> cases heq <;> exact hkeeps
    · cases hmem
  · cases hx

/-- Turn configs that are validated have keys a record keeps, if the options' have. -/
theorem keepsKey_normalized (hk : ∀ x ∈ opts.modelConfig.turnConfigs, keepsKey x.1 = true) {x : TurnId × Option String}
    (hx : x ∈ (normalizedConfig keepsKey plan opts).turnConfigs) : keepsKey x.1 = true := by
  rw [normalizedConfig_eq] at hx
  unfold mergeModelConfig at hx
  dsimp only at hx
  split at hx
  · obtain ⟨⟨turnId, modelProfileId⟩, hmem, hx⟩ := List.mem_filterMap.1 hx
    dsimp only at hx
    split at hx
    · obtain ⟨id, -, rfl⟩ := Option.map_eq_some_iff.1 hx
      exact hk (turnId, modelProfileId) hmem
    · cases hx
  · cases hr : opts.replaceModelConfig with
    | true =>
      rw [hr] at hx
      cases hx
    | false =>
      rw [hr] at hx
      exact keepsKey_base hx

section
variable {modelConfig : LaunchModelConfigInput} (selected : Option String)

/-- Preparing a prepared plan validates, field by field, what was validated or what was left of it. -/
theorem normalizedConfig_again (hc : modelConfig = validConfig snapshot processId (normalizedConfig keepsKey plan opts)) :
    ((normalizedConfig keepsKey (preparedPlan snapshot plan modelConfig selected) opts).defaultModelProfileId =
        (normalizedConfig keepsKey plan opts).defaultModelProfileId ∨
      (normalizedConfig keepsKey (preparedPlan snapshot plan modelConfig selected) opts).defaultModelProfileId =
        modelConfig.defaultModelProfileId) ∧
    ((normalizedConfig keepsKey (preparedPlan snapshot plan modelConfig selected) opts).turnConfigs =
        (normalizedConfig keepsKey plan opts).turnConfigs ∨
      (normalizedConfig keepsKey (preparedPlan snapshot plan modelConfig selected) opts).turnConfigs =
        modelConfig.turnConfigs) := by
  have hnormal : Normal modelConfig.turnConfigs := hc ▸ normal_validConfig normal_normalizedConfig
  have htrim : trimToNull modelConfig.defaultModelProfileId = modelConfig.defaultModelProfileId := hc ▸ trimmed_validConfig
  have hsub : ∀ x ∈ modelConfig.turnConfigs, x ∈ (normalizedConfig keepsKey plan opts).turnConfigs := by
    rw [hc, validConfig_turnConfigs normal_normalizedConfig]
    exact fun x hx => List.mem_of_mem_filter hx
  rw [normalizedConfig_eq, normalizedConfig_eq] at *
  cases hr : opts.replaceModelConfig with
  | true => exact ⟨.inl rfl, .inl rfl⟩
  | false =>
    simp only [hr, Bool.false_eq_true, if_false, mergeModelConfig] at hsub ⊢
    constructor
    · cases ho : (normalizeLaunchModelConfigInput opts.modelConfig).defaultModelProfileId with
      | some id => exact .inl rfl
      | none => exact .inr htrim
    · by_cases ho : (normalizeLaunchModelConfigInput opts.modelConfig).turnConfigs = []
      · right
        rw [if_neg (not_not.2 ho)] at hsub ⊢
        rw [baseConfig_prepared hnormal fun x hx => keepsKey_base (hsub x hx)]
        exact normalize_normal hnormal
      · left
        rw [if_pos ho, if_pos ho]

/-- Without options of its own, preparing a prepared plan validates what is left. -/
theorem normalizedConfig_plain {omitInvalid : Bool} (hnormal : Normal modelConfig.turnConfigs)
    (htrim : trimToNull modelConfig.defaultModelProfileId = modelConfig.defaultModelProfileId)
    (hk : ∀ x ∈ modelConfig.turnConfigs, keepsKey x.1 = true) :
    normalizedConfig keepsKey (preparedPlan snapshot plan modelConfig selected) { omitInvalid } = modelConfig := by
  rw [normalizedConfig_eq, baseConfig_prepared hnormal hk]
  have hturns := normalize_normal hnormal
  have hdefault : (normalizeLaunchModelConfigInput modelConfig).defaultModelProfileId = modelConfig.defaultModelProfileId := htrim
  show LaunchModelConfigInput.mk (normalizeLaunchModelConfigInput modelConfig).defaultModelProfileId
    (normalizeLaunchModelConfigInput modelConfig).turnConfigs = modelConfig
  rw [hturns, hdefault]
end

/-! ## The selected turn -/

/-- The model of the selected turn that a preparation leaves is left by the next. -/
theorem selectedModelProfileId_again {modelConfig : LaunchModelConfigInput} {again : PrepareLaunchPlanOptions}
    (ho : again.omitInvalid = opts.omitInvalid) :
    selectedModelProfileId snapshot (preparedPlan snapshot plan modelConfig (selectedModelProfileId snapshot plan opts)) again =
      selectedModelProfileId snapshot plan opts := by
  have hselected : (preparedPlan snapshot plan modelConfig (selectedModelProfileId snapshot plan opts)).selectedProfileId =
      selectedModelProfileId snapshot plan opts := by
    show trimToNull (selectedModelProfileId snapshot plan opts) = _
    unfold selectedModelProfileId
    split
    · rfl
    · exact trimToNull_trimToNull _
  unfold selectedModelProfileId at hselected ⊢
  rw [hselected, ho]
  by_cases hdropped : (selectedTurnIssue snapshot plan).isSome = true ∧ opts.omitInvalid = true
  · rw [if_pos hdropped, ite_self]
  · rw [if_neg hdropped] at hselected ⊢
    -- the issue is of the same profile for the same turn
    have hsame : selectedTurnIssue snapshot (preparedPlan snapshot plan modelConfig plan.selectedProfileId) =
        selectedTurnIssue snapshot plan := by
      unfold selectedTurnIssue
      rw [hselected]
      rfl
    rw [hsame, if_neg hdropped]

/-- A selected model that a preparation leaves has no issue, unless the plan is rejected. -/
theorem selectedTurnIssue_again {modelConfig : LaunchModelConfigInput} (h : selectedTurnIssue snapshot plan = none) :
    selectedTurnIssue snapshot (preparedPlan snapshot plan modelConfig (selectedModelProfileId snapshot plan opts)) = none := by
  have hselected : selectedModelProfileId snapshot plan opts = plan.selectedProfileId := by
    unfold selectedModelProfileId
    rw [h]
    rfl
  have hprofile : (preparedPlan snapshot plan modelConfig plan.selectedProfileId).selectedProfileId = plan.selectedProfileId :=
    trimToNull_trimToNull _
  rw [hselected]
  unfold selectedTurnIssue at h ⊢
  rw [hprofile]
  exact h

/-! ## Preparing again -/

/-- A plan whose configuration has no issues has none when it is prepared again. -/
theorem launchIssues_again {again : PrepareLaunchPlanOptions} {modelConfig : LaunchModelConfigInput}
    (hc : modelConfig = validConfig snapshot plan.processId (normalizedConfig keepsKey plan opts))
    (ho : again.omitInvalid = opts.omitInvalid)
    (hd : (normalizedConfig keepsKey (preparedPlan snapshot plan modelConfig (selectedModelProfileId snapshot plan opts))
        again).defaultModelProfileId = (normalizedConfig keepsKey plan opts).defaultModelProfileId ∨
      (normalizedConfig keepsKey (preparedPlan snapshot plan modelConfig (selectedModelProfileId snapshot plan opts))
        again).defaultModelProfileId = modelConfig.defaultModelProfileId)
    (ht : (normalizedConfig keepsKey (preparedPlan snapshot plan modelConfig (selectedModelProfileId snapshot plan opts))
        again).turnConfigs = (normalizedConfig keepsKey plan opts).turnConfigs ∨
      (normalizedConfig keepsKey (preparedPlan snapshot plan modelConfig (selectedModelProfileId snapshot plan opts))
        again).turnConfigs = modelConfig.turnConfigs)
    (h : launchIssues snapshot keepsKey plan opts = []) :
    launchIssues snapshot keepsKey (preparedPlan snapshot plan modelConfig (selectedModelProfileId snapshot plan opts)) again =
      [] := by
  have hnormal : Normal (normalizedConfig keepsKey plan opts).turnConfigs := normal_normalizedConfig
  have hvalid := validConfig_again hnormal (hc ▸ hd) (hc ▸ ht)
  rw [← hc] at hvalid
  unfold launchIssues at h ⊢
  simp only [List.append_eq_nil_iff, List.filterMap_eq_nil_iff, Option.toList_eq_nil_iff] at h ⊢
  obtain ⟨⟨⟨⟨-, hdefault⟩, hturns⟩, hselected⟩, hrequired⟩ := h
  refine ⟨⟨⟨⟨?_, ?_⟩, ?_⟩, selectedTurnIssue_again hselected⟩, ?_⟩
  · have hparsed : (preparedPlan snapshot plan modelConfig (selectedModelProfileId snapshot plan opts)).parsed keepsKey =
        .ok (modelConfig.turnConfigs.filter fun x => keepsKey x.1) :=
      parse_serialize (hc ▸ normal_validConfig hnormal)
    rw [hparsed]
  · rcases hd with hd | hd
    · rw [hd]
      exact hdefault
    · rw [hd, hc]
      unfold validConfig
      dsimp only
      rw [if_pos (Option.isNone_iff_eq_none.2 hdefault)]
      exact hdefault
  · rcases ht with ht | ht
    · rw [ht]
      exact hturns
    · rw [ht, hc, validConfig_turnConfigs hnormal]
      exact fun x hx => hturns x (List.mem_of_mem_filter hx)
  · replace hvalid : validConfig snapshot (preparedPlan snapshot plan modelConfig (selectedModelProfileId snapshot plan
      opts)).processId (normalizedConfig keepsKey (preparedPlan snapshot plan modelConfig (selectedModelProfileId snapshot plan
      opts)) again) = modelConfig := hvalid
    rw [hvalid, selectedModelProfileId_again ho, hc]
    exact hrequired

/-- A prepared plan, by the configuration it is left with. -/
theorem prepareLaunchPlan_ok {modelConfig : LaunchModelConfigInput} {warnings : List LaunchPlanPreparationIssue}
    {prepared : LaunchPlan} (h : prepareLaunchPlan snapshot keepsKey plan opts = .ok modelConfig warnings prepared) :
    plan.processId = plan.processInput.processId ∧
      modelConfig = validConfig snapshot plan.processId (normalizedConfig keepsKey plan opts) ∧
      prepared = preparedPlan snapshot plan modelConfig (selectedModelProfileId snapshot plan opts) ∧
      warnings = launchIssues snapshot keepsKey plan opts ∧ (warnings = [] ∨ opts.omitInvalid = true) := by
  unfold prepareLaunchPlan at h
  split at h
  · cases h
  rename_i hid
  dsimp only at h
  split at h
  · cases h
  · rename_i hissues
    cases h
    refine ⟨not_not.1 hid, rfl, rfl, rfl, ?_⟩
    by_cases hnil : launchIssues snapshot keepsKey plan opts = []
    · exact .inl hnil
    · exact .inr (by simpa [hnil] using hissues)

/-- Preparing a prepared plan again, with options that validate what was validated or what is left. -/
theorem prepareLaunchPlan_again {again : PrepareLaunchPlanOptions} {modelConfig : LaunchModelConfigInput}
    {warnings : List LaunchPlanPreparationIssue} {prepared : LaunchPlan}
    (h : prepareLaunchPlan snapshot keepsKey plan opts = .ok modelConfig warnings prepared)
    (ho : again.omitInvalid = opts.omitInvalid)
    (hd : (normalizedConfig keepsKey prepared again).defaultModelProfileId =
        (normalizedConfig keepsKey plan opts).defaultModelProfileId ∨
      (normalizedConfig keepsKey prepared again).defaultModelProfileId = modelConfig.defaultModelProfileId)
    (ht : (normalizedConfig keepsKey prepared again).turnConfigs = (normalizedConfig keepsKey plan opts).turnConfigs ∨
      (normalizedConfig keepsKey prepared again).turnConfigs = modelConfig.turnConfigs) :
    ∃ warnings', prepareLaunchPlan snapshot keepsKey prepared again = .ok modelConfig warnings' prepared := by
  obtain ⟨hid, hc, rfl, hw, hissues⟩ := prepareLaunchPlan_ok h
  have hvalid := validConfig_again normal_normalizedConfig (hc ▸ hd) (hc ▸ ht)
  rw [← hc] at hvalid
  refine ⟨launchIssues snapshot keepsKey (preparedPlan snapshot plan modelConfig (selectedModelProfileId snapshot plan opts))
    again, ?_⟩
  have hid' : ¬ (preparedPlan snapshot plan modelConfig (selectedModelProfileId snapshot plan opts)).processId ≠
      (preparedPlan snapshot plan modelConfig (selectedModelProfileId snapshot plan opts)).processInput.processId := not_not.2 hid
  unfold prepareLaunchPlan
  rw [if_neg hid']
  dsimp only
  rw [if_neg, selectedModelProfileId_again ho]
  · replace hvalid : validConfig snapshot (preparedPlan snapshot plan modelConfig (selectedModelProfileId snapshot plan
      opts)).processId (normalizedConfig keepsKey (preparedPlan snapshot plan modelConfig (selectedModelProfileId snapshot plan
      opts)) again) = modelConfig := hvalid
    rw [hvalid]
    rfl
  · rintro ⟨hne, homit⟩
    rcases hissues with hnil | homitted
    · exact hne (launchIssues_again hc ho hd ht (hw ▸ hnil))
    · rw [ho, homitted] at homit
      cases homit

/-! ## The carried profiles -/

/-- A profile the plan carries. -/
inductive LaunchPlan.Carries (plan : LaunchPlan) (id : String) : Prop
  | default (h : plan.processInput.defaultModelProfileId = some id)
  | turn (turns : List (TurnId × TurnConfigValue)) (turnId : TurnId) (h : plan.processInput.turnConfigsJson = .object turns)
      (hm : (turnId, .config (some id)) ∈ turns)
  | selected (h : plan.processInput.selectedTurnModelProfileId = some id)
  | initialDefault (h : plan.processInput.initialDefaultModelProfileId = some id)

theorem carries_usable {modelConfig : LaunchModelConfigInput} {warnings : List LaunchPlanPreparationIssue}
    {prepared : LaunchPlan} (h : prepareLaunchPlan snapshot keepsKey plan opts = .ok modelConfig warnings prepared)
    {id : String} (hcarries : prepared.Carries id) : Usable snapshot plan.processId none id := by
  obtain ⟨-, hc, rfl, hw, hissues⟩ := prepareLaunchPlan_ok h
  cases hcarries with
  | default hdefault =>
    replace hdefault : modelConfig.defaultModelProfileId = some id := hdefault
    rw [hc] at hdefault
    unfold validConfig at hdefault
    dsimp only at hdefault
    split at hdefault
    · rename_i hvalid
      rw [Option.isNone_iff_eq_none] at hvalid
      refine modelIssue_none hvalid ?_
      rw [← trimmed_normalizedConfig, truthy_trimToNull, trimmed_normalizedConfig, hdefault]
    · cases hdefault
  | turn turns turnId hturns hmem =>
    replace hturns : serializeInstanceTurnConfigs modelConfig.turnConfigs = .object turns := hturns
    unfold serializeInstanceTurnConfigs at hturns
    split at hturns
    · cases hturns
    cases hturns
    obtain ⟨x, hx, heq⟩ := List.mem_map.1 hmem
    cases heq
    obtain ⟨y, hy, heq⟩ := List.mem_filterMap.1 hx
    obtain ⟨id', hid', heq⟩ := Option.map_eq_some_iff.1 heq
    subst heq
    rw [hc, validConfig_turnConfigs normal_normalizedConfig] at hy
    have hvalid := (List.mem_filter.1 hy).2
    rw [Option.isNone_iff_eq_none] at hvalid
    unfold turnIssue at hvalid
    split at hvalid
    · cases hvalid
    rw [hid', Option.bind_some] at hvalid
    refine modelIssue_none hvalid ?_
    rw [← hid', truthy_trimToNull, hid']
  | selected hselected =>
    replace hselected : selectedModelProfileId snapshot plan opts = some id := hselected
    unfold selectedModelProfileId at hselected
    split at hselected
    · cases hselected
    rename_i hkept
    have hissue : selectedTurnIssue snapshot plan = none := by
      rcases hissues with hnil | homit
      · rw [hw] at hnil
        unfold launchIssues at hnil
        simp only [List.append_eq_nil_iff, Option.toList_eq_nil_iff] at hnil
        exact hnil.1.2
      · simpa [homit] using hkept
    unfold selectedTurnIssue at hissue
    rw [hselected] at hissue
    dsimp only at hissue
    split at hissue
    · cases hissue
    split at hissue
    · cases hissue
    refine modelIssue_none hissue ?_
    have htrim : trimToNull plan.processInput.selectedTurnModelProfileId = some id := hselected
    rw [← htrim, truthy_trimToNull]
  | initialDefault hinitial =>
    replace hinitial : initialDefaultModelProfileId snapshot plan.processId modelConfig = some id := hinitial
    unfold initialDefaultModelProfileId resolveDefault at hinitial
    split at hinitial
    · rename_i hv
      obtain ⟨hsel, -, s, hs, husable⟩ := validateSelection_ok hv
      rw [hsel, hs] at hinitial
      cases hinitial
      exact husable
    · cases hinitial

/-- The policy selects usable profiles in order of precedence, and a prepared plan carries usable
profiles and is prepared to itself, with the same options or with none. -/
theorem policy_usable (snapshot : PolicySnapshot) (keepsKey : TurnId → Bool) :
    (∀ subject s revision, evaluateSubject snapshot keepsKey subject = .ok (some s) revision →
      Usable snapshot subject.processId subject.availability s.modelProfileId ∧
        ∃ above below, subject.candidates snapshot keepsKey = above ++ .ok (some s) :: below ∧ ∀ c ∈ above, c = .ok none) ∧
    ∀ plan opts modelConfig warnings prepared,
      prepareLaunchPlan snapshot keepsKey plan opts = .ok modelConfig warnings prepared →
        (∀ id, prepared.Carries id → Usable snapshot plan.processId none id) ∧
        (∃ again, prepareLaunchPlan snapshot keepsKey prepared opts = .ok modelConfig again prepared) ∧
        ((∀ x ∈ opts.modelConfig.turnConfigs, keepsKey x.1 = true) →
          ∃ again, prepareLaunchPlan snapshot keepsKey prepared { omitInvalid := opts.omitInvalid } =
            .ok modelConfig again prepared) := by
  refine ⟨fun subject s revision h => ?_, fun plan opts modelConfig warnings prepared h => ?_⟩
  · obtain ⟨hfirst, husable⟩ := evaluateSubject_ok h
    exact ⟨husable, firstDefined_split hfirst⟩
  obtain ⟨-, hc, hprepared, -, -⟩ := prepareLaunchPlan_ok h
  refine ⟨fun id hid => carries_usable h hid, ?_, fun hkeys => ?_⟩
  · have hagain := normalizedConfig_again (selectedModelProfileId snapshot plan opts) hc
    rw [← hprepared] at hagain
    exact prepareLaunchPlan_again h rfl hagain.1 hagain.2
  · have hnormal : Normal modelConfig.turnConfigs := hc ▸ normal_validConfig normal_normalizedConfig
    have hkept : ∀ x ∈ modelConfig.turnConfigs, keepsKey x.1 = true := by
      rw [hc, validConfig_turnConfigs normal_normalizedConfig]
      exact fun x hx => keepsKey_normalized hkeys (List.mem_of_mem_filter hx)
    have hplain : normalizedConfig keepsKey prepared { omitInvalid := opts.omitInvalid } = modelConfig :=
      hprepared ▸ normalizedConfig_plain _ hnormal (hc ▸ trimmed_validConfig) hkept
    exact prepareLaunchPlan_again h rfl (.inr (by rw [hplain])) (.inr (by rw [hplain]))

/-! ## A plan to prepare -/

/-- Two profiles and a process type that allows one of them. -/
def demoSnapshot : PolicySnapshot where
  defaultProfileId := "fast"
  profiles := [⟨"fast", "p", "m1", "off"⟩, ⟨"deep", "p", "m2", "high"⟩]
  processesById id := if id = "demo" then some { id, allowedProfileIds := some ["fast"], llmTurnIds := ["draft"] } else none

/-- A plan with a choice for the process, one for a turn, and one that is not allowed. -/
def demoPlan : LaunchPlan where
  processId := "demo"
  startTurnId := some "draft"
  processInput :=
    { processId := "demo"
      defaultModelProfileId := some " fast "
      turnConfigsJson := .object [("draft", .config (some "fast")), ("review", .config (some "fast"))]
      selectedTurnModelProfileId := some "deep" }

/-- `demoPlan` without its invalid models. -/
def demoPrepared : LaunchPlan :=
  { demoPlan with processInput :=
      { demoPlan.processInput with
        defaultModelProfileId := some "fast", selectedTurnModelProfileId := none
        turnConfigsJson := .object [("draft", .config (some "fast"))], initialDefaultModelProfileId := some "fast" } }

theorem demoPlan_prepared : prepareLaunchPlan demoSnapshot (fun _ => true) demoPlan { omitInvalid := true } =
    .ok { defaultModelProfileId := some "fast", turnConfigs := [("draft", some "fast")] }
      (launchIssues demoSnapshot (fun _ => true) demoPlan { omitInvalid := true }) demoPrepared := by decide +kernel

theorem policy_usable_demo : (∀ id, demoPrepared.Carries id → Usable demoSnapshot "demo" none id) ∧
    ∃ again, prepareLaunchPlan demoSnapshot (fun _ => true) demoPrepared { omitInvalid := true } =
      .ok { defaultModelProfileId := some "fast", turnConfigs := [("draft", some "fast")] } again demoPrepared := by
  obtain ⟨husable, hagain, -⟩ := (policy_usable demoSnapshot fun _ => true).2 demoPlan { omitInvalid := true } _ _ _
    demoPlan_prepared
  exact ⟨husable, hagain⟩

/-- Preparing looks at no availability: the plan carries a profile that is unavailable. -/
theorem prepared_unavailable : ¬ ∀ (snapshot : PolicySnapshot) (keepsKey : TurnId → Bool) (a : ModelStatusCacheSnapshot) plan opts
    modelConfig warnings prepared, prepareLaunchPlan snapshot keepsKey plan opts = .ok modelConfig warnings prepared →
      ∀ id, prepared.Carries id → Usable snapshot plan.processId (some a) id := by
  intro hall
  have husable := hall _ _ { revision := 1, profiles := [⟨"fast", .unavailable, none⟩] } _ _ _ _ _ demoPlan_prepared "fast"
    (.default rfl)
  obtain ⟨status, hmem, -, havailable⟩ := husable.available _ rfl
  rw [List.mem_singleton.1 hmem] at havailable
  cases havailable

end Leitwerk.Policy
