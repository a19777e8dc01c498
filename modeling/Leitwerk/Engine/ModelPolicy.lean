import Leitwerk.Engine.Record
import Mathlib.Data.List.DropRight
/-!
# The process model policy

`process-model-policy/evaluate.ts` and `input.ts`: which model a turn starts
with. A purpose fixed by the configuration comes first, then an override, then a
pinned earlier choice, then what is configured for the turn, the instance and
the catalog. Whether the chosen model may be used is checked last, and only that
check looks at the availability snapshot.
-/

namespace Leitwerk.Engine

/-! ## What the policy reads -/

/-- The availability of a profile in `ModelStatusCacheSnapshot`. -/
inductive Availability where
  | available | unavailable | stale
  deriving DecidableEq

structure ProfileStatus where
  profileId : String
  availability : Availability
  safeReason : Option String := none
  deriving DecidableEq

/-- `ModelStatusCacheSnapshot`. -/
structure ModelStatusCacheSnapshot where
  revision : Nat
  profiles : List ProfileStatus := []
  deriving DecidableEq

/-- `ModelConfiguration`. -/
inductive ModelConfiguration where
  | valid (defaultProfileId : Option String) (turnProfileIds : TurnId → Option String)
  | invalid

/-- `PolicyProcess`, less `llmTurnIds`, which is read off the graph. Reading the scoped settings
of a turn may throw. -/
structure PolicyProcess where
  allowedProfileIds : Option (List String) := none
  defaultProfileId : Option String := none
  turnProfileIds : TurnId → Option String := fun _ => none
  purposeProfileIdsByTurn : TurnId → Option String := fun _ => none
  scopedProfileIdForTurn : TurnId → Except String (Option String) := fun _ => .ok none

/-- `PolicySnapshot` for one process type, with the instance's own model configuration. -/
structure ModelPolicy where
  defaultProfileId : Option String := none
  profileIds : List String
  process : PolicyProcess
  configuration : ModelConfiguration := .valid none fun _ => none

/-- Whether the turn is one of the `llmTurnIds` of `constructPolicySnapshot`. -/
def ProcessDefinition.llmTurn (d : ProcessDefinition) (turnId : TurnId) : Bool :=
  (d.turns turnId).map (·.turnType) == some .llm

/-- `provenanceKindForSource`. -/
def provenanceKindForSource : ModelSelectionSource → ModelSelectionKind
  | .actionOverride | .launchOverride | .instanceTurnConfig | .instanceDefault => .explicit
  | .processConfigTurn | .scopedPurposeDefault | .processConfigDefault | .catalogDefault | .legacyPersisted => .inherited

/-- `isPinnedModelSelection`. -/
def isPinnedModelSelection (selection : ModelSelection) : Bool :=
  selection.provenance.source == .actionOverride || selection.provenance.source == .launchOverride

/-! ## The outcome of an evaluation -/

/-- `ProcessModelPolicyFailure["code"]`, less the one only the recorder reports. -/
inductive PolicyFailureCode where
  | modelRequired | unknownModelProfile | modelProfileNotAllowed | modelUnavailable | modelStale
  | invalidModelConfiguration
  deriving DecidableEq

/-- The code a failure is rejected with. -/
def PolicyFailureCode.text : PolicyFailureCode → String
  | .modelRequired => "model_required"
  | .unknownModelProfile => "unknown_model_profile"
  | .modelProfileNotAllowed => "model_profile_not_allowed"
  | .modelUnavailable => "model_unavailable"
  | .modelStale => "model_stale"
  | .invalidModelConfiguration => "invalid_model_configuration"

/-- `ProcessModelPolicyFailure`, with the text `presentProcessModelPolicyFailure` has for it. -/
structure PolicyFailure where
  code : PolicyFailureCode
  message : String
  deriving DecidableEq

/-- `ProcessModelPolicyEvaluation`: the selection, and why it may not be used. -/
structure PolicyEvaluation where
  selection : Option ModelSelection
  failure : Option PolicyFailure := none
  deriving DecidableEq

/-- Whether a failure leaves a selection that a start can wait for. -/
def PolicyFailureCode.recoverable : PolicyFailureCode → Bool
  | .modelUnavailable | .modelStale | .modelRequired => true
  | .unknownModelProfile | .modelProfileNotAllowed | .invalidModelConfiguration => false

/-- The evaluation failed in a way no availability can repair. -/
def PolicyEvaluation.invalid (e : PolicyEvaluation) : Bool := e.failure.any (!·.code.recoverable)

/-! ## Evaluation -/

variable (d : ProcessDefinition) (policy : ModelPolicy)

/-- The availability check of `validateSelection`. -/
def checkAvailability (availability : ModelStatusCacheSnapshot) (profileId : String) : Option PolicyFailure :=
  match availability.profiles.find? (·.profileId = profileId) with
  | none => some ⟨.modelStale, "Model status has not been refreshed"⟩
  | some status => match status.availability with
    | .available => none
    | .stale => some ⟨.modelStale, status.safeReason.getD "Model status has not been refreshed"⟩
    | .unavailable => some ⟨.modelUnavailable, status.safeReason.getD "The selected model is unavailable"⟩

/-- `validateSelection`. -/
def validateSelection (selection : Option ModelSelection) (availability : ModelStatusCacheSnapshot) : PolicyEvaluation :=
  match selection with
  | none => { selection := none, failure := some ⟨.modelRequired, "Choose a model before starting this turn"⟩ }
  | some s =>
    if s.modelProfileId ∉ policy.profileIds then
      { selection := some s
        failure := some ⟨.unknownModelProfile, s!"Unknown model profile '{s.modelProfileId}'"⟩ }
    else if policy.process.allowedProfileIds.any (s.modelProfileId ∉ ·) then
      { selection := some s
        failure := some ⟨.modelProfileNotAllowed,
          s!"Model profile '{s.modelProfileId}' is not allowed for process '{d.id}'"⟩ }
    else { selection := some s, failure := checkAvailability availability s.modelProfileId }

/-- `candidate`: a configured profile with where it is configured. -/
def configuredSelection (modelProfileId : Option String) (source : ModelSelectionSource) : Option ModelSelection :=
  (trimToNull modelProfileId).map fun id => ⟨id, provenanceKindForSource source, source⟩

/-- `resolvedDefault`. -/
def resolvedDefault (defaultProfileId : Option String) : Option ModelSelection :=
  ((configuredSelection defaultProfileId .instanceDefault).or
    (configuredSelection policy.process.defaultProfileId .processConfigDefault)).or
    (configuredSelection policy.defaultProfileId .catalogDefault)

/-- `resolveInherited`, which fails when the scoped settings cannot be read. -/
def resolveInherited (defaultProfileId : Option String) (turnProfileIds : TurnId → Option String) (turnId : TurnId) :
    Except String (Option ModelSelection) :=
  match (configuredSelection (turnProfileIds turnId) .instanceTurnConfig).or
      (configuredSelection defaultProfileId .instanceDefault) with
  | some selection => .ok (some selection)
  | none => do
    let profileId ← policy.process.scopedProfileIdForTurn turnId
    return ((configuredSelection profileId .scopedPurposeDefault).or
      (configuredSelection (policy.process.turnProfileIds turnId) .processConfigTurn)).or
      (resolvedDefault policy defaultProfileId)

/-- `ExistingTurnSelection`. -/
inductive ExistingTurnSelection where
  | none
  | selected (turnId : TurnId) (selection : ModelSelection)
  | invalid (turnId : TurnId)
  deriving DecidableEq

/-- `existingTurnSelectionFromProcess`. -/
def existingTurnSelectionFromProcess (p : Process) : ExistingTurnSelection :=
  match p.selectedTurnId, trimToNull p.selectedTurnModelProfileId with
  | some turnId, some profileId =>
    let source := p.selectedTurnModelSource.getD .legacyPersisted
    if p.selectedTurnModelKind.any (· ≠ provenanceKindForSource source) then .invalid turnId
    else .selected turnId ⟨profileId, p.selectedTurnModelKind.getD (provenanceKindForSource source), source⟩
  | _, _ => .none

/-- `ModelOverride`, whose profile is always an action's here. -/
inductive ModelOverride where
  | inherit
  | clear
  | profile (profileId : String)
  deriving DecidableEq

/-- `modelOverride`: an outer `none` is a request that names no override. -/
def modelOverride : Option (Option String) → ModelOverride
  | none => .inherit
  | some value => match trimToNull value with
    | some profileId => .profile profileId
    | none => .clear

/-- The `mode` of `resolveTurn`, and whether it keeps a pinned selection. -/
def keepsPinned (startKind : Option TurnStartKind) (initialSelection : Bool) : Bool :=
  match startKind with
  | some .retry | some .startupRetry | some .continue => true
  | some .selectedTurn | none => initialSelection

/-- An evaluation that reports the configuration or the provenance as invalid. -/
def invalidConfiguration (message : String) : PolicyEvaluation :=
  { selection := none, failure := some ⟨.invalidModelConfiguration, message⟩ }

/-- The earlier selection `resolveTurn` keeps, if any. -/
def pinnedSelection (turnId : TurnId) (keeps : Bool) (existing : ExistingTurnSelection) : Option ModelSelection :=
  match existing with
  | .selected existingTurnId selection =>
    if keeps = true ∧ existingTurnId = turnId ∧ isPinnedModelSelection selection = true then some selection else none
  | _ => none

/-- `resolveTurn`. -/
def resolveTurn (turnId : TurnId) (keeps : Bool) (existing : ExistingTurnSelection) (override : ModelOverride)
    (availability : ModelStatusCacheSnapshot) : PolicyEvaluation :=
  if d.llmTurn turnId = false then { selection := none }
  else match policy.configuration with
    | .invalid => invalidConfiguration "Persisted model configuration is invalid"
    | .valid defaultProfileId turnProfileIds =>
      -- a purpose the configuration fixes is authoritative over every override
      match policy.process.purposeProfileIdsByTurn turnId with
      | some purpose => validateSelection d policy (configuredSelection (some purpose) .processConfigDefault) availability
      | none =>
        if existing = .invalid turnId then
          invalidConfiguration "Persisted model selection provenance is invalid"
        else match override, pinnedSelection turnId keeps (if override = .clear then .none else existing) with
          | .profile profileId, _ =>
            validateSelection d policy (some ⟨profileId, .explicit, .actionOverride⟩) availability
          | _, some selection => validateSelection d policy (some selection) availability
          | _, none => match resolveInherited policy defaultProfileId turnProfileIds turnId with
            | .ok selection => validateSelection d policy selection availability
            | .error message => invalidConfiguration message

/-- `evaluate` for a turn of a process. -/
def evaluateTurn (p : Process) (turnId : TurnId) (startKind : Option TurnStartKind) (initialSelection : Bool)
    (override : Option (Option String)) (availability : ModelStatusCacheSnapshot) : PolicyEvaluation :=
  resolveTurn d policy turnId (keepsPinned startKind initialSelection) (existingTurnSelectionFromProcess p)
    (modelOverride override) availability

/-! ## What availability decides -/

theorem validateSelection_selection (s : Option ModelSelection) (a : ModelStatusCacheSnapshot) :
    (validateSelection d policy s a).selection = s := by
  unfold validateSelection
  split
  · rfl
  · split
    · rfl
    · split <;> rfl

theorem checkAvailability_recoverable {a : ModelStatusCacheSnapshot} {id : String} {failure : PolicyFailure}
    (h : checkAvailability a id = some failure) : failure.code.recoverable = true := by
  unfold checkAvailability at h
  split at h
  · cases h
    rfl
  · split at h <;> cases h <;> rfl

/-- Availability decides neither what is selected nor whether the configuration is valid. -/
theorem validateSelection_snapshot (s : Option ModelSelection) (a b : ModelStatusCacheSnapshot) :
    (validateSelection d policy s a).invalid = (validateSelection d policy s b).invalid := by
  cases s with
  | none => rfl
  | some s =>
    have hfree : ∀ c : ModelStatusCacheSnapshot,
        PolicyEvaluation.invalid { selection := some s, failure := checkAvailability c s.modelProfileId } = false := by
      intro c
      cases hc : checkAvailability c s.modelProfileId with
      | none => rfl
      | some failure =>
        show (!failure.code.recoverable) = false
        rw [checkAvailability_recoverable hc]
        rfl
    unfold validateSelection
    simp only
    split
    · rfl
    · split
      · rfl
      · rw [hfree a, hfree b]

theorem resolveTurn_snapshot (turnId : TurnId) (keeps : Bool) (existing : ExistingTurnSelection)
    (override : ModelOverride) (a b : ModelStatusCacheSnapshot) :
    (resolveTurn d policy turnId keeps existing override a).invalid =
      (resolveTurn d policy turnId keeps existing override b).invalid := by
  unfold resolveTurn
  split
  · rfl
  · split
    · rfl
    · split
      · apply validateSelection_snapshot
      · split
        · rfl
        · split
          · apply validateSelection_snapshot
          · apply validateSelection_snapshot
          · split
            · apply validateSelection_snapshot
            · rfl

/-! ## Resolving a resolution -/

theorem dropWhile_rdropWhile {α : Type} (q : α → Bool) (l : List α) :
    ((l.dropWhile q).rdropWhile q).dropWhile q = (l.dropWhile q).rdropWhile q := by
  rw [List.dropWhile_eq_self_iff]
  intro hpos
  have hpre := List.rdropWhile_prefix q (l.dropWhile q)
  have hhead := List.dropWhile_get_zero_not q l (lt_of_lt_of_le hpos hpre.length_le)
  rw [List.get_eq_getElem] at hhead
  rwa [hpre.getElem hpos]

theorem trim_trim (s : String) : trim (trim s) = trim s := by
  have hr : ∀ l : List Char, String.ofList ((l.dropWhile isWhiteSpace).reverse.dropWhile isWhiteSpace).reverse =
    String.ofList ((l.dropWhile isWhiteSpace).rdropWhile isWhiteSpace) := fun _ => rfl
  unfold trim
  rw [hr, hr, String.toList_ofList, dropWhile_rdropWhile, List.rdropWhile_idempotent]

theorem trimToNull_trimmed {text : Option String} {s : String} (h : trimToNull text = some s) : trimToNull (some s) = some s := by
  obtain ⟨hmap, hne⟩ := Option.filter_eq_some_iff.1 h
  obtain ⟨x, -, rfl⟩ := Option.map_eq_some_iff.1 hmap
  unfold trimToNull
  rw [Option.map_some, trim_trim]
  exact Option.filter_some_pos hne

/-- A selection as the policy makes it: its profile trimmed, its kind that of its source. -/
structure ModelSelection.Wellformed (s : ModelSelection) : Prop where
  profile : trimToNull (some s.modelProfileId) = some s.modelProfileId
  kind : s.provenance.kind = provenanceKindForSource s.provenance.source

theorem configuredSelection_some {id : Option String} {source : ModelSelectionSource} {s : ModelSelection}
    (h : configuredSelection id source = some s) : s.Wellformed ∧ s.provenance.source = source := by
  obtain ⟨x, hx, rfl⟩ := Option.map_eq_some_iff.1 h
  exact ⟨⟨trimToNull_trimmed hx, rfl⟩, rfl⟩

theorem existing_wellformed {p : Process} {turnId : TurnId} {s : ModelSelection}
    (h : existingTurnSelectionFromProcess p = .selected turnId s) : s.Wellformed := by
  unfold existingTurnSelectionFromProcess at h
  split at h
  · rename_i profileId _ hid
    dsimp only at h
    split at h
    · cases h
    · rename_i hkind
      cases h
      refine ⟨trimToNull_trimmed hid, ?_⟩
      cases hk : p.selectedTurnModelKind with
      | none => rfl
      | some kind => simpa [hk] using hkind
  · cases h

/-- What the policy inherits is never pinned. -/
theorem resolveInherited_unpinned {policy : ModelPolicy} {defaults : Option String} {turns : TurnId → Option String}
    {turnId : TurnId} {s : ModelSelection} (h : resolveInherited policy defaults turns turnId = .ok (some s)) :
    s.Wellformed ∧ isPinnedModelSelection s = false := by
  have hone : ∀ {id : Option String} {source : ModelSelectionSource}, configuredSelection id source = some s →
      source ≠ .actionOverride → source ≠ .launchOverride → s.Wellformed ∧ isPinnedModelSelection s = false := by
    intro id source hs ha hl
    obtain ⟨hw, hsource⟩ := configuredSelection_some hs
    refine ⟨hw, ?_⟩
    unfold isPinnedModelSelection
    rw [hsource]
    simp [ha, hl]
  unfold resolveInherited at h
  split at h
  · rename_i selection hfirst
    cases h
    rcases Option.or_eq_some_iff.1 hfirst with hs | ⟨-, hs⟩
    · exact hone hs (by decide) (by decide)
    · exact hone hs (by decide) (by decide)
  · cases hp : policy.process.scopedProfileIdForTurn turnId with
    | error why => rw [hp] at h; cases h
    | ok profileId =>
      rw [hp] at h
      replace h : (((configuredSelection profileId .scopedPurposeDefault).or
        (configuredSelection (policy.process.turnProfileIds turnId) .processConfigTurn)).or
        (resolvedDefault policy defaults)) = some s := by
        injection h
      rcases Option.or_eq_some_iff.1 h with hs | ⟨-, hs⟩
      · rcases Option.or_eq_some_iff.1 hs with hs | ⟨-, hs⟩
        · exact hone hs (by decide) (by decide)
        · exact hone hs (by decide) (by decide)
      · unfold resolvedDefault at hs
        rcases Option.or_eq_some_iff.1 hs with hs | ⟨-, hs⟩
        · rcases Option.or_eq_some_iff.1 hs with hs | ⟨-, hs⟩
          · exact hone hs (by decide) (by decide)
          · exact hone hs (by decide) (by decide)
        · exact hone hs (by decide) (by decide)

variable {d policy}

theorem modelOverride_profile {override : Option (Option String)} {id : String} (h : modelOverride override = .profile id) :
    trimToNull (some id) = some id := by
  unfold modelOverride at h
  split at h
  · cases h
  · split at h
    · rename_i hid
      cases h
      exact trimToNull_trimmed hid
    · cases h

theorem pinnedSelection_some {turnId : TurnId} {keeps : Bool} {existing : ExistingTurnSelection} {s : ModelSelection}
    (h : pinnedSelection turnId keeps existing = some s) :
    existing = .selected turnId s ∧ isPinnedModelSelection s = true := by
  unfold pinnedSelection at h
  split at h
  · split at h
    · rename_i hp
      obtain ⟨-, rfl, hpin⟩ := hp
      cases h
      exact ⟨rfl, hpin⟩
    · cases h
  · cases h

/-- How the policy arrives at a selection: by purpose, by override, by keeping a pinned one, or by
what is inherited. -/
inductive Resolution (d : ProcessDefinition) (policy : ModelPolicy) (turnId : TurnId) (keeps : Bool)
    (existing : ExistingTurnSelection) (override : ModelOverride) (s : ModelSelection) : Prop
  | purpose (id : String) (hid : policy.process.purposeProfileIdsByTurn turnId = some id)
      (hs : configuredSelection (some id) .processConfigDefault = some s)
  | override (id : String) (hno : policy.process.purposeProfileIdsByTurn turnId = none)
      (ho : override = .profile id) (hs : s = ⟨id, .explicit, .actionOverride⟩)
  | pinned (hno : policy.process.purposeProfileIdsByTurn turnId = none) (hx : existing = .selected turnId s)
      (hs : isPinnedModelSelection s = true)
  | inherited (hno : policy.process.purposeProfileIdsByTurn turnId = none) (defaults : Option String)
      (turns : TurnId → Option String) (hc : policy.configuration = .valid defaults turns)
      (hs : resolveInherited policy defaults turns turnId = .ok (some s))

variable {turnId : TurnId} {keeps : Bool} {existing : ExistingTurnSelection} {override : ModelOverride}
  {s : ModelSelection} {a : ModelStatusCacheSnapshot}

/-- A turn the policy has a selection for is an LLM turn, and the selection is validated as it is. -/
theorem resolution_of_some (h : (resolveTurn d policy turnId keeps existing override a).selection = some s) :
    d.llmTurn turnId = true ∧ (∃ defaults turns, policy.configuration = .valid defaults turns) ∧
      Resolution d policy turnId keeps existing override s ∧
      resolveTurn d policy turnId keeps existing override a = validateSelection d policy (some s) a := by
  unfold resolveTurn at h ⊢
  split at h
  · cases h
  rename_i hllm
  rw [if_neg hllm]
  refine ⟨by simpa using hllm, ?_⟩
  split at h
  · cases h
  rename_i defaults turns hc
  rw [hc]
  refine ⟨⟨defaults, turns, rfl⟩, ?_⟩
  split at h
  · rename_i id hid
    rw [validateSelection_selection] at h
    rw [h]
    exact ⟨.purpose id hid h, rfl⟩
  rename_i hno
  split at h
  · cases h
  rename_i hvalid
  rw [if_neg hvalid]
  split at h
  · rename_i id
    rw [validateSelection_selection] at h
    cases h
    exact ⟨.override id hno rfl rfl, rfl⟩
  · rename_i selection hne hpin
    rw [validateSelection_selection] at h
    cases h
    obtain ⟨hx, hs⟩ := pinnedSelection_some hpin
    refine ⟨.pinned hno ?_ hs, rfl⟩
    split at hx
    · cases hx
    · exact hx
  · split at h
    · rename_i selection hinh
      rw [validateSelection_selection] at h
      subst h
      exact ⟨.inherited hno defaults turns hc hinh, rfl⟩
    · cases h

theorem Resolution.wellformed {p : Process} {asked : Option (Option String)}
    (h : Resolution d policy turnId keeps (existingTurnSelectionFromProcess p) (modelOverride asked) s) : s.Wellformed := by
  cases h with
  | purpose id hid hs => exact (configuredSelection_some hs).1
  | override id hno ho hs =>
    subst hs
    exact ⟨modelOverride_profile ho, rfl⟩
  | pinned hno hx hs => exact existing_wellformed hx
  | inherited hno defaults turns hc hs => exact (resolveInherited_unpinned hs).1

/-- A turn whose earlier selection is the one it resolved to resolves to it again. -/
theorem resolveTurn_again (h : (resolveTurn d policy turnId keeps existing override a).selection = some s) :
    resolveTurn d policy turnId true (.selected turnId s) .inherit a = validateSelection d policy (some s) a := by
  obtain ⟨hllm, ⟨defaults, turns, hc⟩, hres, -⟩ := resolution_of_some h
  unfold resolveTurn
  rw [hllm, hc]
  simp only [Bool.true_eq_false, if_false, reduceCtorEq]
  cases hres with
  | purpose id hid hs =>
    rw [hid]
    dsimp only
    rw [hs]
  | override id hno ho hs =>
    subst hs
    rw [hno]
    simp [pinnedSelection, isPinnedModelSelection]
  | pinned hno hx hs =>
    rw [hno]
    simp [pinnedSelection, hs]
  | inherited hno defaults' turns' hc' hs =>
    rw [hc] at hc'
    cases hc'
    rw [hno]
    simp [pinnedSelection, (resolveInherited_unpinned hs).2, hs]

end Leitwerk.Engine
