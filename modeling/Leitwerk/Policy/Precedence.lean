import Leitwerk.Policy.Evaluate
/-!
# The policy selects the first usable candidate

`candidates` lists the choices for a turn in the documented order. Resolving a
turn validates the first that is defined, and a validated selection is usable.
-/

namespace Leitwerk.Policy

open Engine Precedence

/-! ## What a subject is about -/

/-- The process type a subject is evaluated for. -/
def EvaluationSubject.processId : EvaluationSubject → String
  | .processTurn p _ _ _ _ _ => p.processId
  | .launchPlanTurn plan _ _ => plan.processId
  | .runtimeSelection processId _ _ => processId
  | .preparationRecovery _ p _ _ => p.processId

/-- The availability a subject is evaluated at. -/
def EvaluationSubject.availability : EvaluationSubject → Option ModelStatusCacheSnapshot
  | .processTurn _ _ availability _ _ _ => availability
  | .launchPlanTurn _ _ availability | .runtimeSelection _ _ availability
  | .preparationRecovery _ _ _ availability => some availability

variable {snapshot : PolicySnapshot} {processId : String} {availability : Option ModelStatusCacheSnapshot} {s : ModelSelection}
  {revision : Option Nat}

/-! ## Usable profiles -/

/-- The profile exists, is allowed for the process, and is available where that is known. -/
structure Usable (snapshot : PolicySnapshot) (processId : String) (availability : Option ModelStatusCacheSnapshot)
    (profileId : String) : Prop where
  known : ∃ profile ∈ snapshot.profiles, profile.id = profileId
  allowed : ∀ allowed, (processPolicy snapshot processId).allowedProfileIds = some allowed → profileId ∈ allowed
  available : ∀ a, availability = some a → ∃ status ∈ a.profiles, status.profileId = profileId ∧ status.availability = .available

theorem profilesById_some {id : String} {profile : PolicyProfile} (h : profilesById snapshot id = some profile) :
    profile ∈ snapshot.profiles ∧ profile.id = id :=
  ⟨List.mem_reverse.1 (List.mem_of_find?_eq_some h), by simpa using List.find?_some h⟩

theorem availabilityIssue_none {a : ModelStatusCacheSnapshot} {id : String} (h : availabilityIssue a id = none) :
    ∃ status ∈ a.profiles, status.profileId = id ∧ status.availability = .available := by
  unfold availabilityIssue at h
  split at h
  · cases h
  rename_i status hfind
  split at h
  · rename_i havailable
    exact ⟨status, List.mem_of_find?_eq_some hfind, by simpa using List.find?_some hfind, havailable⟩
  · cases h
  · cases h

/-- A selection that validates is the one that was asked for, and usable. -/
theorem validateSelection_ok {selection : Option ModelSelection} {selected : Option ModelSelection}
    (h : validateSelection snapshot processId selection availability = .ok selected revision) :
    selected = selection ∧ revision = availability.map (·.revision) ∧
      ∃ s, selection = some s ∧ Usable snapshot processId availability s.modelProfileId := by
  unfold validateSelection at h
  cases selection with
  | none => cases h
  | some s =>
    dsimp only at h
    split at h
    · cases h
    rename_i profile hprofile
    obtain ⟨hmem, hid⟩ := profilesById_some hprofile
    rw [hid] at h
    split at h
    · cases h
    rename_i hallowed
    split at h
    · cases h
    rename_i hissue
    cases h
    refine ⟨rfl, rfl, s, rfl, ⟨profile, hmem, hid⟩, fun allowed ha => ?_, fun a ha => ?_⟩
    · rw [ha] at hallowed
      simpa using hallowed
    · subst ha
      exact availabilityIssue_none hissue

theorem validateSelection_usable (h : Usable snapshot processId none s.modelProfileId) :
    validateSelection snapshot processId (some s) none = .ok (some s) none := by
  unfold validateSelection
  obtain ⟨profile, hmem, hid⟩ := h.known
  have hfound : ∃ found, profilesById snapshot s.modelProfileId = some found := by
    apply Option.isSome_iff_exists.1
    unfold profilesById
    rw [List.find?_isSome]
    exact ⟨profile, List.mem_reverse.2 hmem, by simpa using hid⟩
  obtain ⟨found, hfound⟩ := hfound
  dsimp only
  rw [hfound]
  dsimp only
  rw [(profilesById_some hfound).2]
  cases ha : (processPolicy snapshot processId).allowedProfileIds with
  | none => rfl
  | some allowed => simp [h.allowed allowed ha]

/-! ## The candidates for a turn -/

/-- The selection an override names. -/
def Override.selection : Override → Option ModelSelection
  | .profile profileId source => some ⟨profileId, .explicit, source.toSource⟩
  | _ => none

/-- What the configuration offers for a turn: the turn's choice, the process default, the scoped
purpose default, the turn and process defaults of the configuration, and the global default. -/
def inheritedCandidates (snapshot : PolicySnapshot) (processId : String) (defaultProfileId : Option String)
    (turnProfileIds : TurnId → Option String) (turnId : TurnId) : List (Except String (Option ModelSelection)) :=
  let policy := processPolicy snapshot processId
  [ .ok (configuredSelection (turnProfileIds turnId) .instanceTurnConfig),
    .ok (configuredSelection defaultProfileId .instanceDefault),
    (policy.scopedProfileIdForTurn turnId).map fun id => configuredSelection id .scopedPurposeDefault,
    .ok (configuredSelection (policy.turnProfileIds turnId) .processConfigTurn),
    .ok (configuredSelection policy.defaultProfileId .processConfigDefault),
    .ok (configuredSelection (some snapshot.defaultProfileId) .catalogDefault) ]

/-- The choices for a turn in order of precedence. A code-defined purpose is the only one for its
turn; otherwise the override comes first, then a pinned choice that the mode keeps, then what is
inherited. -/
def candidates (snapshot : PolicySnapshot) (processId : String) (configuration : ModelConfiguration) (turnId : TurnId)
    (mode : ResolutionMode) (existing : ExistingTurnSelection) (override : Override) :
    List (Except String (Option ModelSelection)) :=
  match ((processPolicy snapshot processId).purposeProfileIdsByTurn turnId).filter (· ≠ "") with
  | some purpose => [.ok (configuredSelection (some purpose) .processConfigDefault)]
  | none => match configuration with
    | .invalid => []
    | .valid defaultProfileId turnProfileIds =>
      .ok override.selection ::
        .ok (pinnedSelection turnId mode.keeps (if override = .clear then .none else existing)) ::
          inheritedCandidates snapshot processId defaultProfileId turnProfileIds turnId

theorem resolvedDefault_eq (defaultProfileId : Option String) :
    Except.ok (resolvedDefault snapshot processId defaultProfileId) =
      firstDefined (ε := String) [.ok (configuredSelection defaultProfileId .instanceDefault),
        .ok (configuredSelection (processPolicy snapshot processId).defaultProfileId .processConfigDefault),
        .ok (configuredSelection (some snapshot.defaultProfileId) .catalogDefault)] := by
  unfold resolvedDefault
  cases configuredSelection defaultProfileId .instanceDefault with
  | some x => rfl
  | none =>
    cases configuredSelection (processPolicy snapshot processId).defaultProfileId .processConfigDefault with
    | some x => rfl
    | none => cases configuredSelection (some snapshot.defaultProfileId) .catalogDefault <;> rfl

/-- What is inherited is the first of its candidates. -/
theorem resolveInherited_eq (defaultProfileId : Option String) (turnProfileIds : TurnId → Option String) (turnId : TurnId) :
    resolveInherited snapshot processId defaultProfileId turnProfileIds turnId =
      firstDefined (inheritedCandidates snapshot processId defaultProfileId turnProfileIds turnId) := by
  unfold resolveInherited inheritedCandidates
  dsimp only
  rw [firstDefined_or]
  cases configuredSelection (turnProfileIds turnId) .instanceTurnConfig with
  | some x => rfl
  | none =>
    dsimp only
    rw [firstDefined_or]
    cases hd : configuredSelection defaultProfileId .instanceDefault with
    | some x => rfl
    | none =>
      dsimp only
      cases (processPolicy snapshot processId).scopedProfileIdForTurn turnId with
      | error message => rfl
      | ok id =>
        dsimp only [Except.map]
        rw [firstDefined_or]
        cases configuredSelection id .scopedPurposeDefault with
        | some x => rfl
        | none =>
          dsimp only
          rw [firstDefined_or]
          cases configuredSelection ((processPolicy snapshot processId).turnProfileIds turnId) .processConfigTurn with
          | some x => rfl
          | none =>
            dsimp only
            rw [resolvedDefault_eq, hd]
            rfl

/-- Resolving an LLM turn of a valid configuration validates the first candidate. -/
theorem resolveTurn_ok {configuration : ModelConfiguration} {turnId : TurnId} {mode : ResolutionMode}
    {existing : ExistingTurnSelection} {override : Override}
    (h : resolveTurn snapshot processId configuration turnId mode existing override availability = .ok (some s) revision) :
    firstDefined (candidates snapshot processId configuration turnId mode existing override) = .ok (some s) ∧
      Usable snapshot processId availability s.modelProfileId := by
  have hvalid : ∀ {selection}, validateSelection snapshot processId selection availability = .ok (some s) revision →
      selection = some s ∧ Usable snapshot processId availability s.modelProfileId := by
    intro selection hv
    obtain ⟨hsel, -, s', hs', husable⟩ := validateSelection_ok hv
    rw [← hsel] at hs'
    cases hs'
    exact ⟨hsel.symm, husable⟩
  unfold resolveTurn at h
  unfold candidates
  dsimp only at h
  split at h
  · cases h
  cases configuration with
  | invalid => cases h
  | valid defaultProfileId turnProfileIds =>
    dsimp only at h ⊢
    generalize ((processPolicy snapshot processId).purposeProfileIdsByTurn turnId).filter (· ≠ "") = purpose at h ⊢
    cases purpose with
    | some purpose =>
      obtain ⟨hs, husable⟩ := hvalid h
      refine ⟨?_, husable⟩
      dsimp only
      rw [hs]
      rfl
    | none =>
      dsimp only at h ⊢
      split at h
      · cases h
      cases override with
      | profile id source =>
        obtain ⟨hs, husable⟩ := hvalid h
        refine ⟨?_, husable⟩
        rw [← hs]
        rfl
      | _ =>
        rw [show Override.selection _ = none from rfl, firstDefined_none, firstDefined_or]
        generalize pinnedSelection turnId mode.keeps _ = pinned at h ⊢
        cases pinned with
        | some selection =>
          obtain ⟨hs, husable⟩ := hvalid h
          exact ⟨congrArg Except.ok hs, husable⟩
        | none =>
          dsimp only at h ⊢
          rw [← resolveInherited_eq]
          cases hinherited : resolveInherited snapshot processId defaultProfileId turnProfileIds turnId with
          | error message => rw [hinherited] at h; cases h
          | ok selection =>
            rw [hinherited] at h
            obtain ⟨hs, husable⟩ := hvalid h
            exact ⟨congrArg Except.ok hs, husable⟩

/-! ## Every subject -/

/-- The model a failed preparation asked for. -/
def requestedSelection (failure : PreparationFailure) : Option ModelSelection :=
  match trimToNull failure.requestedModelProfileId, failure.modelSelectionProvenance with
  | some profileId, some provenance => some ⟨profileId, provenance⟩
  | _, _ => none

/-- The choices for a subject in the order of its kind. A recovery repeats the choice of the failed
preparation, unless that was inherited. -/
def EvaluationSubject.candidates (snapshot : PolicySnapshot) (keepsKey : TurnId → Bool) :
    EvaluationSubject → List (Except String (Option ModelSelection))
  | .processTurn p turnId _ startKind initialSelection override =>
    Policy.candidates snapshot p.processId (p.configuration keepsKey) turnId (resolutionMode startKind initialSelection)
      (existingTurnSelectionFromProcess p.process) (modelOverride override .actionOverride)
  | .launchPlanTurn plan turnId _ =>
    Policy.candidates snapshot plan.processId
      (modelConfigurationFromPersistedInput keepsKey plan.processInput.defaultModelProfileId plan.processInput.turnConfigsJson)
      turnId .resolve .none (modelOverride (plan.processInput.selectedTurnModelProfileId.map some) .launchOverride)
  | .runtimeSelection _ selection _ => [.ok selection]
  | .preparationRecovery _ p currentStart _ =>
    match currentStart.state with
    | .preparationFailed failure =>
      match failure.modelSelectionProvenance with
      | some ⟨.inherited, _⟩ =>
        Policy.candidates snapshot p.processId (p.configuration keepsKey) currentStart.turnId .retry
          (existingTurnSelectionFromProcess p.process) .inherit
      | _ => [.ok (requestedSelection failure)]
    | _ => []

theorem recoverableFailure_some {cause : RecoveryCause} {currentStart : TurnStartRecord} {a : ModelStatusCacheSnapshot}
    {failure : PreparationFailure} (h : recoverableFailure cause currentStart a = some failure) :
    currentStart.state = .preparationFailed failure := by
  unfold recoverableFailure at h
  split at h
  · rename_i f hstate
    split at h
    · cases h
    split at h
    · cases h
    split at h
    · cases h
    · cases h
      exact hstate
  · cases h

/-- What a subject is evaluated to is its first defined candidate, and usable. -/
theorem evaluateSubject_ok {keepsKey : TurnId → Bool} {subject : EvaluationSubject}
    (h : evaluateSubject snapshot keepsKey subject = .ok (some s) revision) :
    firstDefined (subject.candidates snapshot keepsKey) = .ok (some s) ∧
      Usable snapshot subject.processId subject.availability s.modelProfileId := by
  have hone : ∀ {processId selection a}, validateSelection snapshot processId selection (some a) = .ok (some s) revision →
      firstDefined (ε := String) [.ok selection] = .ok (some s) ∧ Usable snapshot processId (some a) s.modelProfileId := by
    intro processId selection a hv
    obtain ⟨hsel, -, s', hs', husable⟩ := validateSelection_ok hv
    rw [← hsel] at hs'
    cases hs'
    rw [← hsel]
    exact ⟨rfl, husable⟩
  cases subject with
  | processTurn p turnId a startKind initialSelection override => exact resolveTurn_ok h
  | launchPlanTurn plan turnId a => exact resolveTurn_ok h
  | runtimeSelection processId selection a => exact hone h
  | preparationRecovery cause p currentStart a =>
    replace h : recoverPreparation snapshot p.processId cause (p.configuration keepsKey)
      (existingTurnSelectionFromProcess p.process) currentStart a = .ok (some s) revision := h
    unfold recoverPreparation at h
    split at h
    · cases h
    rename_i failure hfailure
    have hstate := recoverableFailure_some hfailure
    unfold EvaluationSubject.candidates
    dsimp only
    rw [hstate]
    dsimp only
    rcases Option.eq_none_or_eq_some failure.modelSelectionProvenance with hnone | ⟨⟨kind, source⟩, hsome⟩
    · unfold requestedSelection
      rw [hnone] at h ⊢
      exact hone h
    · unfold requestedSelection
      rw [hsome] at h ⊢
      cases kind with
      | explicit => exact hone h
      | inherited => exact resolveTurn_ok h

end Leitwerk.Policy
