import Leitwerk.Engine.ModelPolicy
import Leitwerk.Lib.Precedence
/-!
# Evaluating the process model policy

`process-model-policy/evaluate.ts`, `input.ts` and `evaluateSubject` of its
`index.ts`, over a whole policy snapshot: every process type, with or without
the availability of the profiles. The turn configs of a process are JSON, which
appears here as what it parses to.
-/

namespace Leitwerk.Policy

open Engine

/-! ## Turn configs -/

/-- The config of one turn in a JSON text, with the string its `modelProfileId` is. -/
inductive TurnConfigValue where
  | notObject
  | config (modelProfileId : Option String)
  deriving DecidableEq

/-- What `turnConfigsJson` holds. The turns are the own keys of an object, so they are distinct. -/
inductive TurnConfigsJson where
  | absent
  | invalidJson
  | notObject
  | object (turns : List (TurnId × TurnConfigValue))
  deriving DecidableEq

/-- `InstanceTurnConfigsJsonError`, less its code and process. -/
inductive TurnConfigsError where
  | invalidJson
  | notObject
  | turnConfigNotObject (turnId : TurnId)
  deriving DecidableEq

/-- `InstanceTurnConfigMap`, in the order of its keys. -/
abbrev TurnConfigs := List (TurnId × Option String)

/-- Assigning to `__proto__` defines no own key. -/
def assignable (turnId : TurnId) : Bool := turnId ≠ "__proto__"

/-- `parseStrictInstanceTurnConfigsJson`. A record keeps the keys that `keepsKey` holds of. -/
def parseStrictInstanceTurnConfigsJson (keepsKey : TurnId → Bool) : TurnConfigsJson → Except TurnConfigsError TurnConfigs
  | .absent => .ok []
  | .invalidJson => .error .invalidJson
  | .notObject => .error .notObject
  | .object turns =>
    match (turns.filter (keepsKey ·.1)).find? (·.2 == .notObject) with
    | some (turnId, _) => .error (.turnConfigNotObject turnId)
    | none => .ok <| ((turns.filter (keepsKey ·.1)).filter (assignable ·.1)).map fun
        | (turnId, .config modelProfileId) => (turnId, trimToNull modelProfileId)
        | (turnId, .notObject) => (turnId, none)

/-- `serializeInstanceTurnConfigs`. -/
def serializeInstanceTurnConfigs (turnConfigs : TurnConfigs) : TurnConfigsJson :=
  match turnConfigs.filterMap fun (turnId, modelProfileId) => (trimToNull modelProfileId).map (turnId, ·) with
  | [] => .absent
  | entries => .object (entries.map fun (turnId, modelProfileId) => (turnId, .config (some modelProfileId)))

/-! ## What the policy reads -/

structure PolicyProfile where
  id : String
  provider : String
  modelId : String
  thinkingLevel : String := "off"
  deriving DecidableEq

/-- `PolicyProcess`. -/
structure ProcessPolicy extends PolicyProcess where
  id : String
  llmTurnIds : List TurnId := []

structure PolicySnapshot where
  defaultProfileId : String
  profiles : List PolicyProfile
  processesById : String → Option ProcessPolicy

variable (snapshot : PolicySnapshot) (processId : String)

/-- `snapshot.profilesById.get`: the last profile of an id. -/
def profilesById (id : String) : Option PolicyProfile := snapshot.profiles.reverse.find? (·.id = id)

/-- `processPolicy`. -/
def processPolicy : ProcessPolicy := (snapshot.processesById processId).getD { id := processId }

/-- The persisted model columns of a process, with the columns the engine reads. -/
structure ProcessModels where
  processId : String
  process : Engine.Process
  defaultModelProfileId : Option String := none
  turnConfigsJson : TurnConfigsJson := .absent

/-- `LaunchModelConfigInput`. -/
structure LaunchModelConfigInput where
  defaultModelProfileId : Option String := none
  turnConfigs : TurnConfigs := []
  deriving DecidableEq

/-- The model columns of `ProcessLaunchPlan["processInput"]`. -/
structure LaunchProcessInput where
  processId : String
  selectedTurnId : Option TurnId := none
  defaultModelProfileId : Option String := none
  turnConfigsJson : TurnConfigsJson := .absent
  selectedTurnModelProfileId : Option String := none
  selectedTurnModelKind : Option ModelSelectionKind := none
  selectedTurnModelSource : Option ModelSelectionSource := none
  initialDefaultModelProfileId : Option String := none
  deriving DecidableEq

/-- `ProcessLaunchPlan`, as far as models are concerned. -/
structure LaunchPlan where
  processId : String
  startTurnId : Option TurnId := none
  processInput : LaunchProcessInput
  deriving DecidableEq

/-- `modelConfigurationFromLaunchInput`. -/
def modelConfigurationFromLaunchInput (modelConfig : LaunchModelConfigInput) : ModelConfiguration :=
  .valid (trimToNull modelConfig.defaultModelProfileId) fun turnId =>
    (modelConfig.turnConfigs.lookup turnId).bind trimToNull

/-- `modelConfigurationFromPersistedInput`. -/
def modelConfigurationFromPersistedInput (keepsKey : TurnId → Bool) (defaultModelProfileId : Option String)
    (turnConfigsJson : TurnConfigsJson) : ModelConfiguration :=
  match parseStrictInstanceTurnConfigsJson keepsKey turnConfigsJson with
  | .error _ => .invalid
  | .ok turnConfigs => modelConfigurationFromLaunchInput { defaultModelProfileId, turnConfigs }

/-! ## The outcome of an evaluation -/

/-- The code of a `ProcessModelPolicyFailure` with its data, less the lists of issues. -/
inductive PolicyIssue where
  | modelRequired
  | unknownModelProfile (modelProfileId : String)
  | modelProfileNotAllowed (modelProfileId processId : String)
  | modelUnavailable (reason : Option String)
  | modelStale (reason : Option String)
  | invalidConfiguration
  | invalidScopedSettings (message : String)
  | invalidProvenance
  deriving DecidableEq

/-- `ProcessModelPolicyEvaluation`. -/
inductive Evaluation where
  | ok (selection : Option ModelSelection) (availabilityRevision : Option Nat)
  | failed (issue : PolicyIssue) (selection : Option ModelSelection) (availabilityRevision : Option Nat)
  deriving DecidableEq

/-- Why a profile may not be used at an availability. -/
def availabilityIssue (availability : ModelStatusCacheSnapshot) (profileId : String) : Option PolicyIssue :=
  match availability.profiles.find? (·.profileId = profileId) with
  | none => some (.modelStale none)
  | some status => match status.availability with
    | .available => none
    | .stale => some (.modelStale status.safeReason)
    | .unavailable => some (.modelUnavailable status.safeReason)

/-- `validateSelection`. -/
def validateSelection (selection : Option ModelSelection) (availability : Option ModelStatusCacheSnapshot) : Evaluation :=
  let revision := availability.map (·.revision)
  match selection with
  | none => .failed .modelRequired none revision
  | some s =>
    match profilesById snapshot s.modelProfileId with
    | none => .failed (.unknownModelProfile s.modelProfileId) (some s) revision
    | some profile =>
      if (processPolicy snapshot processId).allowedProfileIds.any (profile.id ∉ ·) then
        .failed (.modelProfileNotAllowed profile.id processId) (some s) revision
      else match availability.bind (availabilityIssue · profile.id) with
        | some issue => .failed issue (some s) revision
        | none => .ok (some s) revision

/-- `resolvedDefault`. -/
def resolvedDefault (defaultProfileId : Option String) : Option ModelSelection :=
  match configuredSelection defaultProfileId .instanceDefault with
  | some instanceDefault => some instanceDefault
  | none => match configuredSelection (processPolicy snapshot processId).defaultProfileId .processConfigDefault with
    | some configured => some configured
    | none => configuredSelection (some snapshot.defaultProfileId) .catalogDefault

/-- `resolveDefault`. -/
def resolveDefault (defaultProfileId : Option String) (availability : Option ModelStatusCacheSnapshot) : Evaluation :=
  validateSelection snapshot processId (resolvedDefault snapshot processId defaultProfileId) availability

/-- `resolveInherited`; reading the scoped settings may throw. -/
def resolveInherited (defaultProfileId : Option String) (turnProfileIds : TurnId → Option String) (turnId : TurnId) :
    Except String (Option ModelSelection) :=
  let policy := processPolicy snapshot processId
  match configuredSelection (turnProfileIds turnId) .instanceTurnConfig with
  | some instanceTurn => .ok (some instanceTurn)
  | none => match configuredSelection defaultProfileId .instanceDefault with
    | some instanceDefault => .ok (some instanceDefault)
    | none => match policy.scopedProfileIdForTurn turnId with
      | .error message => .error message
      | .ok scopedId => match configuredSelection scopedId .scopedPurposeDefault with
        | some scopedDefault => .ok (some scopedDefault)
        | none => match configuredSelection (policy.turnProfileIds turnId) .processConfigTurn with
          | some processTurn => .ok (some processTurn)
          | none => .ok (resolvedDefault snapshot processId defaultProfileId)

/-! ## Evaluation -/

inductive ResolutionMode where
  | resolve | initial | retry | continue
  deriving DecidableEq

/-- Whether the mode keeps a pinned selection. -/
def ResolutionMode.keeps : ResolutionMode → Bool
  | .initial | .retry | .continue => true
  | .resolve => false

/-- The source of an override. -/
inductive OverrideSource where
  | actionOverride | launchOverride
  deriving DecidableEq

def OverrideSource.toSource : OverrideSource → ModelSelectionSource
  | .actionOverride => .actionOverride
  | .launchOverride => .launchOverride

/-- `ModelOverride`. -/
inductive Override where
  | inherit
  | clear
  | profile (profileId : String) (source : OverrideSource)
  deriving DecidableEq

/-- `modelOverride`, where `none` is no override provided. -/
def modelOverride (value : Option (Option String)) (source : OverrideSource) : Override :=
  match value with
  | none => .inherit
  | some value => match trimToNull value with
    | some profileId => .profile profileId source
    | none => .clear

/-- `resolveTurn`. -/
def resolveTurn (configuration : ModelConfiguration) (turnId : TurnId) (mode : ResolutionMode)
    (existing : ExistingTurnSelection) (override : Override) (availability : Option ModelStatusCacheSnapshot) : Evaluation :=
  let policy := processPolicy snapshot processId
  if turnId ∉ policy.llmTurnIds then .ok none none
  else match configuration with
    | .invalid => .failed .invalidConfiguration none none
    | .valid defaultProfileId turnProfileIds =>
      -- a configured code-defined purpose is authoritative over launch and action overrides
      match (policy.purposeProfileIdsByTurn turnId).filter (· ≠ "") with
      | some purpose =>
        validateSelection snapshot processId (configuredSelection (some purpose) .processConfigDefault) availability
      | none =>
        if existing = .invalid turnId then .failed .invalidProvenance none (availability.map (·.revision))
        else match override, pinnedSelection turnId mode.keeps (if override = .clear then .none else existing) with
          | .profile profileId source, _ =>
            validateSelection snapshot processId (some ⟨profileId, .explicit, source.toSource⟩) availability
          | _, some selection => validateSelection snapshot processId (some selection) availability
          | _, none => match resolveInherited snapshot processId defaultProfileId turnProfileIds turnId with
            | .ok selection => validateSelection snapshot processId selection availability
            | .error message => .failed (.invalidScopedSettings message) none none

/-- The `cause` of a preparation recovery. -/
inductive RecoveryCause where
  | availabilityTransition | startupReconciliation
  deriving DecidableEq

/-- The failed preparation a recovery is for, if it may be recovered. -/
def recoverableFailure (cause : RecoveryCause) (currentStart : TurnStartRecord)
    (availability : ModelStatusCacheSnapshot) : Option PreparationFailure :=
  match currentStart.state with
  | .preparationFailed failure =>
    if failure.code ≠ .modelUnavailable ∧ failure.code ≠ .modelStale then none
    else match failure.availabilityRevision with
      | none => none
      | some revision =>
        if cause = .availabilityTransition ∧ availability.revision ≤ revision then none else some failure
  | _ => none

/-- `recoverPreparation`. -/
def recoverPreparation (cause : RecoveryCause) (configuration : ModelConfiguration) (existing : ExistingTurnSelection)
    (currentStart : TurnStartRecord) (availability : ModelStatusCacheSnapshot) : Evaluation :=
  match recoverableFailure cause currentStart availability with
  | none =>
    .failed (.modelUnavailable (some "This start is not eligible for automatic model recovery")) none
      (some availability.revision)
  | some failure =>
    match failure.modelSelectionProvenance with
    | some ⟨.inherited, _⟩ =>
      resolveTurn snapshot processId configuration currentStart.turnId .retry existing .inherit (some availability)
    | provenance =>
      let requested := match trimToNull failure.requestedModelProfileId, provenance with
        | some profileId, some provenance => some ⟨profileId, provenance⟩
        | _, _ => none
      validateSelection snapshot processId requested (some availability)

/-! ## Subjects -/

/-- `ProcessModelPolicyEvaluationSubject`. -/
inductive EvaluationSubject where
  | processTurn (process : ProcessModels) (turnId : TurnId) (availability : Option ModelStatusCacheSnapshot)
      (startKind : Option TurnStartKind) (initialSelection : Bool) (override : Option (Option String))
  | launchPlanTurn (plan : LaunchPlan) (turnId : TurnId) (availability : ModelStatusCacheSnapshot)
  | runtimeSelection (processId : String) (selection : Option ModelSelection) (availability : ModelStatusCacheSnapshot)
  | preparationRecovery (cause : RecoveryCause) (process : ProcessModels) (currentStart : TurnStartRecord)
      (availability : ModelStatusCacheSnapshot)

/-- `resolutionMode`. -/
def resolutionMode (startKind : Option TurnStartKind) (initialSelection : Bool) : ResolutionMode :=
  match startKind with
  | some .retry | some .startupRetry => .retry
  | some .continue => .continue
  | some .selectedTurn | none => if initialSelection then .initial else .resolve

/-- `modelConfigurationFromProcess`. -/
def ProcessModels.configuration (keepsKey : TurnId → Bool) (p : ProcessModels) : ModelConfiguration :=
  modelConfigurationFromPersistedInput keepsKey p.defaultModelProfileId p.turnConfigsJson

/-- `evaluateSubject`. -/
def evaluateSubject (keepsKey : TurnId → Bool) : EvaluationSubject → Evaluation
  | .processTurn p turnId availability startKind initialSelection override =>
    resolveTurn snapshot p.processId (p.configuration keepsKey) turnId (resolutionMode startKind initialSelection)
      (existingTurnSelectionFromProcess p.process) (modelOverride override .actionOverride) availability
  | .launchPlanTurn plan turnId availability =>
    let input := plan.processInput
    resolveTurn snapshot plan.processId
      (modelConfigurationFromPersistedInput keepsKey input.defaultModelProfileId input.turnConfigsJson) turnId .resolve .none
      (modelOverride (input.selectedTurnModelProfileId.map some) .launchOverride) (some availability)
  | .runtimeSelection processId selection availability =>
    validateSelection snapshot processId selection (some availability)
  | .preparationRecovery cause p currentStart availability =>
    recoverPreparation snapshot p.processId cause (p.configuration keepsKey) (existingTurnSelectionFromProcess p.process)
      currentStart availability

end Leitwerk.Policy
