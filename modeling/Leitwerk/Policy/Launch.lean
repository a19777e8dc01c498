import Leitwerk.Policy.Precedence
/-!
# Preparing a launch plan

`process-model-policy/launch.ts`. A launch plan carries a default model, one for
each of some turns and one for the turn it starts at. Preparing it validates all
of them, resolves the default, and either rejects a plan with issues or leaves
out what is invalid.
-/

namespace Leitwerk.Policy

open Engine

/-! ## Issues -/

/-- `LaunchPlanPreparationIssue`. -/
structure LaunchPlanPreparationIssue where
  code : String
  message : String
  deriving DecidableEq

inductive ModelTarget where
  | defaultModel
  | turnModel (turnId : TurnId)
  | selectedTurnModel (turnId : Option TurnId)
  deriving DecidableEq

/-- A string that JavaScript takes for true. -/
def truthy (text : Option String) : Option String := text.filter (· ≠ "")

def targetLabel : ModelTarget → String
  | .defaultModel => "default model"
  | .turnModel turnId => s!"turn '{turnId}'"
  | .selectedTurnModel turnId => match truthy turnId with
    | some turnId => s!"selected turn '{turnId}'"
    | none => "selected turn model"

/-- `issueForPolicy`, for a failure and the selection it is about. -/
def issueForPolicy (issue : PolicyIssue) (selection : Option ModelSelection) (processId : String) (modelTarget : ModelTarget) :
    LaunchPlanPreparationIssue :=
  let profileId := (selection.map (·.modelProfileId)).getD ""
  match issue with
  | .unknownModelProfile _ =>
    ⟨"unknown_model_profile", s!"Unknown model profile '{profileId}' for {targetLabel modelTarget}"⟩
  | .modelProfileNotAllowed _ _ =>
    ⟨"model_profile_not_allowed",
      s!"Model profile '{profileId}' is not allowed for process '{processId}' ({targetLabel modelTarget})"⟩
  | _ =>
    let turnId := match modelTarget with
      | .selectedTurnModel turnId => turnId.getD ""
      | _ => ""
    ⟨"model_required", s!"A model is required for turn '{turnId}'"⟩

/-- The issue a text of turn configs that does not parse is reported as. -/
def turnConfigsIssue : TurnConfigsError → LaunchPlanPreparationIssue
  | .invalidJson => ⟨"invalid_turn_configs_json", "turnConfigsJson must be valid JSON"⟩
  | .notObject => ⟨"invalid_turn_configs_json", "turnConfigsJson must be an object"⟩
  | .turnConfigNotObject turnId => ⟨"invalid_turn_configs_json", s!"turnConfigsJson.{turnId} must be an object"⟩

/-! ## The configuration a plan carries -/

/-- `normalizeLaunchModelConfigInput`. -/
def normalizeLaunchModelConfigInput (input : LaunchModelConfigInput) : LaunchModelConfigInput where
  defaultModelProfileId := trimToNull input.defaultModelProfileId
  turnConfigs := input.turnConfigs.filterMap fun (turnId, modelProfileId) =>
    if assignable turnId then (trimToNull modelProfileId).map fun id => (turnId, some id) else none

/-- `mergeModelConfig`. -/
def mergeModelConfig (base override : LaunchModelConfigInput) : LaunchModelConfigInput :=
  let normalizedBase := normalizeLaunchModelConfigInput base
  let normalizedOverride := normalizeLaunchModelConfigInput override
  { defaultModelProfileId := normalizedOverride.defaultModelProfileId.or normalizedBase.defaultModelProfileId
    turnConfigs := if normalizedOverride.turnConfigs ≠ [] then normalizedOverride.turnConfigs else normalizedBase.turnConfigs }

/-- `PrepareLaunchPlanOptions`; `omitInvalid` is `invalidModelConfig: "omit"`. -/
structure PrepareLaunchPlanOptions where
  modelConfig : LaunchModelConfigInput := {}
  replaceModelConfig : Bool := false
  omitInvalid : Bool := false

variable (snapshot : PolicySnapshot) (keepsKey : TurnId → Bool) (plan : LaunchPlan) (opts : PrepareLaunchPlanOptions)

/-- The turn configs of the plan, as they parse. -/
def LaunchPlan.parsed : Except TurnConfigsError TurnConfigs :=
  parseStrictInstanceTurnConfigsJson keepsKey plan.processInput.turnConfigsJson

/-- The configuration of the plan itself. -/
def LaunchPlan.baseConfig : LaunchModelConfigInput where
  defaultModelProfileId := plan.processInput.defaultModelProfileId
  turnConfigs := match plan.parsed keepsKey with
    | .ok turnConfigs => turnConfigs
    | .error _ => []

/-- The `normalized` configuration that is validated. -/
def normalizedConfig : LaunchModelConfigInput :=
  normalizeLaunchModelConfigInput
    (mergeModelConfig (if opts.replaceModelConfig then {} else plan.baseConfig keepsKey) opts.modelConfig)

/-! ## Validation -/

section
variable (processId : String)

def llmTurns : List TurnId := ((snapshot.processesById processId).map (·.llmTurnIds)).getD []

/-- `modelIssue`. -/
def modelIssue (profileId : Option String) (modelTarget : ModelTarget) : Option LaunchPlanPreparationIssue :=
  match truthy profileId with
  | none => none
  | some profileId =>
    match validateSelection snapshot processId (some ⟨profileId, .explicit, .instanceDefault⟩) none with
    | .ok _ _ => none
    | .failed issue selection _ => some (issueForPolicy issue selection processId modelTarget)

/-- What is wrong with the config of a turn. -/
def turnIssue (turnId : TurnId) (modelProfileId : Option String) : Option LaunchPlanPreparationIssue :=
  if turnId ∉ llmTurns snapshot processId then
    some ⟨"unknown_llm_turn", s!"Turn '{turnId}' is not a known LLM turn for process '{processId}'"⟩
  else (trimToNull modelProfileId).bind fun profileId => modelIssue snapshot processId (some profileId) (.turnModel turnId)

/-- The `modelConfig` that is left of a normalized one. -/
def validConfig (normalized : LaunchModelConfigInput) : LaunchModelConfigInput where
  defaultModelProfileId :=
    if (modelIssue snapshot processId normalized.defaultModelProfileId .defaultModel).isNone then
      normalized.defaultModelProfileId
    else none
  turnConfigs := normalized.turnConfigs.filterMap fun (turnId, modelProfileId) =>
    if (turnIssue snapshot processId turnId modelProfileId).isNone then
      (trimToNull modelProfileId).map fun id => (turnId, some id)
    else none
end

/-- The turn a plan starts at. -/
def LaunchPlan.selectedTurnId : Option TurnId := plan.startTurnId.or plan.processInput.selectedTurnId

/-- The model a plan chooses for that turn. -/
def LaunchPlan.selectedProfileId : Option String := trimToNull plan.processInput.selectedTurnModelProfileId

/-- `selectedTurnIssue`. -/
def selectedTurnIssue : Option LaunchPlanPreparationIssue :=
  match plan.selectedProfileId with
  | none => none
  | some profileId =>
    match truthy plan.selectedTurnId with
    | none => some ⟨"selected_turn_model_requires_selected_turn",
        s!"Selected turn model profile '{profileId}' requires a selected turn"⟩
    | some turnId =>
      if turnId ∉ llmTurns snapshot plan.processId then
        some ⟨"selected_turn_model_requires_llm_turn",
          s!"Selected turn model profile '{profileId}' requires selected turn '{turnId}' to be an LLM turn"⟩
      else modelIssue snapshot plan.processId (some profileId) (.selectedTurnModel (some turnId))

/-- `selectedModelProfileId`. -/
def selectedModelProfileId : Option String :=
  if (selectedTurnIssue snapshot plan).isSome ∧ opts.omitInvalid then none else plan.selectedProfileId

/-- The issue of a selected turn that no model is configured for. -/
def requiredIssue (modelConfig : LaunchModelConfigInput) (selectedModelProfileId : Option String) :
    Option LaunchPlanPreparationIssue :=
  match truthy plan.selectedTurnId with
  | none => none
  | some turnId =>
    if selectedModelProfileId.isSome then none
    else match resolveTurn snapshot plan.processId (modelConfigurationFromLaunchInput modelConfig) turnId .resolve .none
        .inherit none with
      | .failed .modelRequired selection _ =>
        some (issueForPolicy .modelRequired selection plan.processId (.selectedTurnModel (some turnId)))
      | _ => none

/-- `initialDefaultModelProfileId`. -/
def initialDefaultModelProfileId (processId : String) (modelConfig : LaunchModelConfigInput) : Option String :=
  match resolveDefault snapshot processId (trimToNull modelConfig.defaultModelProfileId) none with
  | .ok selection _ => selection.map (·.modelProfileId)
  | .failed _ _ _ => none

/-- The issues of a plan, in the order they are reported. -/
def launchIssues : List LaunchPlanPreparationIssue :=
  let normalized := normalizedConfig keepsKey plan opts
  let modelConfig := validConfig snapshot plan.processId normalized
  (match plan.parsed keepsKey with
    | .ok _ => []
    | .error why => [turnConfigsIssue why]) ++
  (modelIssue snapshot plan.processId normalized.defaultModelProfileId .defaultModel).toList ++
  normalized.turnConfigs.filterMap (fun (turnId, modelProfileId) => turnIssue snapshot plan.processId turnId modelProfileId) ++
  (selectedTurnIssue snapshot plan).toList ++
  (requiredIssue snapshot plan modelConfig (selectedModelProfileId snapshot plan opts)).toList

/-! ## The prepared plan -/

/-- `LaunchPlanPreparationResultLike`. -/
inductive LaunchPlanPreparationResult where
  | ok (modelConfig : LaunchModelConfigInput) (warnings : List LaunchPlanPreparationIssue) (launchPlan : LaunchPlan)
  | rejected (launchPlan : LaunchPlan) (modelConfig : LaunchModelConfigInput) (errors : List LaunchPlanPreparationIssue)
  deriving DecidableEq

/-- The plan with what is left of its models. -/
def preparedPlan (modelConfig : LaunchModelConfigInput) (selectedModelProfileId : Option String) : LaunchPlan :=
  { plan with processInput :=
      { plan.processInput with
        defaultModelProfileId := modelConfig.defaultModelProfileId
        selectedTurnModelProfileId := selectedModelProfileId
        selectedTurnModelKind := selectedModelProfileId.map fun _ => .explicit
        selectedTurnModelSource := selectedModelProfileId.map fun _ => .launchOverride
        initialDefaultModelProfileId := initialDefaultModelProfileId snapshot plan.processId modelConfig
        turnConfigsJson := serializeInstanceTurnConfigs modelConfig.turnConfigs } }

/-- The plan a rejection returns. -/
def rejectedPlan (normalized : LaunchModelConfigInput) : LaunchPlan :=
  match plan.parsed keepsKey with
  | .ok _ =>
    { plan with processInput :=
        { plan.processInput with
          defaultModelProfileId := normalized.defaultModelProfileId
          turnConfigsJson := serializeInstanceTurnConfigs normalized.turnConfigs } }
  | .error _ => plan

/-- `prepareLaunchPlan`. -/
def prepareLaunchPlan : LaunchPlanPreparationResult :=
  if plan.processId ≠ plan.processInput.processId then
    .rejected plan (normalizeLaunchModelConfigInput opts.modelConfig)
      [⟨"process_id_mismatch",
        s!"Launch plan process '{plan.processId}' does not match input process '{plan.processInput.processId}'"⟩]
  else
    let normalized := normalizedConfig keepsKey plan opts
    let modelConfig := validConfig snapshot plan.processId normalized
    let issues := launchIssues snapshot keepsKey plan opts
    if issues ≠ [] ∧ opts.omitInvalid = false then .rejected (rejectedPlan keepsKey plan normalized) normalized issues
    else .ok modelConfig issues (preparedPlan snapshot plan modelConfig (selectedModelProfileId snapshot plan opts))

end Leitwerk.Policy
