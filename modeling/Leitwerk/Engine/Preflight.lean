import Leitwerk.Engine.ModelPolicy
/-!
# Model preparation at one availability snapshot

`runModelPreparation` and `turn-start-preflight.ts` with the model policy they
ask. Resolving settings and options and assembling a resource bundle reads
configuration this development does not look into: a `PreflightEnvironment` is
what those steps answer. `Context.at` is the context of `record` for one
snapshot.
-/

namespace Leitwerk.Engine

variable (d : ProcessDefinition)

/-! ## Preflight of one start -/

/-- What `resolveRegisteredProviderOptions` makes of the options of a start. -/
inductive ProviderOptionsResolution where
  | ok (options : ProviderOptions)
  | required (message : String)
  | invalid (message : String)

/-- The steps of preflight outside the model policy. -/
structure PreflightEnvironment where
  outcomeContract : Process → TurnStartInput → Except String (Option Json) := fun _ _ => .ok none
  captureScopedSettings : Process → TurnId → Bool → Except String Unit := fun _ _ _ => .ok ()
  modelProfiles : String → Option ResolvedModel
  /-- The options a start retries with: those named explicitly or those retained that its provider defines. -/
  recoveryOptions : TurnStartInput → ResolvedModel → ProviderOptions := fun _ _ => []
  providerOptions : ResolvedModel → ProviderOptions → ProviderOptionsResolution := fun _ options => .ok options
  /-- The digest of the assembled resource bundle; assembling may throw. -/
  assemble : Process → ResolvedModel → ProviderOptions → Option String := fun _ _ _ => some ""

/-- `previousProviderOptions`. -/
def previousProviderOptions : InitialStartState → ProviderOptions
  | .preparationFailed failure => failure.providerOptions
  | .starting (.llm start) => start.providerOptions
  | .starting .automatic => []

/-- The code a start is parked with when the policy refuses it. -/
def PolicyFailureCode.preparationCode : PolicyFailureCode → PreparationFailureCode
  | .modelUnavailable => .modelUnavailable
  | .modelStale => .modelStale
  | .modelRequired => .modelRequired
  | .unknownModelProfile | .modelProfileNotAllowed | .invalidModelConfiguration => .invalidModelConfiguration

/-- The provenance of the selection a process holds, when it has both columns. -/
def Process.selectedTurnModelProvenance (p : Process) : Option ModelSelectionProvenance :=
  match p.selectedTurnModelKind, p.selectedTurnModelSource with
  | some kind, some source => some ⟨kind, source⟩
  | _, _ => none

variable (policy : ModelPolicy) (env : PreflightEnvironment) (availability : ModelStatusCacheSnapshot)

/-- What becomes of a start whose profile is known: its options, then its resource bundle. -/
def prepareWithProfile (next : Process) (s : TurnStartInput) (model : ResolvedModel) (contract : Option Json)
    (selection : Option ModelSelection) : PreflightVerdict :=
  let options := env.recoveryOptions s model
  let failure (code : PreparationFailureCode) (options : ProviderOptions) (safeSummary : String) : PreflightVerdict :=
    .parkFailure { requestedModelProfileId := some model.profileId, providerOptions := options, code, safeSummary } selection
  match env.providerOptions model options with
  | .invalid message => .reject ⟨"invalid_provider_options", message⟩
  | .required message => failure .providerOptionsRequired options message
  | .ok options => match env.assemble next model options with
    | none => failure .providerPreflightFailed options "The provider could not prepare this worker start"
    | some digest => .prepared
        { model, modelSelectionProvenance := next.selectedTurnModelProvenance
          availabilityRevision := availability.revision, providerOptions := options
          piResourceSnapshotDigest := digest, outcomeContract := contract } selection

/-- What becomes of a start the policy lets through, on the process with its selection. -/
def prepareSelected (next : Process) (s : TurnStartInput) (contract : Option Json) (selection : Option ModelSelection) :
    PreflightVerdict :=
  let requestedProfileId := trimToNull next.selectedTurnModelProfileId
  match env.captureScopedSettings next s.turnId (next.selectedTurnModelSource == some .scopedPurposeDefault) with
  | .error message => .parkFailure
      { requestedModelProfileId := requestedProfileId, providerOptions := [], code := .invalidModelConfiguration
        safeSummary := message } selection
  | .ok () =>
    match s.state, requestedProfileId with
    | .preparationFailed retained, requested =>
      if retained.code = .invalidModelConfiguration then .parkFailure retained selection
      else prepareRequested next requested retained.providerOptions
    | .starting (.llm start), requested => prepareRequested next requested start.providerOptions
    | .starting .automatic, requested => prepareRequested next requested []
where
  prepareRequested (next : Process) (requested : Option String) (retainedOptions : ProviderOptions) : PreflightVerdict :=
    match requested with
    | none => .parkFailure
        { requestedModelProfileId := none, providerOptions := retainedOptions, code := .modelRequired
          safeSummary := "Choose a model before retrying startup"
          availabilityRevision := some availability.revision } selection
    | some profileId => match env.modelProfiles profileId with
      | none => .reject ⟨"invalid_model_profile", s!"Unknown model profile '{profileId}'"⟩
      | some model => prepareWithProfile env availability next s { model with profileId } contract selection

/-- `prepareCreatedTurnStarts` on one created LLM start. -/
def prepareCreatedTurnStart (next : Process) (s : TurnStartInput) : PreflightVerdict :=
  match env.outcomeContract next s with
  | .error message => .reject ⟨"invalid_outcome_contract", message⟩
  | .ok contract =>
    let evaluated := evaluateTurn d policy next s.turnId (some s.startKind) true none availability
    match evaluated.failure with
    | some failure => .parkFailure
        { requestedModelProfileId := evaluated.selection.map (·.modelProfileId)
          providerOptions := previousProviderOptions s.state
          code := failure.code.preparationCode, safeSummary := failure.message
          modelSelectionProvenance := evaluated.selection.map (·.provenance)
          availabilityRevision := some availability.revision } none
    | none => prepareSelected env availability ((selectionPatch evaluated.selection).apply next) s contract evaluated.selection

/-! ## Recording at one snapshot -/

/-- What the engine prepares models with: its policy and, unless it is built without one, its preflight. -/
structure ModelEnvironment where
  policy : ModelPolicy
  preflight : Option (ModelStatusCacheSnapshot → Process → TurnStartInput → PreflightVerdict)

/-- Whether `record` asks the policy for an initial selection. -/
def asksInitialSelection (initial : Process) (admission : Option String) (created : Option TurnStartInput) : Bool :=
  (admission == initial.metadata.turnWait.map (·.id) && initial.metadata.turnWait.any (·.initialSelection)) ||
    (created.any (·.startKind == .selectedTurn) && initial.selectedTurnId.isNone &&
      initial.lifecycleStatus == .discovered && initial.planRevision == 0)

/-- What model selection makes of the candidate's turn at a snapshot. -/
def selectTurnModel (initial : Process) (decision : Decision) (candidate : Process) (created : Option TurnStartInput) :
    SelectionVerdict :=
  match candidate.selectedTurnId with
  | none => .selected none none
  | some turnId =>
    let evaluated := evaluateTurn d policy candidate turnId (created.map (·.startKind))
      (asksInitialSelection initial decision.writes.waitForAdmission created)
      (decision.metadata.bind (·.nextTurnModelProfileId)) availability
    match evaluated.failure.filter (!·.code.recoverable) with
    | some failure => .invalid ⟨failure.code.text, failure.message⟩
    | none => .selected (evaluated.selection.map (·.modelProfileId)) (evaluated.selection.map (·.provenance))

/-- The context of `record` at a snapshot. -/
def Context.at (ctx : Context) (models : ModelEnvironment) (st : Store) (decision : Decision) : Context :=
  { ctx with
    selectModel := selectTurnModel d models.policy availability st.process decision
    preflight := models.preflight.map fun prepare => prepare availability }

/-- One operation whose models are prepared at one snapshot. -/
def Op.runAt (ctx : Context) (models : ModelEnvironment) (op : Op) (st : Store) : Except Rejection Store := do
  if op.admitsNewTurn ∧ ctx.newTurnBlocked then
    reject "session_transfer_in_progress"
      "A local session transfer is waiting for a stable process snapshot"
  else
    let decision ← op.decide d ctx st
    record d (ctx.at d availability models st decision) st decision

/-! ## A process whose turn has a model -/

/-- A process with one LLM turn. -/
def draftDefinition : ProcessDefinition where
  id := "drafting"
  turns turnId := if turnId = "draft" then some { turnType := .llm } else none
  entryTurnIds := ["draft"]
  transitions _ := []

/-- A catalog of two profiles. -/
def draftPolicy : ModelPolicy where
  defaultProfileId := some "large"
  profileIds := ["large", "small"]
  process := {}

/-- An engine whose preflight prepares every start the policy lets through. -/
def draftModels : ModelEnvironment where
  policy := draftPolicy
  preflight := some (prepareCreatedTurnStart draftDefinition draftPolicy
    { modelProfiles := fun id => some ⟨id, "provider", id, "off"⟩ })

/-- Availability at a revision: the profiles that are up. -/
def draftAvailability (revision : Nat) (available : List String) : ModelStatusCacheSnapshot where
  revision := revision
  profiles := available.map fun id => { profileId := id, availability := .available }

end Leitwerk.Engine
