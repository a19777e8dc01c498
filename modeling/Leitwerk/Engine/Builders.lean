import Leitwerk.Engine.Definition
/-!
# Write builders

The functions under `process-engine/writes` that operations share: selecting a
turn and reserving its start, superseding and parking an execution, failing a
turn, recovering one, and what a definition's plan asks for.
-/

namespace Leitwerk.Engine

variable (d : ProcessDefinition) (p : Process)

/-! ## Selecting a turn -/

/-- The start `reserveSelectedTurnStart` creates. An LLM start waits for model preflight. -/
def selectedTurnStart (turnId : TurnId) (turnType : WorkerTurnType) (ids : FreshIds)
    (iteration : Option MappedTurnItemRef) : TurnStartInput where
  id := ids.startId
  turnId := turnId
  turnType := turnType
  proposedTurnRecordId := ids.turnRecordId
  startKind := .selectedTurn
  recoveryTurnRecordId := none
  continuation := none
  state := match turnType with
    | .automatic => .starting .automatic
    | .llm => .preparationFailed
      { requestedModelProfileId := p.selectedTurnModelProfileId, providerOptions := []
        code := .modelRequired, safeSummary := "LLM start requires model preflight" }
  iteration := iteration

/-- `reserveSelectedTurnStart`. -/
def reserveSelectedTurnStart (w : Writes) (turnId : TurnId) (turnType : WorkerTurnType) (ids : FreshIds)
    (iteration : Option MappedTurnItemRef := none) : Writes :=
  let w := { w with turnStartWrites := w.turnStartWrites ++ [.create (selectedTurnStart p turnId turnType ids iteration)] }
  let w := applyProcessPatchField w p .currentExecution (some ids.startId)
  match turnType with
  | .llm => applyProcessPatchField w p .lifecycleStatus .error
  | .automatic => w

/-- `TurnSelectionWritesInput`. An absent `fromTurnId` is `none`. -/
structure TurnSelectionWritesInput where
  fromTurnId : Option (Option TurnId) := none
  toTurnId : Option TurnId
  trigger : Option String := none
  lifecycleStatus : Option LifecycleStatus := none
  workerIntent : Option WorkerIntent := none

/-- The lifecycle status a selection leads to. -/
def TurnSelectionWritesInput.targetLifecycleStatus (input : TurnSelectionWritesInput) : LifecycleStatus :=
  input.lifecycleStatus.getD (match input.toTurnId with
    | none => p.lifecycleStatus
    | some turnId => deriveLifecycleStatusForSelectedTurn d turnId)

/-- The checks of `buildTurnSelectionWrites`. -/
def checkTurnSelection (input : TurnSelectionWritesInput) : Except Rejection Unit :=
  let target := input.targetLifecycleStatus d p
  if input.fromTurnId.any (· != p.selectedTurnId) then
    reject "stale_turn" "Process selectedTurnId is not the turn the selection starts from"
  else if input.workerIntent = some .restartWorker ∧ selectedTurnRequiresWorker d input.toTurnId target none = false then
    reject "invalid_transition" "restart_worker requires a target selected turn that uses a worker"
  else match input.toTurnId with
    | none =>
      if target = .completed ∨ target = .aborted ∨ target = .discovered then .ok ()
      else reject "invalid_transition"
        "Clearing selectedTurnId requires lifecycleStatus discovered, completed, or aborted"
    | some turnId =>
      -- selecting the current turn again is no transition of the graph
      if some turnId = p.selectedTurnId then .ok ()
      else tryTransition d p.selectedTurnId input.trigger turnId p.lifecycleStatus

/-- The writes of `buildTurnSelectionWrites` once its checks passed. -/
def turnSelectionWrites (input : TurnSelectionWritesInput) (ids : FreshIds) : Writes :=
  let target := input.targetLifecycleStatus d p
  let w : Writes :=
    { workerIntent := some (input.workerIntent.getD .reconcile)
      turnSelectedEvents := if p.selectedTurnId = input.toTurnId then [] else [⟨p.selectedTurnId, input.toTurnId⟩] }
  let w := applyProcessPatchField w p .selectedTurnId input.toTurnId
  let w := applyProcessPatchField w p .lifecycleStatus target
  match input.toTurnId, target with
  | some turnId, .active => match d.workerTurnType turnId with
    | some turnType => reserveSelectedTurnStart p w turnId turnType ids
    | none => w
  | none, _ | _, .waiting | _, .completed | _, .aborted => applyProcessPatchField w p .currentExecution none
  | some _, .discovered | some _, .error => w

/-- `buildTurnSelectionWrites`. -/
def buildTurnSelectionWrites (input : TurnSelectionWritesInput) (ids : FreshIds) : Except Rejection Writes := do
  checkTurnSelection d p input
  return turnSelectionWrites d p input ids

/-! ## Superseding and parking -/

/-- `supersedeExecution`. -/
def supersedeExecution (w : Writes) (record : Option TurnRecord) (start : Option TurnStartRecord)
    (recordedAt : String) : Writes :=
  let w := { w with mappedRunWrites := w.mappedRunWrites ++ [.abortActive] }
  let w := match start with
    | some s => match s.state with
      | .starting resolved =>
        { w with turnStartWrites :=
            w.turnStartWrites ++ [.casState s.id .starting (.superseded (some resolved)) none] }
      | _ => w
    | none => w
  match record with
  | some r =>
    if r.status = .running then
      { w with turnRecordWrites := w.turnRecordWrites ++
          [.update r.id { status := some .superseded, endedAt := some (some recordedAt) }] }
    else w
  | none => w

/-- `buildAbortProcessWrites`. -/
def buildAbortProcessWrites (activeTurnRecord : Option TurnRecord) (currentWorkerStart : Option TurnStartRecord)
    (recordedAt : String) (ids : FreshIds) : Except Rejection Writes := do
  let w ← buildTurnSelectionWrites d p
    { fromTurnId := some p.selectedTurnId, toTurnId := none, trigger := some "abort", lifecycleStatus := some .aborted } ids
  return supersedeExecution w activeTurnRecord currentWorkerStart recordedAt

/-- `buildParkProcessWrites`. -/
def buildParkProcessWrites (payload : LifecycleParkedPayload) (allowInactiveLifecycle : Bool := false) :
    Except Rejection Writes :=
  if payload.selectedTurnId.isSome ∧ payload.selectedTurnId ≠ p.selectedTurnId then
    reject "stale_turn" "Process selectedTurnId is not the parked turn"
  else if allowInactiveLifecycle = false ∧ p.lifecycleStatus ≠ .active then
    reject "invalid_transition" "No lifecycle park transition from this lifecycleStatus"
  else .ok (applyProcessPatchField
    { workerIntent := some (.stopWithReason s!"lifecycle_parked:{p.selectedTurnId.getD p.lifecycleStatus.text}") }
    p .lifecycleStatus .error)

/-! ## Failing a turn -/

/-- `buildTurnFailedWrites`. The accepted worker start stays current while its record fails. -/
def buildTurnFailedWrites (payload : TurnFailedPayload) (existingTurnRecord : TurnRecord) (endedAt : String) : Writes :=
  let modelProfileId := existingTurnRecord.modelProfileId.or p.selectedTurnModelProfileId
  let w : Writes :=
    { turnRecordWrites := [.update payload.turnRecordId
        { turnType := some payload.turnType
          status := some .failed
          resultPiEntryId := some
            (if payload.failureCode = some .branchDrift then none else payload.resultPiEntryId)
          modelProfileId := modelProfileId.map some
          errorSummary := some (some payload.errorSummary)
          errorClass := payload.errorClass.map some
          endedAt := some (some endedAt) }] }
  let w := applyProcessPatchField w p .selectedTurnId (some payload.turnId)
  let w := applyProcessPatchField w p .lifecycleStatus .error
  updateProcessMetadata w p fun m =>
    { m with
      retry := none
      continuation :=
        { failedTurnRecovery :=
            if payload.turnType = .llm ∧ payload.failureCode ≠ some .branchDrift then
              payload.recoveryContext.map fun recovery => (payload.turnRecordId, recovery)
            else none } }

/-- `WorkerFailureWritesInput`. -/
structure WorkerFailureWritesInput where
  message : String
  errorCode : String
  errorClass : Option ErrorClass
  activeTurnRecord : Option TurnRecord
  resultPiEntryId : Option String
  recoveryContext : Option FailedTurnRecoveryContext

/-- `toTurnFailedPayload`: the record's own turn and branch. -/
def toTurnFailedPayload (input : WorkerFailureWritesInput) : Option TurnFailedPayload :=
  match input.activeTurnRecord with
  | some r =>
    if r.status = .running then
      some { turnRecordId := r.id, turnId := r.turnId, turnType := r.turnType, pathType := r.pathType
             forkPiEntryId := r.forkPiEntryId
             resultPiEntryId := input.resultPiEntryId.or r.resultPiEntryId
             errorSummary := input.message, errorClass := input.errorClass
             recoveryContext := input.recoveryContext }
    else none
  | none => none

/-- `buildWorkerFailureWrites`; its park names the selected turn, so it is never stale. -/
def buildWorkerFailureWrites (input : WorkerFailureWritesInput) (endedAt : String) : Except Rejection Writes := do
  let turnFailureWrites : Writes := match toTurnFailedPayload input, input.activeTurnRecord with
    | some payload, some record => buildTurnFailedWrites p payload record endedAt
    | _, _ => {}
  let parkWrites ← buildParkProcessWrites p
    { selectedTurnId := p.selectedTurnId, reason := some input.message, errorClass := input.errorClass } true
  return mergeWrites (mergeWrites turnFailureWrites parkWrites)
    { workerIntent := some (.stopWithReason s!"worker_failed:{input.errorCode}") }

/-! ## Recovering a failed turn -/

/-- The `recovery` argument of `buildRecoveryStartWrites`. -/
structure Recovery where
  startKind : TurnStartKind
  turnType : WorkerTurnType
  continuation : Option TurnStartContinuation := none

/-- The provider options an accepted start was resolved with. -/
def acceptedProviderOptions (s : TurnStartRecord) : ProviderOptions :=
  match s.state with
  | .accepted (.llm start) _ _ => start.providerOptions
  | _ => []

/-- `buildRecoveryStartWrites`. -/
def buildRecoveryStartWrites (failedRun : TurnRecord) (acceptedStart : TurnStartRecord) (recovery : Recovery)
    (ids : FreshIds) : Writes :=
  let provenance := failedRun.modelSelectionProvenance.getD ⟨.inherited, .legacyPersisted⟩
  let start : TurnStartInput :=
    { id := ids.startId, turnId := failedRun.turnId, turnType := recovery.turnType
      proposedTurnRecordId := ids.turnRecordId, startKind := recovery.startKind
      recoveryTurnRecordId := some failedRun.id, continuation := recovery.continuation
      iteration := failedRun.iteration
      state := match recovery.turnType with
        | .automatic => .starting .automatic
        | .llm => .preparationFailed
          { requestedModelProfileId := failedRun.modelProfileId
            providerOptions := acceptedProviderOptions acceptedStart
            code := .modelRequired, safeSummary := "Model selection is pending recovery preparation"
            modelSelectionProvenance := some provenance } }
  let w : Writes := { turnStartWrites := [.create start], workerIntent := some .restartWorker }
  let w := applyProcessPatchField w p .selectedTurnId (some failedRun.turnId)
  let w := applyProcessPatchField w p .lifecycleStatus .active
  let w := applyProcessPatchField w p .currentExecution (some ids.startId)
  if failedRun.modelProfileId.isSome then
    let w := applyProcessPatchField w p .selectedTurnModelProfileId failedRun.modelProfileId
    let w := applyProcessPatchField w p .selectedTurnModelKind (some provenance.kind)
    applyProcessPatchField w p .selectedTurnModelSource (some provenance.source)
  else w

/-- `buildRetryWrites`; a turn no worker can run throws. -/
def buildRetryWrites (failedRun : TurnRecord) (acceptedStart : TurnStartRecord) (ids : FreshIds) :
    Except Rejection Writes :=
  match d.workerTurnType failedRun.turnId with
  | none => reject "operation_failed" "Process operation failed unexpectedly"
  | some turnType =>
    .ok (updateProcessMetadata
      (buildRecoveryStartWrites p failedRun acceptedStart { startKind := .retry, turnType } ids) p fun m =>
        { m with
          retry := failedRun.forkPiEntryId.map fun fork => ⟨fork, failedRun.id⟩
          continuation := {} })

/-- `buildContinueFailedTurnWrites`; an undeclared turn and an accepted start that is not an
LLM's throw. -/
def buildContinueFailedTurnWrites (failedRun : TurnRecord) (acceptedStart : TurnStartRecord)
    (continuation : TurnStartContinuation) (ids : FreshIds) : Except Rejection Writes :=
  match d.turns failedRun.turnId, acceptedStart.state with
  | some _, .accepted (.llm _) _ _ =>
    .ok (updateProcessMetadata
      (buildRecoveryStartWrites p failedRun acceptedStart
        { startKind := .continue, turnType := .llm, continuation := some continuation } ids) p fun m =>
        { m with
          retry := none
          continuation := { m.continuation with
            continueFromTurnRecordId := some failedRun.id
            continueFromPiEntryId := some continuation.continueFromPiEntryId
            continuePrompt := some continuation.continuePrompt
            continueSavedPrimaryLeafEntryId :=
              if failedRun.pathType ≠ .primary ∧
                  continuation.savedPrimaryLeafEntryId ≠ some continuation.continueFromPiEntryId then
                continuation.savedPrimaryLeafEntryId
              else none } })
  | _, _ => reject "operation_failed" "Process operation failed unexpectedly"

/-! ## What a plan asks for -/

/-- The writes of a state that comes with something else, when it does. -/
def stateWrites (state : Option Json) : Writes :=
  match state with
  | some state => applyProcessPatchField {} p .stateJson (some state)
  | none => {}

/-- The worker intent of a request. -/
def RuntimeEffect.workerIntent : RuntimeEffect → Option WorkerIntent
  | .reconcile => some .reconcile
  | .restartWorker => some .restartWorker
  | .none => Option.none

/-- The turn selection a request asks for. -/
def ServerTransitionRequest.selection (request : ServerTransitionRequest) (toTurnId : Option TurnId) :
    TurnSelectionWritesInput where
  fromTurnId := some p.selectedTurnId
  toTurnId := toTurnId
  trigger := request.trigger
  lifecycleStatus := request.lifecycleStatus
  workerIntent := request.runtime.workerIntent

/-- `buildServerTransitionWrites`. -/
def buildServerTransitionWrites (request : ServerTransitionRequest) (ids : FreshIds) : Except Rejection Writes :=
  let stateWrites := stateWrites p request.state
  match request.turnId with
  | some turnId => do
    let selectionWrites ← buildTurnSelectionWrites d p (request.selection p turnId) ids
    return mergeWrites selectionWrites stateWrites
  | none =>
    if request.runtime = .restartWorker ∧ selectedTurnRequiresWorker d p.selectedTurnId
        (request.lifecycleStatus.getD p.lifecycleStatus) none = false then
      reject "invalid_transition" "restart_worker requires a target selected turn that uses a worker"
    else
      let w := { stateWrites with workerIntent := request.runtime.workerIntent.or stateWrites.workerIntent }
      .ok (match request.lifecycleStatus with
        | some lifecycleStatus => applyProcessPatchField w p .lifecycleStatus lifecycleStatus
        | none => w)

/-- One entry of a `processPatch`: absent or equal to what the process has, it is not written. -/
def applyEffectField {α : Type} (w : Writes) (f : Field α) (v : Option α) : Writes :=
  match v with
  | some v => applyProcessPatchField w p f v
  | none => w

/-- `appendProcessEffects` on the process it is given; `seen` is the metadata the handler
worked from. -/
def appendProcessEffects (seen : Metadata) (w : Writes) (effects : ProcessPatchEffect) : Writes :=
  let w := applyEffectField p w .lifecycleStatus effects.lifecycleStatus
  let w := applyEffectField p w .planRevision effects.planRevision
  let w := applyEffectField p w .externalId effects.externalId
  let w := applyEffectField p w .externalUrl effects.externalUrl
  applyEffectField p w .metadata (effects.metadata.map fun e => e.rewrite seen)

/-- The effects of a plan in order, each on the process the earlier ones leave. -/
def appendLifecycleEffects (w : Writes) : List ProcessPatchEffect → Writes
  | [] => w
  | effects :: rest => appendLifecycleEffects (appendProcessEffects (w.candidate p) p.metadata w effects) rest

/-- The writes of a collected plan: its effects, then its transition. -/
def planWrites (plan : ProcessPlan) (ids : FreshIds) : Except Rejection Writes := do
  let transitionWrites ← match plan.transitionRequest with
    | some request => buildServerTransitionWrites d p request ids
    | none => .ok {}
  return mergeWrites (appendLifecycleEffects p {} plan.lifecycleEffects) transitionWrites

end Leitwerk.Engine
