import Leitwerk.Engine.Mapped
import Mathlib.Algebra.Group.Nat.Defs
/-!
# Operations

The `decide` functions of `process-engine/ops` but for `TurnOutcome`, each on
the committed store and the context it is given. A rejection decides nothing;
an accepted decision carries writes, possibly none.
-/

namespace Leitwerk.Engine

/-- `Decision`. -/
structure Decision where
  writes : Writes := {}
  metadata : Option DecisionMetadata := none

/-- `modelOverrideMetadata`. -/
def modelOverrideMetadata (input : DecisionMetadata) : Option DecisionMetadata :=
  if input.nextTurnModelProfileId.isNone ∧ input.providerOptions.isNone then none else some input

def noWrites : Except Rejection Decision := .ok {}

variable (d : ProcessDefinition) (ctx : Context) (st : Store)

/-! ## Starting and activating -/

/-- `WaitingProcessRestart`: the captured process and, for its project, whether the stored
projects still hold it and what they become. -/
structure WaitingProcessRestart where
  expectedTurnId : TurnId
  expectedParamsJson : Option Json
  expectedStateJson : Option Json
  stateJson : Json
  project : Option ((Json → Bool) × (Json → Json)) := none

structure StartProcessInput where
  startTurnId : TurnId
  onlyIfUnstarted : Bool := false
  restart : Option WaitingProcessRestart := none

/-- Whether the process is still the one a restart captured. -/
def restartCurrent (restart : WaitingProcessRestart) : Bool :=
  st.process.lifecycleStatus == .waiting && st.process.currentExecution.isNone &&
    st.process.selectedTurnId == some restart.expectedTurnId &&
    st.process.paramsJson == restart.expectedParamsJson && st.process.stateJson == restart.expectedStateJson

/-- The guards of a restart. -/
def checkRestart (restart : Option WaitingProcessRestart) : Except Rejection Unit :=
  match restart with
  | none => .ok ()
  | some restart =>
    if restartCurrent st restart = false then
      reject "restart_superseded" "The captured waiting process has changed"
    else if ctx.newTurnBlocked then
      reject "session_transfer_in_progress" "A local session transfer is in progress"
    else if restart.project.any fun project => !project.1 st.projects then
      reject "restart_superseded" "The captured process repository has changed"
    else .ok ()

/-- `StartProcess`. -/
def decideStartProcess (input : StartProcessInput) : Except Rejection Decision := do
  checkRestart ctx st input.restart
  if input.onlyIfUnstarted ∧ (st.process.lifecycleStatus ≠ .discovered ∨ st.process.selectedTurnId.isSome ∨
      st.process.currentExecution.isSome) then
    noWrites
  else do
    let writes ← buildTurnSelectionWrites d st.process
      { fromTurnId := some st.process.selectedTurnId, toTurnId := some input.startTurnId, trigger := some "start" }
      (ctx.fresh 0)
    match input.restart with
    | some restart =>
      let writes := applyProcessPatchField writes st.process .stateJson (some restart.stateJson)
      return { writes := { writes with projects := restart.project.map fun project => project.2 st.projects } }
    | none => return { writes }

/-- `PreparedDeferredProcessActivation`, with the facts about its project as checks of the
stored projects. -/
structure DeferredProcessActivation where
  selectedTurnId : TurnId
  paramsJson : Option Json
  projectFound : Json → Bool
  alreadyBound : Json → Bool
  expectedFacts : Process → Json → Bool
  bindProject : Json → Json

/-- `ActivateDeferredProcess`; every other outcome is data without writes. -/
def decideActivateDeferredProcess (prepared : DeferredProcessActivation) : Except Rejection Decision :=
  if prepared.projectFound st.projects = false then noWrites
  else if st.process.selectedTurnId = some prepared.selectedTurnId ∧ st.process.paramsJson = prepared.paramsJson ∧
      prepared.alreadyBound st.projects = true then noWrites
  else if st.process.lifecycleStatus ≠ .discovered ∨ st.process.selectedTurnId.isSome ∨
      prepared.expectedFacts st.process st.projects = false then noWrites
  else match buildTurnSelectionWrites d st.process
      { fromTurnId := some none, toTurnId := some prepared.selectedTurnId, trigger := some "start" } (ctx.fresh 0) with
    | .error _ => noWrites
    | .ok selection =>
      let activation : Writes :=
        { processPatch := { paramsJson := some prepared.paramsJson }
          changedFields := if st.process.paramsJson = prepared.paramsJson then [] else ["paramsJson"]
          projects := some (prepared.bindProject st.projects) }
      .ok { writes := mergeWrites activation selection }

/-- `ParkDeferredProcessActivationFailure`. -/
def decideParkDeferredProcessActivationFailure (projectFound : Json → Bool) (expectedFacts : Process → Json → Bool) :
    Except Rejection Decision :=
  if projectFound st.projects = false ∨ st.process.lifecycleStatus ≠ .discovered ∨
      st.process.selectedTurnId.isSome ∨ expectedFacts st.process st.projects = false then noWrites
  else
    let w : Writes := { workerIntent := some (.stopWithReason "deferred_activation_failed") }
    .ok { writes := applyProcessPatchField w st.process .lifecycleStatus .error }

/-! ## Actions -/

/-- `ExecuteAction`: the planned writes and, for a human or external turn, its settled record. -/
def decideExecuteAction : Except Rejection Decision := do
  let planned ← ctx.planProcessAction st.process
  let writes ← planWrites d st.process planned.plan (ctx.fresh 0)
  let turnRecordWrites : List TurnRecordWrite := match planned.resolvedTurnAction with
    | some (turnId, turnType) =>
      [.create { id := (ctx.fresh 1).turnRecordId, turnId, turnType, status := .succeeded
                 resultPiEntryId := planned.publishedMarkdown.map fun _ => s!"action:{(ctx.fresh 1).turnRecordId}"
                 turnResultMarkdown := planned.publishedMarkdown
                 startedAt := ctx.now, endedAt := some ctx.now }]
    | none => []
  return { writes := { writes with turnRecordWrites := writes.turnRecordWrites ++ turnRecordWrites }
           metadata := planned.nextTurnModelProfileId.map fun id => { nextTurnModelProfileId := some id } }

/-! ## Accepting a start -/

structure AcceptWorkerTurnStartInput where
  workerLeaseId : String
  startRecordId : String
  proposedTurnRecordId : String

/-- `receiptMatchesStart`. -/
def receiptMatchesStart (receipt : WorkerBootstrapReceipt) (startId leaseId : String) : Bool :=
  receipt.startRecordId == startId && receipt.workerLeaseId == leaseId

/-- `preparedStartMatchesDefinition`. -/
def preparedStartMatchesDefinition (prepared : PreparedTurnStart) (turn : TurnDefinition) : Bool :=
  prepared.pathType == turn.branchType && prepared.contextMode == turn.context &&
  match prepared.startTarget with
  | .currentLeaf => prepared.forkPiEntryId.all nonBlank
  | .entry entryId => nonBlank entryId && prepared.forkPiEntryId == some entryId
  | .root => prepared.forkPiEntryId.isNone

/-- Whether a receipt proves the bootstrap of the resolved start. -/
def receiptProvesStart (receipt : WorkerBootstrapReceipt) (turnType : WorkerTurnType) (start : ResolvedTurnStart)
    (turn : TurnDefinition) : Bool :=
  match turnType, receipt.llm, start with
  | .automatic, none, _ => true
  | .llm, some r, .llm resolved =>
    r.preparedStart.any (preparedStartMatchesDefinition · turn) &&
      r.verifiedResourceSnapshotDigest == resolved.piResourceSnapshotDigest &&
      r.providerId == resolved.model.providerId && r.modelId == resolved.model.modelId
  | _, _, _ => false

/-- The record acceptance creates. -/
def acceptedTurnRecord (start : TurnStartRecord) (resolved : ResolvedTurnStart) (lease : WorkerLease)
    (receipt : WorkerBootstrapReceipt) : TurnRecord :=
  let parent := start.recoveryTurnRecordId.bind st.turnRecords.get?
  let prepared := receipt.llm.bind (·.preparedStart)
  let llm : Option ResolvedLlmStart := match resolved with
    | .llm llm => some llm
    | .automatic => none
  { id := start.proposedTurnRecordId, turnId := start.turnId, turnType := start.turnType.toTurnType
    status := .running, attemptNumber := (parent.map (·.attemptNumber)).getD 0 + 1
    parentTurnRecordId := start.recoveryTurnRecordId
    pathType := (prepared.map (·.pathType)).getD .primary
    forkPiEntryId := prepared.bind (·.forkPiEntryId)
    turnStartRecordId := some start.id, acceptedWorkerLeaseId := some lease.id
    modelProfileId := llm.map (·.model.profileId)
    modelSelectionProvenance := llm.bind (·.modelSelectionProvenance)
    iteration := start.iteration, startedAt := ctx.now }

/-- The start acceptance is about: the current one, matching what the worker names. -/
def startForAcceptance (input : AcceptWorkerTurnStartInput) : Except Rejection TurnStartRecord :=
  if st.process.lifecycleStatus ≠ .active ∨ st.process.currentExecution ≠ some input.startRecordId then
    reject "stale_turn_start" "Worker start is no longer current and active"
  else match st.turnStarts.get? input.startRecordId with
    | some start =>
      if start.proposedTurnRecordId = input.proposedTurnRecordId ∧ some start.turnId = st.process.selectedTurnId then
        .ok start
      else reject "stale_turn_start" "Worker start does not match the selected process turn"
    | none => reject "stale_turn_start" "Worker start does not match the selected process turn"

/-- The lease acceptance is about, with its receipt. -/
def leaseForAcceptance (input : AcceptWorkerTurnStartInput) (start : TurnStartRecord) :
    Except Rejection (WorkerLease × WorkerBootstrapReceipt) :=
  match st.activeLease with
  | some lease => match lease.bootstrapReceipt with
    | some receipt =>
      if lease.id = input.workerLeaseId ∧ receiptMatchesStart receipt start.id lease.id = true then
        .ok (lease, receipt)
      else reject "worker_receipt_invalid" "Worker lease has no matching bootstrap receipt"
    | none => reject "worker_receipt_invalid" "Worker lease has no matching bootstrap receipt"
  | none => reject "worker_receipt_invalid" "Worker lease has no matching bootstrap receipt"

/-- `AcceptWorkerTurnStart`. -/
def decideAcceptWorkerTurnStart (input : AcceptWorkerTurnStartInput) : Except Rejection Decision := do
  let start ← startForAcceptance st input
  let (lease, receipt) ← leaseForAcceptance st input start
  match start.state with
  | .accepted _ turnRecordId acceptedWorkerLeaseId =>
    if turnRecordId = input.proposedTurnRecordId ∧ acceptedWorkerLeaseId = lease.id then noWrites
    else reject "turn_start_already_accepted" "Worker start was accepted with a different identity"
  | .starting resolved =>
    match d.turns start.turnId with
    | some turn =>
      if workerTurnType? turn.turnType ≠ some start.turnType then
        reject "turn_start_invalid" "Current process definition rejects this worker start"
      else if receiptProvesStart receipt start.turnType resolved turn = false then
        reject "worker_receipt_invalid" "Bootstrap receipt does not match the durable start"
      else
        let w : Writes :=
          { turnRecordWrites := [.create (acceptedTurnRecord ctx st start resolved lease receipt)]
            turnStartWrites := [.casState start.id .starting
              (.accepted resolved start.proposedTurnRecordId lease.id) none] }
        return { writes :=
          if start.startKind = .continue then
            w.put .metadata { st.process.metadata with continuation := {} }
          else w }
    | none => reject "turn_start_invalid" "Current process definition rejects this worker start"
  | _ => reject "turn_start_not_starting" "Worker start is not awaiting acceptance"

/-! ## Failing and parking -/

/-- `validateTurnFailedCorrelation`. -/
def validateTurnFailedCorrelation (payload : TurnFailedPayload) (expected : Option String) : Except Rejection Unit :=
  if expected ≠ some payload.turnRecordId then
    reject "stale_turn_record" s!"Ignoring turn failure for stale turnRecordId '{payload.turnRecordId}'"
  else .ok ()

/-- `TurnFailed`. -/
def decideTurnFailed (payload : TurnFailedPayload) : Except Rejection Decision := do
  validateTurnFailedCorrelation payload st.currentTurnRecordId
  match st.turnRecords.get? payload.turnRecordId with
  | some existing => return { writes := buildTurnFailedWrites st.process payload existing ctx.now }
  | none => reject "stale_turn_record" "Accepted worker turn record is missing and cannot be failed"

/-- The payload of `WorkerFailure`. -/
structure WorkerFailurePayload where
  errorCode : String
  message : String
  errorClass : Option ErrorClass := none
  workerLeaseId : Option String := none
  resultPiEntryId : Option String := none
  recoveryContext : Option FailedTurnRecoveryContext := none

/-- The lease a failure was reported under. -/
def reportedLease (payload : WorkerFailurePayload) : Option WorkerLease :=
  match payload.workerLeaseId with
  | some id => st.leaseById id
  | none => st.activeLease

/-- Whether the failure comes from a lease that does not own the current execution: a late
failure of a replaced worker must not park what another lease runs. -/
def failureFromReplacedWorker (payload : WorkerFailurePayload) : Bool :=
  payload.workerLeaseId.isSome && match reportedLease st payload with
    | none => true
    | some lease =>
      lease.instanceId != st.process.id || match lease.turnStartRecordId with
        | some startId => st.currentStart.map (·.id) != some startId
        | none => st.activeLease.map (·.id) != some lease.id

/-- The current start while no worker accepted it yet. -/
def startingExecution : Option (String × ResolvedTurnStart) :=
  match st.currentStart with
  | some s => match s.state with
    | .starting resolved => some (s.id, resolved)
    | _ => none
  | none => none

/-- `WorkerFailure`. -/
def decideWorkerFailure (payload : WorkerFailurePayload) : Except Rejection Decision :=
  let parks (running : Option TurnRecord) : Except Rejection Decision := do
    let writes ← buildWorkerFailureWrites st.process
      { message := payload.message, errorCode := payload.errorCode, errorClass := payload.errorClass
        activeTurnRecord := running, resultPiEntryId := payload.resultPiEntryId
        recoveryContext := payload.recoveryContext } ctx.now
    return { writes }
  let stop : Option WorkerIntent := some (.stopWithReason s!"worker_failed:{payload.errorCode}")
  if failureFromReplacedWorker st payload then noWrites
  else match startingExecution st with
    | some (startId, resolved) =>
      if st.process.lifecycleStatus ≠ .active then noWrites
      else .ok { writes :=
        { ({} : Writes).put .lifecycleStatus .error with
          turnStartWrites := [.casState startId .starting
            (.bootstrapFailed resolved ((reportedLease st payload).map (·.id)) payload.errorCode payload.message) none]
          workerIntent := stop } }
    | none =>
      match st.currentTurnRecord.filter (·.status = .running) with
      | some running => parks (some running)
      | none =>
        if st.process.lifecycleStatus = .error then noWrites
        else if selectedTurnRequiresWorker d st.process.selectedTurnId st.process.lifecycleStatus
            st.process.metadata.turnWait = false then .ok { writes := { workerIntent := stop } }
        else parks none

/-- `ParkProcess`. -/
def decideParkProcess (payload : LifecycleParkedPayload) : Except Rejection Decision := do
  let writes ← buildParkProcessWrites st.process payload true
  return { writes }

/-! ## Recovering -/

/-- `RetryFailedTurn`. -/
def decideRetryFailedTurn (input : DecisionMetadata) : Except Rejection Decision :=
  match st.currentStart, st.currentTurnRecord with
  | some currentStart, some failedRun =>
    if failedRun.status ≠ .failed then
      reject "retry_target_missing" "No failed turn record is available for retry"
    else if st.process.lifecycleStatus ≠ .error then
      reject "invalid_transition" "Process is not in an error state"
    else do
      let writes ← buildRetryWrites d st.process failedRun currentStart (ctx.fresh 0)
      return { writes, metadata := modelOverrideMetadata input }
  | _, _ => reject "retry_target_missing" "No failed turn record is available for retry"

structure RetryStartupInput where
  startRecordId : String
  metadata : DecisionMetadata := {}
  automaticRetry : Option StartupRetryState := none

/-- The state `RetryStartup` creates its start in; `none` when the old start has not failed. -/
def retriedStartState : StartState → Option InitialStartState
  | .preparationFailed f =>
    some (.preparationFailed { f with code := .modelRequired, safeSummary := "LLM start requires retry preparation" })
  | .bootstrapFailed .automatic _ _ _ => some (.starting .automatic)
  | .bootstrapFailed (.llm start) _ _ _ => some (.preparationFailed
      { requestedModelProfileId := some start.model.profileId, providerOptions := start.providerOptions
        code := .modelRequired, safeSummary := "LLM start requires retry preparation"
        modelSelectionProvenance := start.modelSelectionProvenance })
  | _ => none

/-- The start `RetryStartup` replaces, with the state of the new one. -/
def startupRetryTarget (startRecordId : String) : Except Rejection (TurnStartRecord × InitialStartState) :=
  if st.process.lifecycleStatus ≠ .error ∨ st.process.currentExecution ≠ some startRecordId then
    reject "stale_turn_start" "Startup retry target is no longer current"
  else match st.turnStarts.get? startRecordId with
    | some failed => match retriedStartState failed.state with
      | some state => .ok (failed, state)
      | none => reject "retry_target_missing" "Startup retry requires a failed current start"
    | none => reject "retry_target_missing" "Startup retry requires a failed current start"

/-- The start that repeats a failed one. -/
def retriedStart (failed : TurnStartRecord) (state : InitialStartState) (automaticRetry : Option StartupRetryState)
    (ids : FreshIds) : TurnStartInput :=
  { id := ids.startId, turnId := failed.turnId, turnType := failed.turnType
    proposedTurnRecordId := ids.turnRecordId, startKind := .startupRetry
    recoveryTurnRecordId := failed.recoveryTurnRecordId, continuation := failed.continuation
    state, automaticRetry, iteration := failed.iteration }

/-- `RetryStartup`. -/
def decideRetryStartup (input : RetryStartupInput) : Except Rejection Decision := do
  let (failed, state) ← startupRetryTarget st input.startRecordId
  let start := retriedStart failed state input.automaticRetry (ctx.fresh 0)
  let w : Writes :=
    { turnStartWrites := [.create start], workerIntent := if state.begins then some .restartWorker else none }
  let w := applyProcessPatchField w st.process .currentExecution (some start.id)
  let w := applyProcessPatchField w st.process .lifecycleStatus (if state.begins then .active else .error)
  return { writes := w, metadata := modelOverrideMetadata input.metadata }

/-- `AutomaticRetryStartup`: a retry that is not due only keeps its schedule. -/
def decideAutomaticRetryStartup (startRecordId : String) : Except Rejection Decision := do
  let (start, _) ← startupRetryTarget st startRecordId
  let retry := start.automaticRetry.getD ctx.startupRetryState
  match ctx.automaticStartupRecovery start retry with
  | .ready =>
    decideRetryStartup ctx st
      { startRecordId, automaticRetry := some { retry with starts := retry.starts + 1, nextRetryAt := none } }
  | .later nextRetryAt =>
    if start.automaticRetry.isSome ∧ retry.nextRetryAt = nextRetryAt then noWrites
    else return { writes :=
      { ({} : Writes).put .currentExecution st.process.currentExecution with
        turnStartWrites := [.casState start.id start.state.kind start.state (some { retry with nextRetryAt })] } }

/-- `ContinueFailedTurn`. -/
def decideContinueFailedTurn (turnRecordId : String) (prompt : Option String) (input : DecisionMetadata) :
    Except Rejection Decision :=
  if st.process.lifecycleStatus ≠ .error then
    reject "invalid_transition" "Process is not in an error state"
  else if st.currentTurnRecordId ≠ some turnRecordId then
    reject "stale_turn_record" "Only the current failed turn record can be continued"
  else match st.currentStart, st.currentTurnRecord with
    | some acceptedStart, some failedRun =>
      if failedRun.status ≠ .failed then
        reject "retry_target_missing" "No failed turn record is available for continuation"
      else if failedRun.turnType ≠ .llm then
        reject "invalid_transition" "Only failed LLM turns can be continued"
      else match st.process.metadata.continuation.failedTurnRecovery, ctx.continuation with
        | some (recordId, recovery), .ok (continueFromPiEntryId, savedPrompt, savedPrimaryLeafEntryId) =>
          if recordId ≠ failedRun.id then
            reject "invalid_transition" "This failed turn is not continuable"
          else do
            let continuePrompt := (((prompt.filter nonBlank).or savedPrompt).or
              st.process.metadata.continuation.continuePrompt).getD recovery.suggestedContinuePrompt
            let writes ← buildContinueFailedTurnWrites d st.process failedRun acceptedStart
              { continueFromPiEntryId, continuePrompt, savedPrimaryLeafEntryId } (ctx.fresh 0)
            return { writes, metadata := modelOverrideMetadata input }
        | some _, .error message => reject "invalid_transition" message
        | none, _ => reject "invalid_transition" "This failed turn is not continuable"
    | _, _ => reject "retry_target_missing" "No failed turn record is available for continuation"

/-! ## Turn waits -/

/-- `ArmTurnWait`. -/
def decideArmTurnWait : Except Rejection Decision :=
  if st.process.metadata.turnWait.isSome ∨ st.process.currentExecution.isSome ∨ st.process.selectedTurnId.isNone ∨
      st.process.lifecycleStatus ≠ .active ∨ turnWaitPredicate d st.process.selectedTurnId = false then noWrites
  else do
    let writes ← buildTurnSelectionWrites d st.process { toTurnId := st.process.selectedTurnId } (ctx.fresh 0)
    return { writes }

/-- The `bind` of a wait: what the initial binding writes, when it is admissible. -/
structure InitialBinding where
  paramsJson : Json
  metadata : List (String × Json)
  projects : Json

/-- `ResolveTurnWaitInput["result"]`. -/
inductive TurnWaitResult where
  | ready
  | waiting
  | complete
  | abort
  | bind (binding : InitialBinding)
  | retry
  | error

structure ResolveTurnWaitInput where
  waitId : String
  revision : Nat
  paramsJson : Option Json
  stateJson : Option Json
  projectsJson : Json
  nextStateJson : Option Json := none
  result : TurnWaitResult
  message : Option String := none
  now : Nat := 0
  pollIntervalMs : Nat := 0

/-- The wait a check was made for, when its inputs are still current. -/
def currentTurnWait (input : ResolveTurnWaitInput) : Except Rejection PendingTurnWait :=
  match st.process.metadata.turnWait with
  | some wait =>
    if wait.id = input.waitId ∧ wait.revision = input.revision ∧ st.process.selectedTurnId = some wait.turnId ∧
        st.process.lifecycleStatus = .waiting ∧ st.process.paramsJson = input.paramsJson ∧
        st.process.stateJson = input.stateJson ∧ st.projects = input.projectsJson then .ok wait
    else reject "turn_wait_superseded" "The waiting condition has changed"
  | none => reject "turn_wait_superseded" "The waiting condition has changed"

/-- Sets the keys of `entries`, `{ ...metadata, ...entries }`. -/
def mergeEntries (metadata : List (String × Json)) (entries : List (String × Json)) : List (String × Json) :=
  metadata.filter (fun e => !entries.any (·.1 == e.1)) ++ entries

/-- The initial bindings a check resolved. -/
def bindTurnWait (wait : PendingTurnWait) (binding : InitialBinding) (w : Writes) : Except Rejection Writes :=
  let p := st.process
  if wait.initialSelection = false ∨ p.currentExecution.isSome ∨ st.projects ≠ "[]" ∨
      st.turnStarts.values ≠ [] ∨ st.turnRecords.values ≠ [] then
    reject "startup_binding_unavailable"
      "Initial bindings require a process without projects or execution history"
  else if binding.metadata.any fun e => p.metadata.entries.any (·.1 == e.1) then
    reject "startup_binding_superseded" "Initial repository binding cannot replace retained metadata"
  else
    let w := applyProcessPatchField w p .paramsJson (some binding.paramsJson)
    let w := applyProcessPatchField w p .metadata
      { p.metadata with entries := mergeEntries p.metadata.entries binding.metadata }
    let w := { w with projects := some binding.projects }
    .ok (writeTurnWait w p
      (some { wait with revision := wait.revision + 1, message := none, failures := 0, nextCheckAt := 0 }))

/-- The admission of a ready wait. -/
def admitTurnWait (wait : PendingTurnWait) (w : Writes) : Writes :=
  let p := st.process
  let w := { writeTurnWait w p none with waitForAdmission := some wait.id }
  let w := { w with turnStartWrites := w.turnStartWrites ++ [.create wait.start] }
  let w := applyProcessPatchField w p .currentExecution (some wait.start.id)
  { applyProcessPatchField w p .lifecycleStatus .active with workerIntent := some .reconcile }

/-- The end of the process by its waiting condition. -/
def endTurnWait (status : TerminalStatus) (w : Writes) : Writes :=
  let p := st.process
  let w := writeTurnWait w p none
  let w := applyProcessPatchField w p .selectedTurnId none
  let w := applyProcessPatchField w p .currentExecution none
  { applyProcessPatchField w p .lifecycleStatus status.toLifecycle with workerIntent := some .reconcile }

/-- A check that leaves the process waiting or, on `error`, stops it. -/
def rescheduleTurnWait (input : ResolveTurnWaitInput) (wait : PendingTurnWait) (retry error : Bool) (w : Writes) :
    Writes :=
  let p := st.process
  let failures := if retry then wait.failures + 1 else 0
  let delay := if failures = 0 then input.pollIntervalMs
    else min 300000 (input.pollIntervalMs * 2 ^ min failures 8)
  let w := writeTurnWait w p (some { wait with
    revision := wait.revision + 1
    status := if error then .error else .waiting
    failures, message := input.message, nextCheckAt := input.now + delay })
  if error then applyProcessPatchField w p .lifecycleStatus .error else w

/-- `ResolveTurnWait`. -/
def decideResolveTurnWait (input : ResolveTurnWaitInput) : Except Rejection Decision := do
  let wait ← currentTurnWait st input
  let stateWrites := stateWrites st.process input.nextStateJson
  match input.result with
  | .bind binding => do
    let writes ← bindTurnWait st wait binding stateWrites
    return { writes }
  | .ready => return { writes := admitTurnWait st wait stateWrites, metadata := wait.metadata }
  | .complete => return { writes := endTurnWait st .completed stateWrites }
  | .abort => return { writes := endTurnWait st .aborted stateWrites }
  | .waiting => return { writes := rescheduleTurnWait st input wait false false stateWrites }
  | .retry => return { writes := rescheduleTurnWait st input wait true false {} }
  | .error => return { writes := rescheduleTurnWait st input wait false true {} }

/-- `RetryTurnWait`. -/
def decideRetryTurnWait (input : DecisionMetadata) : Except Rejection Decision :=
  match st.process.metadata.turnWait with
  | some wait =>
    if wait.status ≠ .error ∨ st.process.lifecycleStatus ≠ .error then
      reject "retry_target_missing" "No failed waiting condition is current"
    else
      let metadata : DecisionMetadata :=
        { nextTurnModelProfileId :=
            input.nextTurnModelProfileId.or (wait.metadata.bind (·.nextTurnModelProfileId))
          providerOptions := input.providerOptions.or (wait.metadata.bind (·.providerOptions)) }
      let w := writeTurnWait {} st.process (some { wait with
        status := .waiting, revision := wait.revision + 1, nextCheckAt := 0, failures := 0, message := none
        metadata := some metadata })
      .ok { writes := applyProcessPatchField w st.process .lifecycleStatus .waiting }
  | none => reject "retry_target_missing" "No failed waiting condition is current"

/-! ## Aborting and observing -/

/-- `collectAbortCleanupWrites`, each handler on the process the earlier ones leave. -/
def collectAbortCleanupWrites (w : Writes) : List (Process → Except String (Option CleanupResult)) → Except Rejection Writes
  | [] => .ok w
  | handler :: rest =>
    let current := w.candidate st.process
    match handler current with
    | .error message => reject "process_cleanup_failed" message
    | .ok none => collectAbortCleanupWrites w rest
    | .ok (some result) =>
      let w := appendProcessEffects current current.metadata w result.effects
      let w := match result.state with
        | some state => applyProcessPatchField w (w.candidate st.process) .stateJson (some state)
        | none => w
      collectAbortCleanupWrites w rest

/-- `AbortProcess`. -/
def decideAbortProcess (expectedTurnRecordId : Option String) : Except Rejection Decision :=
  if canAbort st.process.lifecycleStatus = false then
    reject "invalid_transition" "Process cannot be aborted in the current lifecycle status"
  else if expectedTurnRecordId.isSome ∧ st.currentTurnRecordId ≠ expectedTurnRecordId then
    reject "stale_turn_record" "The approval's turn is no longer active"
  else do
    let cleanupWrites ← collectAbortCleanupWrites st {} ctx.cleanupHandlers
    let abortWrites ← buildAbortProcessWrites d (cleanupWrites.candidate st.process)
      st.currentTurnRecord st.currentStart ctx.now (ctx.fresh 0)
    return { writes := mergeWrites cleanupWrites abortWrites }

/-- `ProcessObservationUpdate`; what the integration read is `expected`. -/
structure ProcessObservationUpdate where
  expected : Process
  projectsJson : Option Json := none
  state : Option Json := none
  metadata : List (String × Json) := []
  lifecycleStatus : Option TerminalStatus := none
  interrupt : Option TurnId := none

/-- Whether the process changed during the integration read. -/
def observationSuperseded (input : ProcessObservationUpdate) : Bool :=
  let e := input.expected
  let p := st.process
  !(e.id == p.id && e.planRevision == p.planRevision && e.paramsJson == p.paramsJson && e.stateJson == p.stateJson &&
    e.selectedTurnId == p.selectedTurnId && e.lifecycleStatus == p.lifecycleStatus &&
    e.currentExecution == p.currentExecution &&
    input.metadata.all (fun m => e.metadata.entries.lookup m.1 == p.metadata.entries.lookup m.1) &&
    input.projectsJson.all (· == st.projects))

/-- Ends the process or interrupts it for a gated turn, superseding its execution. -/
def observationInterrupt (input : ProcessObservationUpdate) (w : Writes) : Except Rejection Writes :=
  let p := st.process
  if p.lifecycleStatus = .completed ∨ p.lifecycleStatus = .aborted then
    reject "invalid_transition" "Terminal processes cannot resume maintenance"
  else if input.interrupt.any fun turnId => (d.turns turnId).isNone then
    reject "invalid_transition" "Maintenance recovery turn is unavailable"
  else
    let w := supersedeExecution w st.currentTurnRecord st.currentStart ctx.now
    let w := writeTurnWait w { p with metadata := w.processPatch.metadata.getD p.metadata } none
    let w := applyProcessPatchField w p .currentExecution none
    match input.lifecycleStatus, input.interrupt with
    | some status, _ =>
      let w := applyProcessPatchField w p .selectedTurnId none
      .ok { applyProcessPatchField w p .lifecycleStatus status.toLifecycle with
        workerIntent := some (.stopWithReason "MR maintenance finished") }
    | none, some turnId =>
      if turnWaitPredicate d (some turnId) = false then
        reject "invalid_transition" "Maintenance recovery requires an existing gated worker turn"
      else match d.workerTurnType turnId with
        | some turnType =>
          let w := applyProcessPatchField w p .selectedTurnId (some turnId)
          let w := applyProcessPatchField w p .lifecycleStatus .waiting
          .ok { reserveSelectedTurnStart (w.candidate p) w turnId turnType (ctx.fresh 0) with
            workerIntent := some (.stopWithReason "MR maintenance finished") }
        | none => reject "invalid_transition" "Maintenance recovery requires an existing gated worker turn"
    | none, none => .ok w

/-- `ApplyProcessObservation`. -/
def decideProcessObservation (input : ProcessObservationUpdate) : Except Rejection Decision := do
  if observationSuperseded st input then
    reject "observation_superseded" "The process changed during the integration read"
  else
    let w := stateWrites st.process input.state
    let w := if input.metadata.isEmpty then w else
      applyMetadataPatch w st.process
        { st.process.metadata with entries := mergeEntries st.process.metadata.entries input.metadata }
    if input.lifecycleStatus.isSome ∨ input.interrupt.isSome then do
      let writes ← observationInterrupt d ctx st input w
      return { writes }
    else return { writes := w }

/-! ## References -/

/-- `UpdateProductRefs` and `UpdateSemanticRefs`: the state with a reference patch merged in. -/
def decideUpdateRefs (nextStateJson : Option Json) : Except Rejection Decision :=
  .ok { writes := stateWrites st.process nextStateJson }

end Leitwerk.Engine
