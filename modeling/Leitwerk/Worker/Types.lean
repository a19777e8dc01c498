import Leitwerk.Domain
/-!
# The worker runtime's state, commands, facts and events

The types of `packages/worker/src/runtime/lifecycle-reducer.ts`, with the parts
of the prepared session, the start payload and the turn result the reducer
reads. An `Error` or any other thrown value is a `Thrown`.
-/

namespace Leitwerk.Worker

/-! ## Failures as the policy reads them -/

/-- `TurnExecutionError`. -/
structure TurnExecutionError where
  errorClass : ErrorClass
  message : String
  failureCode : Option TurnFailureCode := none
  failureDetails : Option Json := none
  recoveryContext : Option FailedTurnRecoveryContext := none
  deriving DecidableEq

/-- A thrown value: a `TurnExecutionError`, or any other value with its
`errorClass` and `code` properties (where they are strings), its message if it
has one, and `String(error)`. -/
inductive Thrown where
  | turnExecution (error : TurnExecutionError) (code : Option String) (transport : TransportErrorDetails)
  | other (isError : Bool) (message : Option String) (text : String) (errorClass : Option String)
      (code : Option String) (transport : TransportErrorDetails)
  deriving DecidableEq

/-- `error.code`, where it is a string. -/
def Thrown.code : Thrown → Option String
  | .turnExecution _ c _ => c
  | .other _ _ _ _ c _ => c

/-- `transportErrorDetails(error)`. -/
def Thrown.transport : Thrown → TransportErrorDetails
  | .turnExecution _ _ t => t
  | .other _ _ _ _ _ t => t

/-! ## Sessions and start payloads -/

/-- Who runs the selected turn. -/
inductive SessionKind where
  | automatic | llm
  deriving DecidableEq

/-- The `processSnapshot` of a prepared session. -/
structure ProcessSnapshot where
  lifecycleStatus : LifecycleStatus
  selectedTurnModelProfileId : Option String := none
  deriving DecidableEq

/-- What distinguishes a `PreparedAutomaticSession` from a `PreparedLlmSession`:
only the latter can have Pi available or a model profile active. -/
inductive SessionRuntime where
  | automatic
  | llm (piAvailable : Bool) (activeModelProfileId : Option String)
  deriving DecidableEq

/-- `PreparedWorkerSession`, as far as the reducer reads it. -/
structure PreparedWorkerSession where
  runtime : SessionRuntime
  selectedTurnId : String
  proposedTurnRecordId : String
  acceptedTurnRecordId : Option String
  processSnapshot : ProcessSnapshot
  treeFile : String
  workspaceRoot : String
  heartbeatIntervalMs : Nat
  deriving DecidableEq

/-- `session.kind`. -/
def PreparedWorkerSession.kind (session : PreparedWorkerSession) : SessionKind :=
  match session.runtime with
  | .automatic => .automatic
  | .llm _ _ => .llm

/-- `session.piAvailable`. -/
def PreparedWorkerSession.piAvailable (session : PreparedWorkerSession) : Bool :=
  match session.runtime with
  | .automatic => false
  | .llm piAvailable _ => piAvailable

/-- `WorkerStartPayload`: the reserved start, and what a bootstrap failure
reports. `secretValues` are the values `extractSecretValuesFromPayload` finds. -/
structure WorkerStartPayload where
  startRecordId : String
  proposedTurnRecordId : String
  bootstrapKind : SessionKind
  primaryTreeFile : String
  selectedTurnId : Option String
  secretValues : List String := []
  deriving DecidableEq

/-- `ProcessInputTarget`. -/
inductive ProcessInputTarget where
  | semanticRef (ref : String)
  | productName (name : String)
  deriving DecidableEq

/-- `InputItem`. -/
structure InputItem where
  inputId : String
  sequence : Nat
  source : String
  kind : String
  target : Option ProcessInputTarget
  bodyMarkdown : String
  deriving DecidableEq

/-- `InputDelivery`, an item of an `input.batch` message. -/
structure InputDelivery extends InputItem where
  receivedAt : String
  deriving DecidableEq

/-- `inputDeliveryToItem`. -/
def inputDeliveryToItem (delivery : InputDelivery) : InputItem := delivery.toInputItem

/-- `CredentialRefreshDescriptor`. -/
structure CredentialRefreshDescriptor where
  agentDir : String
  declaredCredentialPaths : List String
  providerId : String
  revision : Nat
  deriving DecidableEq

/-- `WorkerBootstrapCompletion`. -/
structure WorkerBootstrapCompletion where
  session : PreparedWorkerSession
  pendingInputs : List InputItem
  readyPayload : Json
  credentialRefresh : Option CredentialRefreshDescriptor
  diagnostics : List String
  deriving DecidableEq

/-! ## Turn results -/

/-- `AppliedTargetedInput`. -/
structure AppliedTargetedInput where
  inputId : String
  sequence : Nat
  info : Option Json
  deriving DecidableEq

/-- `InputDeliveryMode`. -/
inductive InputDeliveryMode where
  | prompt | steer
  deriving DecidableEq

/-- `DeliveredInput`. -/
structure DeliveredInput where
  inputId : String
  sequence : Nat
  deliveryMode : InputDeliveryMode
  deriving DecidableEq

/-- `TurnExecutionMeta`. -/
structure TurnExecutionMeta where
  turnRecordId : String
  turnType : TurnType
  pathType : PathType
  forkPiEntryId : Option String
  resultPiEntryId : Option String
  turnResultMarkdown : Option String
  resultSummary : Option String
  rootEntryId : Option String
  deriving DecidableEq

/-- `WorkerTurnFailureCorrelation`. -/
structure TurnFailureCorrelation where
  turnRecordId : String
  turnId : String
  turnType : Option TurnType
  pathType : Option PathType
  forkPiEntryId : Option String
  resultPiEntryId : Option String
  deriving DecidableEq

/-- `TurnExecutionFailure`: a correlation and the error that ended the turn. -/
structure TurnExecutionFailure where
  correlation : TurnFailureCorrelation
  failure : TurnExecutionError
  deriving DecidableEq

/-- `SelectedTurnExecutionResult`, the applied targeted inputs apart. -/
inductive TurnResult where
  | outcome (turnId outcome : String) (params : Json) (info : TurnExecutionMeta)
  | failed (failure : TurnExecutionFailure)
  | parked (reason : Option String)
  deriving DecidableEq

/-- `SelectedTurnExecutionResult`. -/
structure SelectedTurnExecutionResult where
  result : TurnResult
  appliedTargetedInputs : List AppliedTargetedInput
  deriving DecidableEq

/-! ## State -/

/-- `WorkerRuntimeStateName`. -/
inductive StateName where
  | init | waitingForStart | bootstrapping | idle | busy | draining | cleanup | exited
  deriving DecidableEq

/-- The name the source writes for a state. -/
def StateName.text : StateName → String
  | .init => "init"
  | .waitingForStart => "waiting_for_start"
  | .bootstrapping => "bootstrapping"
  | .idle => "idle"
  | .busy => "busy"
  | .draining => "draining"
  | .cleanup => "cleanup"
  | .exited => "exited"

/-- `ReportedWorkerState`. -/
inductive ReportedState where
  | idle | busy | draining
  deriving DecidableEq

/-- `WorkerTimerName`. -/
inductive TimerName where
  | heartbeat | acceptanceRetry | credentialPoll | terminalAck
  deriving DecidableEq

/-- `ActiveTurnStatus`. -/
inductive ActiveTurnStatus where
  | pending | executing | completed
  deriving DecidableEq

/-- `DrainingOperation`; `null` is `none`. -/
inductive DrainingOperation where
  | bootstrap (startRecordId proposedTurnRecordId : String)
  | activation (startRecordId turnRecordId : String)
  | turn (turnRecordId : String)
  deriving DecidableEq

/-- The `stage` of the `cleaning` phase. -/
inductive CleaningStage where
  | publication | resources
  deriving DecidableEq

/-- `WorkerRuntimePhase`. -/
inductive Phase where
  | init
  | waitingForStart
  | bootstrapping (startRecordId proposedTurnRecordId : String)
  | readying (startRecordId proposedTurnRecordId : String) (acceptedId : Option String)
  | waitingForAcceptance (startRecordId proposedTurnRecordId : String)
  | activating (startRecordId turnRecordId : String)
  | active (startRecordId turnRecordId : String) (turnStatus : ActiveTurnStatus)
  | draining (reason : String) (exitAfterCleanup : Bool) (operation : Option DrainingOperation)
  | cleaning (reason : String) (exitAfterCleanup : Bool) (stage : CleaningStage)
  | exited
  deriving DecidableEq

/-- `CredentialState`. -/
structure CredentialState where
  descriptor : CredentialRefreshDescriptor
  baselineFingerprint : Option String
  pendingFingerprint : Option String
  revision : Nat
  sampling : Bool
  updatePending : Bool
  enabled : Bool
  deriving DecidableEq

/-- The terminal fact of a turn. -/
inductive TerminalFact where
  | outcome (payload : TurnOutcomePayload)
  | failed (payload : TurnFailedPayload)
  deriving DecidableEq

/-- The turn record a terminal fact is about. -/
def TerminalFact.turnRecordId : TerminalFact → String
  | .outcome p => p.turnRecordId
  | .failed p => p.turnRecordId

/-- `PendingTerminal`. -/
structure PendingTerminal where
  fact : TerminalFact
  park : Option LifecycleParkedPayload
  correlation : TurnFailureCorrelation
  deriving DecidableEq

/-- `PendingFatal`. -/
structure PendingFatal where
  payload : WorkerFailedPayload
  exitCode : Option Nat
  deriving DecidableEq

/-- `WorkerSnapshotPoint`. -/
inductive SnapshotPoint where
  | afterWorkerReady | beforeTurnOutcome | beforeTurnFailed | beforeCleanupCompleted | beforeWorkerFailed
  deriving DecidableEq

/-- The name the source writes for a snapshot point. -/
def SnapshotPoint.text : SnapshotPoint → String
  | .afterWorkerReady => "after_worker_ready"
  | .beforeTurnOutcome => "before_turn_outcome"
  | .beforeTurnFailed => "before_turn_failed"
  | .beforeCleanupCompleted => "before_cleanup_completed"
  | .beforeWorkerFailed => "before_worker_failed"

/-- The `snapshot` of a publication. -/
structure SnapshotRequest where
  point : SnapshotPoint
  turnRecordId : Option String
  required : Bool
  deriving DecidableEq

/-- What follows a fatal snapshot. -/
inductive AfterSnapshot where
  | exit | cleanup
  deriving DecidableEq

/-- `PublicationState`. Only a terminal snapshot varies its request: by the
point (outcome or failure) and the turn record. -/
inductive Publication where
  | none
  | readySnapshot
  | terminalSnapshot (point : SnapshotPoint) (turnRecordId : String) (terminal : PendingTerminal)
  | terminalPendingAck (terminal : PendingTerminal)
  | cleanupSnapshot
  | fatalSnapshot (fatal : PendingFatal) (afterSnapshot : AfterSnapshot)
  | fatalPendingCleanup (fatal : PendingFatal)
  deriving DecidableEq

/-- `publication.snapshot`, where the publication has one. -/
def Publication.snapshot : Publication → Option SnapshotRequest
  | .readySnapshot => some ⟨.afterWorkerReady, .none, false⟩
  | .terminalSnapshot point turnRecordId _ => some ⟨point, some turnRecordId, true⟩
  | .cleanupSnapshot => some ⟨.beforeCleanupCompleted, .none, true⟩
  | .fatalSnapshot _ _ => some ⟨.beforeWorkerFailed, .none, false⟩
  | _ => .none

/-- `Record<WorkerTimerName, string | null>`: the correlation of each armed timer. -/
structure Timers where
  heartbeat : Option String := none
  acceptanceRetry : Option String := none
  credentialPoll : Option String := none
  terminalAck : Option String := none
  deriving DecidableEq

/-- `timers[name]`. -/
def Timers.get (t : Timers) : TimerName → Option String
  | .heartbeat => t.heartbeat
  | .acceptanceRetry => t.acceptanceRetry
  | .credentialPoll => t.credentialPoll
  | .terminalAck => t.terminalAck

/-- `{ ...timers, [name]: value }`. -/
def Timers.set (t : Timers) : TimerName → Option String → Timers
  | .heartbeat, v => { t with heartbeat := v }
  | .acceptanceRetry, v => { t with acceptanceRetry := v }
  | .credentialPoll, v => { t with credentialPoll := v }
  | .terminalAck, v => { t with terminalAck := v }

/-- `WorkerRuntimeStateMachine`; the two fields of `work` stand on their own. -/
structure State where
  phase : Phase
  session : Option PreparedWorkerSession
  inputQueue : List InputItem
  lastSequenceConsumed : Nat
  sessionTainted : Bool
  piTurnActive : Bool
  deliveryHeadSequence : Option Nat
  publication : Publication
  credential : Option CredentialState
  timers : Timers
  deriving DecidableEq

/-- `createInitialWorkerRuntimeState`. -/
def createInitialWorkerRuntimeState : State where
  phase := .init
  session := none
  inputQueue := []
  lastSequenceConsumed := 0
  sessionTainted := false
  piTurnActive := false
  deliveryHeadSequence := none
  publication := .none
  credential := none
  timers := {}

/-! ## Outputs -/

/-- `WorkerSnapshotSource`. -/
structure SnapshotSource where
  kind : SessionKind
  treeFile : String
  deriving DecidableEq

/-- `WorkerRuntimeCommand`. -/
inductive Command where
  | bootstrap (startRecordId : String) (payload : WorkerStartPayload)
  | activate (startRecordId turnRecordId : String) (session : PreparedWorkerSession)
  | deliverInputs (headSequence : Nat) (inputs : List InputItem) (piTurnActive : Bool)
  | executeTurn (turnRecordId : String) (targetedInputs : List InputItem) (session : PreparedWorkerSession)
  | uploadSnapshot (snapshot : SnapshotRequest) (source : SnapshotSource)
  | sampleCredentials (descriptor : CredentialRefreshDescriptor) (baseline : Bool)
  | cleanup
  | armTimer (name : TimerName) (delayMs : Nat) (correlation : String)
  | cancelTimer (name : TimerName)
  | closeTransport
  | exit (code : Nat)
  deriving DecidableEq

/-- How `worker.input_consumed` says an input left the queue. -/
inductive ConsumedMode where
  | ignored | appendMessage | delivered (mode : InputDeliveryMode)
  deriving DecidableEq

/-- `WorkerDiagnosticPayload`. -/
structure Diagnostic where
  level : String
  code : String
  message : String
  errorClass : Option ErrorClass := none
  turnRecordId : Option String := none
  turnId : Option String := none
  details : Option FailureDetails := none
  deriving DecidableEq

/-- `WorkerProtocolFact`, by message type. -/
inductive Fact where
  | hello (version apiVersion : String) (capabilities : List String)
  | bootstrapProgress (phase : String)
  | ready (payload : Json)
  | heartbeat (state : ReportedState) (lastSequenceConsumed : Nat) (currentSelectedTurnId : String)
  | state (old new : ReportedState) (reason : String)
  | turnStarted (startRecordId proposedTurnRecordId : String)
  | terminal (fact : TerminalFact)
  | lifecycleParked (payload : LifecycleParkedPayload)
  | inputConsumed (inputId : String) (sequence : Nat) (deliveryMode : ConsumedMode) (info : Option Json)
  | credentialUpdate (providerId : String) (expectedRevision : Nat) (values : Json)
  | cleanupStarted (reason : String)
  | cleanupCompleted (releasedLocks removedTransientPaths : List String)
  | failed (payload : WorkerFailedPayload)
  deriving DecidableEq

/-- `WorkerRuntimeOutput`. -/
inductive Output where
  | fact (fact : Fact)
  | handleReady (treeFile workspaceRoot : String)
  | sessionTainted (reason : String)
  | diagnostic (payload : Diagnostic) (stderr : Option String)
  | stderr (message : String)
  | command (command : Command)
  deriving DecidableEq

/-! ## Events -/

/-- `ServerToWorkerMessage`; the messages the reducer ignores are `other`. -/
inductive ServerMessage where
  | start (payload : WorkerStartPayload)
  | stop (reason : String)
  | abortTurn
  | inputBatch (inputs : List InputDelivery)
  | turnStartAccepted (startRecordId turnRecordId : String)
  | turnTerminalRecorded (turnRecordId : String)
  | credentialUpdateAccepted (providerId : String) (accepted : Bool) (currentRevision : Option Nat)
      (safeReason : Option String)
  | other
  deriving DecidableEq

/-- `WorkerRuntimeEvent`. -/
inductive Event where
  | runtimeStarted
  | transportConnected
  | transportFailed (error : Thrown)
  | serverMessage (message : ServerMessage)
  | stopRequested (reason : String) (exitAfterCleanup : Bool)
  | operatorAbortObserved
  | piTurnStarted
  | piTurnEnded
  | sessionTainted (reason : String)
  | timerFired (name : TimerName) (correlation : String)
  | bootstrapSucceeded (startRecordId : String) (completion : WorkerBootstrapCompletion)
  | bootstrapFailed (startRecordId : String) (error : Thrown) (payload : WorkerStartPayload)
  | activationSucceeded (startRecordId turnRecordId : String) (diagnostics : List String)
  | activationFailed (startRecordId turnRecordId : String) (error : Thrown)
  | inputsDelivered (headSequence : Nat) (delivered : List DeliveredInput) (info : Option Json)
  | inputDeliveryFailed (headSequence : Nat) (error : Thrown)
  | turnCompleted (turnRecordId : String) (result : SelectedTurnExecutionResult)
  | turnDefect (turnRecordId : String) (error : Thrown)
  | snapshotSucceeded (point : SnapshotPoint) (turnRecordId : Option String)
  | snapshotFailed (point : SnapshotPoint) (turnRecordId : Option String) (error : Thrown)
  | credentialSampled (providerId : String) (values : Json) (fingerprint : String)
  | credentialSampleFailed (providerId : String) (error : Thrown)
  | cleanupSucceeded
  | cleanupFailed (error : Thrown)
  | invariantFailed (error : Thrown)
  deriving DecidableEq

end Leitwerk.Worker
