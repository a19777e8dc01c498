import Leitwerk.Domain
import Leitwerk.Lib.Table
/-!
# What the process engine stores

The durable records of one process instance (`packages/domain/src/domain-model.ts`
and the repositories under `packages/server/src/db`): the process row, its start
records, turn records and mapped runs, and the worker leases. An optional column
is an `Option`; timestamps are the source's strings. Columns that no modelled
operation reads are left out.
-/

namespace Leitwerk.Engine

abbrev TurnId := String

/-! ## Model selection -/

/-- `ModelSelectionKind`. -/
inductive ModelSelectionKind where
  | explicit | inherited
  deriving DecidableEq

/-- `ProcessSelectedTurnModelSource`. -/
inductive ModelSelectionSource where
  | actionOverride | launchOverride | instanceTurnConfig | processConfigTurn | instanceDefault
  | scopedPurposeDefault | processConfigDefault | catalogDefault | legacyPersisted
  deriving DecidableEq

/-- `ModelSelectionProvenance`. -/
structure ModelSelectionProvenance where
  kind : ModelSelectionKind
  source : ModelSelectionSource
  deriving DecidableEq

/-- `DurableModelSelection`. -/
structure ModelSelection where
  modelProfileId : String
  provenance : ModelSelectionProvenance
  deriving DecidableEq

abbrev ProviderOptions := List (String × String)

/-- The model a start was resolved to. -/
structure ResolvedModel where
  profileId : String
  providerId : String
  modelId : String
  thinkingLevel : String
  deriving DecidableEq

/-- The `llm` variant of `ResolvedTurnStart`. -/
structure ResolvedLlmStart where
  model : ResolvedModel
  modelSelectionProvenance : Option ModelSelectionProvenance
  availabilityRevision : Nat
  providerOptions : ProviderOptions
  piResourceSnapshotDigest : String
  outcomeContract : Option Json
  deriving DecidableEq

/-- `ResolvedTurnStart`. -/
inductive ResolvedTurnStart where
  | automatic
  | llm (start : ResolvedLlmStart)
  deriving DecidableEq

/-! ## Start records -/

/-- `TurnStartRecord["turnType"]`: the turn types a worker owns. -/
inductive WorkerTurnType where
  | llm | automatic
  deriving DecidableEq

def WorkerTurnType.toTurnType : WorkerTurnType → TurnType
  | .llm => .llm
  | .automatic => .automatic

/-- `isWorkerOwnedTurnType`, with the type it narrows to. -/
def workerTurnType? : TurnType → Option WorkerTurnType
  | .llm => some .llm
  | .automatic => some .automatic
  | .human | .external => none

/-- `TurnStartKind`. -/
inductive TurnStartKind where
  | selectedTurn | retry | continue | startupRetry
  deriving DecidableEq

/-- `TurnStartPreparationFailureCode`. -/
inductive PreparationFailureCode where
  | invalidModelConfiguration | modelRequired | modelUnavailable | modelStale
  | providerOptionsRequired | providerPreflightFailed
  deriving DecidableEq

/-- The `preparation_failed` variant of `TurnStartRecordState`. -/
structure PreparationFailure where
  requestedModelProfileId : Option String
  providerOptions : ProviderOptions
  code : PreparationFailureCode
  safeSummary : String
  modelSelectionProvenance : Option ModelSelectionProvenance := none
  availabilityRevision : Option Nat := none
  deriving DecidableEq

/-- `StartupRetryState`. -/
structure StartupRetryState where
  episodeStartRecordId : String
  starts : Nat
  nextRetryAt : Option String
  deriving DecidableEq

/-- `TurnStartContinuation`. -/
structure TurnStartContinuation where
  continueFromPiEntryId : String
  continuePrompt : String
  savedPrimaryLeafEntryId : Option String
  deriving DecidableEq

/-- `MappedTurnItemRef`. -/
structure MappedTurnItemRef where
  runId : String
  itemKey : String
  itemIndex : Nat
  deriving DecidableEq

/-- The states a start can be created in: every create of the source is one of these two. -/
inductive InitialStartState where
  | preparationFailed (failure : PreparationFailure)
  | starting (start : ResolvedTurnStart)
  deriving DecidableEq

/-- `TurnStartRecordState`, less `automaticRetry`, which every state carries. -/
inductive StartState where
  | preparationFailed (failure : PreparationFailure)
  | starting (start : ResolvedTurnStart)
  | bootstrapFailed (start : ResolvedTurnStart) (failedWorkerLeaseId : Option String) (code safeSummary : String)
  | accepted (start : ResolvedTurnStart) (turnRecordId acceptedWorkerLeaseId : String)
  | superseded (start : Option ResolvedTurnStart)
  deriving DecidableEq

/-- `TurnStartRecordState["kind"]`. -/
inductive StartStateKind where
  | preparationFailed | starting | bootstrapFailed | accepted | superseded
  deriving DecidableEq

def StartState.kind : StartState → StartStateKind
  | .preparationFailed _ => .preparationFailed
  | .starting _ => .starting
  | .bootstrapFailed .. => .bootstrapFailed
  | .accepted .. => .accepted
  | .superseded _ => .superseded

/-- Whether a start created in the state is ready for a worker at once. -/
def InitialStartState.begins : InitialStartState → Bool
  | .starting _ => true
  | .preparationFailed _ => false

def InitialStartState.toState : InitialStartState → StartState
  | .preparationFailed f => .preparationFailed f
  | .starting s => .starting s

/-- `TurnStartRecord`, over the states it may be in. -/
structure TurnStart (σ : Type) where
  id : String
  turnId : TurnId
  turnType : WorkerTurnType
  proposedTurnRecordId : String
  startKind : TurnStartKind
  recoveryTurnRecordId : Option String
  continuation : Option TurnStartContinuation
  state : σ
  automaticRetry : Option StartupRetryState := none
  iteration : Option MappedTurnItemRef := none
  deriving DecidableEq

abbrev TurnStartRecord := TurnStart StartState

/-- The input of a create. -/
abbrev TurnStartInput := TurnStart InitialStartState

/-- The row a create inserts. -/
def TurnStart.toRecord (s : TurnStartInput) : TurnStartRecord := { s with state := s.state.toState }

/-! ## Turn records -/

/-- `ProcessTurnRecordStatus`. -/
inductive TurnRecordStatus where
  | running | succeeded | failed | superseded
  deriving DecidableEq

/-- `ProcessTurnRecord`. -/
structure TurnRecord where
  id : String
  turnId : TurnId
  turnType : TurnType
  status : TurnRecordStatus
  attemptNumber : Nat := 1
  parentTurnRecordId : Option String := none
  pathType : PathType := .primary
  forkPiEntryId : Option String := none
  turnStartRecordId : Option String := none
  acceptedWorkerLeaseId : Option String := none
  resultPiEntryId : Option String := none
  modelProfileId : Option String := none
  modelSelectionProvenance : Option ModelSelectionProvenance := none
  iteration : Option MappedTurnItemRef := none
  turnResultMarkdown : Option String := none
  errorSummary : Option String := none
  errorClass : Option ErrorClass := none
  startedAt : String
  endedAt : Option String := none
  deriving DecidableEq

/-! ## Mapped runs -/

/-- `MappedRun["status"]`. -/
inductive MappedRunStatus where
  | active | completed | aborted
  deriving DecidableEq

/-- A frozen item with the result it was completed with. -/
structure MappedItem where
  itemKey : String
  label : String
  itemJson : Json
  outcome : Option String := none
  resultJson : Option Json := none
  turnRecordId : Option String := none
  deriving DecidableEq

/-- `MappedRun` with its items in frozen order. -/
structure MappedRun where
  turnId : TurnId
  status : MappedRunStatus
  nextIndex : Nat
  items : List MappedItem
  deriving DecidableEq

/-! ## Worker leases -/

/-- `PreparedTurnStart["startTarget"]`. -/
inductive StartTarget where
  | currentLeaf
  | entry (entryId : String)
  | root
  deriving DecidableEq

/-- `PreparedTurnStart`. -/
structure PreparedTurnStart where
  pathType : PathType
  contextMode : String
  startTarget : StartTarget
  forkPiEntryId : Option String
  deriving DecidableEq

/-- What the `llm` variant of `WorkerBootstrapReceipt` adds to the `automatic` one. -/
structure LlmReceipt where
  verifiedResourceSnapshotDigest : String
  providerId : String
  modelId : String
  preparedStart : Option PreparedTurnStart
  deriving DecidableEq

/-- `WorkerBootstrapReceipt`; `llm` is absent for the `automatic` kind. -/
structure WorkerBootstrapReceipt where
  startRecordId : String
  workerLeaseId : String
  llm : Option LlmReceipt
  deriving DecidableEq

/-- `WorkerLease`. -/
structure WorkerLease where
  id : String
  instanceId : String
  workerId : String
  turnStartRecordId : Option String
  bootstrapReceipt : Option WorkerBootstrapReceipt
  exitedAt : Option String := none
  deriving DecidableEq

/-! ## The process -/

/-- `DecisionMetadata`. An outer `none` is a key that is absent. -/
structure DecisionMetadata where
  nextTurnModelProfileId : Option (Option String) := none
  providerOptions : Option ProviderOptions := none
  deriving DecidableEq

/-- `PendingTurnWait["status"]`. -/
inductive TurnWaitStatus where
  | waiting | error
  deriving DecidableEq

/-- `PendingTurnWait`. Its `turnId` is that of the deferred start, which reading it back enforces. -/
structure PendingTurnWait where
  id : String
  revision : Nat
  status : TurnWaitStatus
  nextCheckAt : Nat
  failures : Nat
  message : Option String
  start : TurnStartInput
  metadata : Option DecisionMetadata
  initialSelection : Bool
  deriving DecidableEq

def PendingTurnWait.turnId (w : PendingTurnWait) : TurnId := w.start.turnId

/-- The metadata keys of the retry group. -/
structure RetryMetadata where
  retryForkPiEntryId : String
  retryFromTurnRecordId : String
  deriving DecidableEq

/-- The metadata keys of the continuation group. -/
structure ContinuationMetadata where
  continueFromPiEntryId : Option String := none
  continueFromTurnRecordId : Option String := none
  continueSavedPrimaryLeafEntryId : Option String := none
  continuePrompt : Option String := none
  failedTurnRecovery : Option (String × FailedTurnRecoveryContext) := none
  deriving DecidableEq

/-- `ProcessInstance["metadata"]`: the engine's own keys, then everyone else's as JSON. -/
structure Metadata where
  turnWait : Option PendingTurnWait := none
  retry : Option RetryMetadata := none
  continuation : ContinuationMetadata := {}
  requiresExternalReceipt : Bool := false
  entries : List (String × Json) := []
  deriving DecidableEq

/-- `ProcessInstance`. `currentExecution` is the id of its `worker_start`. -/
structure Process where
  id : String
  lifecycleStatus : LifecycleStatus
  selectedTurnId : Option TurnId
  currentExecution : Option String
  planRevision : Nat := 0
  externalId : Option String := none
  externalUrl : Option String := none
  metadata : Metadata := {}
  selectedTurnModelProfileId : Option String := none
  selectedTurnModelKind : Option ModelSelectionKind := none
  selectedTurnModelSource : Option ModelSelectionSource := none
  paramsJson : Option Json := none
  stateJson : Option Json := none
  closedAt : Option String := none
  deriving DecidableEq

/-- A `turn_selected` event, with the turns of its data. -/
structure TurnSelected where
  fromTurnId : Option TurnId
  toTurnId : Option TurnId
  deriving DecidableEq

/-- The committed rows of one process. `projects` is the JSON of its projects, and
`turnSelectedEvents` are its events of that type, oldest first. -/
structure Store where
  process : Process
  turnStarts : Table String TurnStartRecord := .empty
  turnRecords : Table String TurnRecord := .empty
  mappedRuns : Table String MappedRun := .empty
  leases : List WorkerLease := []
  projects : Json := "[]"
  turnSelectedEvents : List TurnSelected := []

/-- `leases.getByInstance`: the lease of the instance that has not exited. -/
def Store.activeLease (st : Store) : Option WorkerLease :=
  st.leases.find? fun l => l.instanceId = st.process.id ∧ l.exitedAt = none

/-- `leases.getById`. -/
def Store.leaseById (st : Store) (id : String) : Option WorkerLease := st.leases.find? (·.id = id)

/-- `mappedRuns.getActiveByInstance`. -/
def Store.activeMappedRun (st : Store) : Option MappedRun := st.mappedRuns.values.find? (·.status = .active)

/-- The start record `currentExecution` names. -/
def Store.currentStart (st : Store) : Option TurnStartRecord :=
  st.process.currentExecution.bind st.turnStarts.get?

/-- `resolveCurrentExecutionTurnRecordId`. -/
def Store.currentTurnRecordId (st : Store) : Option String :=
  match st.currentStart with
  | some s => match s.state with
    | .accepted _ turnRecordId _ => some turnRecordId
    | _ => none
  | none => none

/-- The turn record of the current execution, when it has one. -/
def Store.currentTurnRecord (st : Store) : Option TurnRecord := st.currentTurnRecordId.bind st.turnRecords.get?

end Leitwerk.Engine
