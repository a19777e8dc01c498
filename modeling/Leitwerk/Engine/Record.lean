import Leitwerk.Engine.Outcome
import Leitwerk.Lib.Runs
/-!
# Recording decisions

`recorder.ts`, `turn-start-preflight.ts` and `runner.ts`. A decision's starts
are deferred or mapped, its model is selected and its LLM starts prepared, and
then all writes are committed in one transaction. An operation of a process runs
alone from its decision to its commit, so a step of `Run` is one operation, or a
change of the worker leases, which the supervisor owns.
-/

namespace Leitwerk.Engine

variable (d : ProcessDefinition) (ctx : Context)

/-! ## Model preparation -/

/-- The created LLM start `record` resolves a model for. -/
def Writes.createdLlmStart (w : Writes) : Option TurnStartInput := w.creates.find? (·.turnType == .llm)

/-- The start an invalid model configuration leaves of an LLM start. -/
def invalidModelStart (p : Process) (summary : String) (s : TurnStartInput) : Option TurnStartInput :=
  let failure : PreparationFailure :=
    { requestedModelProfileId := trimToNull p.selectedTurnModelProfileId
      providerOptions := match s.state with
        | .preparationFailed f => f.providerOptions
        | .starting _ => []
      code := .invalidModelConfiguration, safeSummary := summary }
  if s.turnType = .llm then some { s with state := .preparationFailed failure } else none

/-- `parkInvalidModelConfiguration` on the first created LLM start. -/
def parkInvalidModelConfiguration (w : Writes) (p : Process) (summary : String) : Writes :=
  { applyProcessPatchField (w.replaceCreate (invalidModelStart p summary)) p .lifecycleStatus .error with
    workerIntent := some .reconcile }

/-- The columns of an evaluated model selection. -/
def selectionPatch : Option ModelSelection → ProcessPatch
  | some selection =>
    { selectedTurnModelProfileId := some (some selection.modelProfileId)
      selectedTurnModelKind := some (some selection.provenance.kind)
      selectedTurnModelSource := some (some selection.provenance.source) }
  | none => {}

/-- A start that preflight settled: its new state, the selection, and what becomes of the process. -/
structure PreparedStart where
  start : TurnStartInput
  selection : Option ModelSelection
  lifecycleStatus : LifecycleStatus
  workerIntent : WorkerIntent

/-- One created LLM start through preflight. -/
def prepareStart (verdict : PreflightVerdict) (s : TurnStartInput) : Except Rejection PreparedStart :=
  match verdict with
  | .parkFailure failure selection => .ok ⟨{ s with state := .preparationFailed failure }, selection, .error, .reconcile⟩
  | .prepared start selection => .ok ⟨{ s with state := .starting (.llm start) }, selection, .active, .restartWorker⟩
  | .reject why => .error why

/-- What a prepared start writes besides its state, directly into the patch. -/
def PreparedStart.write (s : PreparedStart) (w : Writes) : Writes :=
  { w with processPatch := { w.processPatch.assign (selectionPatch s.selection) with
                             lifecycleStatus := some s.lifecycleStatus }
           workerIntent := some s.workerIntent }

/-- `prepareCreatedTurnStarts`: the LLM starts in order, on the process with the selections so far. -/
def prepareTurnStarts (preflight : Process → TurnStartInput → PreflightVerdict) (next : Process)
    (done : List TurnStartWrite) (w : Writes) : List TurnStartWrite → Except Rejection Writes
  | [] => .ok { w with turnStartWrites := done }
  | .create s :: rest =>
    if s.turnType = .llm then do
      let prepared ← prepareStart (preflight next s) s
      prepareTurnStarts preflight ((selectionPatch prepared.selection).apply next) (done ++ [.create prepared.start])
        (prepared.write w) rest
    else prepareTurnStarts preflight next (done ++ [.create s]) w rest
  | cas :: rest => prepareTurnStarts preflight next (done ++ [cas]) w rest

/-- Writes the selected model and where it comes from. -/
def writeModelSelection (w : Writes) (p : Process) (modelProfileId : Option String)
    (provenance : Option ModelSelectionProvenance) : Writes :=
  let w := applyProcessPatchField w p .selectedTurnModelProfileId modelProfileId
  let w := applyProcessPatchField w p .selectedTurnModelKind (provenance.map (·.kind))
  applyProcessPatchField w p .selectedTurnModelSource (provenance.map (·.source))

/-- Whether `record` selects a model for the candidate's turn. -/
def shouldResolveSelection (initial candidate : Process) (w : Writes) (metadata : Option DecisionMetadata) : Bool :=
  candidate.metadata.turnWait.isNone && candidate.selectedTurnId.isSome &&
    (w.createdLlmStart.isSome || candidate.selectedTurnId != initial.selectedTurnId ||
      (candidate.lifecycleStatus == .active && initial.lifecycleStatus != .active) ||
      (metadata.bind (·.nextTurnModelProfileId)).isSome)

/-- Whether the candidate's selection has no model: no LLM turn is selected. -/
def selectionHasNoModel (candidate : Process) : Bool :=
  match candidate.selectedTurnId with
  | some turnId => (d.turns turnId).map (·.turnType) != some .llm
  | none => !(candidate.lifecycleStatus == .discovered && candidate.selectedTurnModelSource == some .launchOverride)

/-- `runModelPreparation` at one availability revision. -/
def runModelPreparation (p : Process) (metadata : Option DecisionMetadata) (w : Writes) : Except Rejection Writes :=
  let candidate := w.candidate p
  let preflighted (w : Writes) : Except Rejection Writes := match ctx.preflight with
    | some preflight => prepareTurnStarts preflight (w.candidate p) [] w w.turnStartWrites
    | none => .ok w
  if selectionHasNoModel d candidate then preflighted (writeModelSelection w p none none)
  else if shouldResolveSelection p candidate w metadata then
    match ctx.selectModel candidate w.createdLlmStart with
    | .selected modelProfileId provenance => preflighted (writeModelSelection w p modelProfileId provenance)
    | .invalid why =>
      if w.createdLlmStart.isSome then .ok (parkInvalidModelConfiguration w candidate why.message)
      else .error why
  else preflighted w

/-- Every created start begins a recovery episode unless it continues one. -/
def startEpisodes (w : Writes) : Writes :=
  w.mapCreates fun s => { s with automaticRetry := s.automaticRetry.or (some ⟨s.id, 1, none⟩) }

/-! ## Recording -/

/-- The writes `record` commits for a decision. -/
def prepareWrites (st : Store) (decision : Decision) : Except Rejection Writes := do
  let w := deferTurnWaitStarts d st.process decision.metadata ctx.waitId decision.writes
  let w ← planMappedTurnEntries d ctx st w
  let w := deferTurnWaitStarts d st.process decision.metadata ctx.waitId w
  let w ← runModelPreparation d ctx st.process decision.metadata w
  return startEpisodes w

/-- `record`. -/
def record (st : Store) (decision : Decision) : Except Rejection Store := do
  let w ← prepareWrites d ctx st decision
  match commitWrites ctx.now st w with
  | some st' => return st'
  | none => reject "record_failed" "Process operation could not be recorded"

/-! ## Operations of one process -/

inductive Op where
  | startProcess (input : StartProcessInput)
  | activateDeferredProcess (prepared : DeferredProcessActivation)
  | parkDeferredProcessActivationFailure (projectFound : Json → Bool) (expectedFacts : Process → Json → Bool)
  | executeAction
  | acceptWorkerTurnStart (input : AcceptWorkerTurnStartInput)
  | turnOutcome (payload : TurnOutcomePayload)
  | turnFailed (payload : TurnFailedPayload)
  | workerFailure (payload : WorkerFailurePayload)
  | parkProcess (payload : LifecycleParkedPayload)
  | retryFailedTurn (input : DecisionMetadata)
  | retryStartup (input : RetryStartupInput)
  | automaticRetryStartup (startRecordId : String)
  | continueFailedTurn (turnRecordId : String) (prompt : Option String) (input : DecisionMetadata)
  | armTurnWait
  | resolveTurnWait (input : ResolveTurnWaitInput)
  | retryTurnWait (input : DecisionMetadata)
  | abortProcess (expectedTurnRecordId : Option String)
  | processObservation (input : ProcessObservationUpdate)
  | updateRefs (nextStateJson : Option Json)

/-- `operation.admission === "new_turn"`. -/
def Op.admitsNewTurn : Op → Bool
  | .executeAction | .retryFailedTurn _ | .retryStartup _ | .automaticRetryStartup _ | .continueFailedTurn ..
  | .armTurnWait | .resolveTurnWait _ | .retryTurnWait _ => true
  | _ => false

/-- `operation.decide`. -/
def Op.decide (op : Op) (st : Store) : Except Rejection Decision :=
  match op with
  | .startProcess input => decideStartProcess d ctx st input
  | .activateDeferredProcess prepared => decideActivateDeferredProcess d ctx st prepared
  | .parkDeferredProcessActivationFailure found facts => decideParkDeferredProcessActivationFailure st found facts
  | .executeAction => decideExecuteAction d ctx st
  | .acceptWorkerTurnStart input => decideAcceptWorkerTurnStart d ctx st input
  | .turnOutcome payload => decideTurnOutcome d ctx st payload
  | .turnFailed payload => decideTurnFailed ctx st payload
  | .workerFailure payload => decideWorkerFailure d ctx st payload
  | .parkProcess payload => decideParkProcess st payload
  | .retryFailedTurn input => decideRetryFailedTurn d ctx st input
  | .retryStartup input => decideRetryStartup ctx st input
  | .automaticRetryStartup startRecordId => decideAutomaticRetryStartup ctx st startRecordId
  | .continueFailedTurn turnRecordId prompt input => decideContinueFailedTurn d ctx st turnRecordId prompt input
  | .armTurnWait => decideArmTurnWait d ctx st
  | .resolveTurnWait input => decideResolveTurnWait st input
  | .retryTurnWait input => decideRetryTurnWait st input
  | .abortProcess expected => decideAbortProcess d ctx st expected
  | .processObservation input => decideProcessObservation d ctx st input
  | .updateRefs nextStateJson => decideUpdateRefs st nextStateJson

/-- One operation from its admission to its commit. -/
def Op.run (op : Op) (st : Store) : Except Rejection Store := do
  if op.admitsNewTurn ∧ ctx.newTurnBlocked then
    reject "session_transfer_in_progress"
      "A local session transfer is waiting for a stable process snapshot"
  else
    let decision ← op.decide d ctx st
    record d ctx st decision

/-- `retryProcess`: which operation it runs. -/
def retryProcessOp (st : Store) (input : DecisionMetadata) : Op :=
  if st.process.metadata.turnWait.any (·.status == .error) then .retryTurnWait input
  else match st.currentStart with
    | some start => match start.state with
      | .preparationFailed _ | .bootstrapFailed .. => .retryStartup { startRecordId := start.id, metadata := input }
      | _ => .retryFailedTurn input
    | none => .retryFailedTurn input

/-! ## Steps -/

/-- What happens to a process: an operation with what it is given, or new worker leases. -/
inductive Event where
  | op (op : Op) (ctx : Context)
  | leases (leases : List WorkerLease)

/-- What an operation reports: `EngineResult`. -/
inductive Result where
  | ok
  | preCommit (why : Rejection)
  | postCommit
  deriving DecidableEq

/-- The committed store after an event. -/
def next (st : Store) : Event → Store
  | .op op ctx => match op.run d ctx st with
    | .ok st' => st'
    | .error _ => st
  | .leases leases => { st with leases }

/-- What the operation reports. -/
def outputs (st : Store) : Event → List Result
  | .op op ctx => match op.run d ctx st with
    | .ok _ => [if ctx.reactionsFail then .postCommit else .ok]
    | .error why => [.preCommit why]
  | .leases _ => []

/-- A step of the engine on one process. -/
def EngineStep : Runs.Step Store Event Result := fun st e os st' => st' = next d st e ∧ os = outputs d st e

/-- A freshly created process, before any operation. -/
structure Fresh (st : Store) : Prop where
  execution : st.process.currentExecution = none
  wait : st.process.metadata.turnWait = none
  starts : st.turnStarts = .empty
  records : st.turnRecords = .empty

end Leitwerk.Engine
