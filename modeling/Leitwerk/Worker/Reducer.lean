import Leitwerk.Worker.FailurePolicy
import Leitwerk.Worker.Inputs
/-!
# The lifecycle reducer

`reduceWorkerRuntime` of `packages/worker/src/runtime/lifecycle-reducer.ts`,
one definition for each branch of its switch. A `throw` is `Except.error` with
the source's message. The outputs a function of the source pushes are the list
it returns here.
-/

namespace Leitwerk.Worker

/-- A new state and the outputs of getting there. -/
structure Reduction where
  state : State
  outputs : List Output
  deriving DecidableEq

/-- A part of the reducer: it can throw. -/
abbrev Reduce := Except String Reduction

/-! ## Derived names and policies -/

/-- `HELLO`. -/
def hello : Fact :=
  .hello "0.1.0" "2026-09-16" ["worker.ipc/v1", "input.batch", "worker.stop", "worker.abort_turn"]

/-- `deriveReportedWorkerState`. -/
def deriveReportedWorkerState (s : State) : ReportedState :=
  match s.phase with
  | .draining _ _ _ | .cleaning _ _ _ => .draining
  | .active _ _ turnStatus =>
    match turnStatus, s.publication with
    | .executing, _ | _, .terminalSnapshot _ _ _ | _, .terminalPendingAck _ => .busy
    | _, _ => if s.deliveryHeadSequence.isSome then .busy else .idle
  | _ => if s.deliveryHeadSequence.isSome then .busy else .idle

/-- `currentStateName`. -/
def currentStateName (s : State) : StateName :=
  match s.phase with
  | .init => .init
  | .waitingForStart => .waitingForStart
  | .bootstrapping _ _ => .bootstrapping
  | .readying _ _ _ | .waitingForAcceptance _ _ => .idle
  | .activating _ _ => .busy
  | .active _ _ turnStatus =>
    match turnStatus, s.publication with
    | .executing, _ | _, .terminalSnapshot _ _ _ => .busy
    | _, _ => .idle
  | .draining _ _ _ => .draining
  | .cleaning _ _ _ => .cleanup
  | .exited => .exited

/-- `resolveWorkerSnapshotPolicy`: whether a snapshot is uploaded at a point. -/
def resolveWorkerSnapshotPolicy (point : SnapshotPoint) (kind : SessionKind) (piAvailable : Bool) : Bool :=
  match kind with
  | .automatic => false
  | .llm => !(point == .beforeCleanupCompleted && !piAvailable)

/-- `sessionSnapshotSource`. -/
def sessionSnapshotSource (session : PreparedWorkerSession) : SnapshotSource :=
  ⟨session.kind, session.treeFile⟩

/-- `failureContext`. -/
def failureContext (s : State) : Option FailureSessionContext :=
  s.session.map fun session =>
    ⟨some session.selectedTurnId, session.processSnapshot.lifecycleStatus, sessionSnapshotSource session⟩

/-- `hasActivePublication`. -/
def hasActivePublication (s : State) : Bool := s.publication != .none

/-- `snapshotMatches`, for a publication that has a snapshot. -/
def snapshotMatches (s : State) (point : SnapshotPoint) (turnRecordId : Option String) : Bool :=
  match s.publication.snapshot with
  | some snapshot => snapshot.point == point && snapshot.turnRecordId == turnRecordId
  | none => false

/-- `matchesBootstrap`. -/
def matchesBootstrap (s : State) (startRecordId : String) : Bool :=
  match s.phase with
  | .bootstrapping id _ => id == startRecordId
  | .draining _ _ (some (.bootstrap id _)) => id == startRecordId
  | _ => false

/-- `matchesActivation`. -/
def matchesActivation (s : State) (startRecordId turnRecordId : String) : Bool :=
  match s.phase with
  | .activating id record => id == startRecordId && record == turnRecordId
  | .draining _ _ (some (.activation id record)) => id == startRecordId && record == turnRecordId
  | _ => false

/-- `matchesTurn`. -/
def matchesTurn (s : State) (turnRecordId : String) : Bool :=
  match s.phase with
  | .active _ record .executing => record == turnRecordId
  | .draining _ _ (some (.turn record)) => record == turnRecordId
  | _ => false

/-- `finishDrainingOperation`. -/
def finishDrainingOperation (s : State) : State :=
  match s.phase with
  | .draining reason exit _ => { s with phase := .draining reason exit none }
  | _ => s

/-- `noActiveWork`. -/
def noActiveWork (s : State) : Bool :=
  match s.phase with
  | .draining _ _ none => s.deliveryHeadSequence.isNone && s.publication == .none
  | _ => false

/-! ## Building blocks -/

/-- `beginSnapshot`. -/
def beginSnapshot (s : State) (publication : Publication) (source : SnapshotSource) : Reduce :=
  if hasActivePublication s then .error "Snapshot publication is already active"
  else .ok ⟨{ s with publication := publication },
    publication.snapshot.toList.map fun snapshot => .command (.uploadSnapshot snapshot source)⟩

/-- `armTimer`. -/
def armTimer (s : State) (name : TimerName) (delayMs : Nat) (correlation : String) : Reduction :=
  ⟨{ s with timers := s.timers.set name (some correlation) }, [.command (.armTimer name delayMs correlation)]⟩

/-- `TERMINAL_ACK_RETRY_MS`. -/
def terminalAckRetryMs : Nat := 5000

/-- `publishTerminalAndAwaitAcknowledgement`. -/
def publishTerminalAndAwaitAcknowledgement (s : State) (terminal : PendingTerminal) : Reduction :=
  let armed := armTimer { s with publication := .terminalPendingAck terminal } .terminalAck
    terminalAckRetryMs terminal.correlation.turnRecordId
  ⟨armed.state, .fact (.terminal terminal.fact) ::
    (terminal.park.toList.map fun park => .fact (.lifecycleParked park)) ++ armed.outputs⟩

/-- `finishFatal`. -/
def finishFatal (s : State) (fatal : PendingFatal) : Reduction :=
  ⟨{ s with publication := .none, phase := .exited },
    [.fact (.failed fatal.payload), .command .closeTransport] ++
      fatal.exitCode.toList.map fun code => .command (.exit code)⟩

/-- Where a fatal snapshot leads: out of the publication stage of a cleanup, to
its resources; from anywhere else, out of the worker. -/
def afterFatalSnapshot (s : State) : AfterSnapshot :=
  match s.phase with
  | .cleaning _ _ .publication => .cleanup
  | _ => .exit

/-- `failureOutputs`. -/
def failureOutputs (s : State) (failure : WorkerFailure) : Reduce := do
  let disposition := normalizeWorkerFailure failure
  let said : List Output :=
    (disposition.diagnostic.toList.map fun d => .diagnostic d none) ++
      if disposition.stderrMessage.isEmpty then [] else [.stderr disposition.stderrMessage]
  match disposition.terminal with
  | .turnFailed payload park =>
    return ⟨s, said ++ [.fact (.terminal (.failed payload)), .fact (.lifecycleParked park)]⟩
  | .park payload => return ⟨s, said ++ [.fact (.lifecycleParked payload)]⟩
  | .workerFailed payload =>
    let fatal : PendingFatal := ⟨payload, disposition.exitCode⟩
    match disposition.snapshot, hasActivePublication s with
    | some source, false =>
      let begun ← beginSnapshot s (.fatalSnapshot fatal (afterFatalSnapshot s)) source
      return ⟨begun.state, said ++ begun.outputs⟩
    | _, _ =>
      let finished := finishFatal s fatal
      return ⟨finished.state, said ++ finished.outputs⟩
  | .transportLost =>
    return ⟨{ s with publication := .none, phase := .exited },
      said ++ [.command .closeTransport, .command (.exit (disposition.exitCode.getD 1))]⟩

/-- `inputConsumedFact`. -/
def inputConsumedFact (inputId : String) (sequence : Nat) (mode : ConsumedMode) (info : Option Json) : Output :=
  .fact (.inputConsumed inputId sequence mode info)

/-- The loop of `removeAppliedTargeted`: the queue, the high-water mark and the outputs. -/
def removeApplied (queue : List InputItem) (last : Nat) :
    List AppliedTargetedInput → List InputItem × Nat × List Output
  | [] => (queue, last, [])
  | item :: applied =>
    match queue with
    | [] => (queue, last, [])
    | head :: rest =>
      if head.inputId == item.inputId && head.sequence == item.sequence && head.targeted then
        let (queue', last', outputs) := removeApplied rest (max last item.sequence) applied
        (queue', last', inputConsumedFact item.inputId item.sequence .appendMessage item.info :: outputs)
      else (queue, last, [])

/-- `removeAppliedTargeted`. -/
def removeAppliedTargeted (s : State) (applied : List AppliedTargetedInput) : Reduction :=
  let (queue, last, outputs) := removeApplied s.inputQueue s.lastSequenceConsumed applied
  ⟨{ s with inputQueue := queue, lastSequenceConsumed := last }, outputs⟩

/-- `beginActivation`. -/
def beginActivation (s : State) (startRecordId turnRecordId : String) : Reduction :=
  match s.session with
  | none => ⟨s, []⟩
  | some session =>
    ⟨{ s with phase := .activating startRecordId turnRecordId, timers := s.timers.set .acceptanceRetry none },
      [.command (.cancelTimer .acceptanceRetry), .command (.activate startRecordId turnRecordId session)]⟩

/-- `credential?.sampling`. -/
def sampling (s : State) : Bool := s.credential.any (·.sampling)

/-- `finishReadying`. An empty `acceptedId` is falsy, like an absent one. -/
def finishReadying (s : State) : Reduction :=
  match s.phase with
  | .readying startRecordId proposedTurnRecordId acceptedId =>
    if sampling s || hasActivePublication s then ⟨s, []⟩
    else match acceptedId.filter (· != "") with
      | some id => beginActivation s startRecordId id
      | none =>
        let armed := armTimer { s with phase := .waitingForAcceptance startRecordId proposedTurnRecordId }
          .acceptanceRetry 1000 startRecordId
        ⟨armed.state, .fact (.turnStarted startRecordId proposedTurnRecordId) :: armed.outputs⟩
  | _ => ⟨s, []⟩

/-! ## Advancing -/

/-- The cleanup branch of `advance`: nothing is active in a draining worker. -/
def beginCleanup (s : State) (reason : String) (exit : Bool) : Reduce := do
  let started : Output := .fact (.cleanupStarted reason)
  match s.session.filter fun session =>
      resolveWorkerSnapshotPolicy .beforeCleanupCompleted session.kind session.piAvailable with
  | some session =>
    let begun ← beginSnapshot { s with phase := .cleaning reason exit .publication } .cleanupSnapshot
      (sessionSnapshotSource session)
    return ⟨begun.state, started :: begun.outputs⟩
  | none => return ⟨{ s with phase := .cleaning reason exit .resources }, [started, .command .cleanup]⟩

/-- The diagnostic of inputs skipped in a tainted session. -/
def skippedTainted (count : Nat) : Output :=
  .diagnostic
    { level := "warn", code := "input.skipped_session_tainted",
      message := "Skipping queued inputs because the Pi session is tainted",
      details := some (.record s!"\x7b\"skippedInputCount\":{count}\x7d") } none

/-- `consume_ignored`: the inputs leave the queue without reaching Pi. -/
def consumeIgnored (s : State) (inputs : List InputItem) : Reduction :=
  let ids := inputs.map (·.inputId)
  ⟨{ s with
      inputQueue := s.inputQueue.filter (fun item => !ids.contains item.inputId)
      lastSequenceConsumed := (inputs.map (·.sequence)).foldl max s.lastSequenceConsumed },
    inputs.map fun item => inputConsumedFact item.inputId item.sequence .ignored none⟩

/-- The input branch of `advance`, for a phase in which inputs can be handled. -/
def advanceInputs (recur : State → Reduce) (s : State) (mayStartTurn : Bool) : Reduce :=
  match decideWorkerInputEffect s.inputQueue s.sessionTainted (s.session.any (·.piAvailable)) mayStartTurn with
  | .none => .ok ⟨s, []⟩
  | .blocked => .ok ⟨s, [skippedTainted s.inputQueue.length]⟩
  | .consumeIgnored inputs => do
    let consumed := consumeIgnored s inputs
    let rest ← recur consumed.state
    return ⟨rest.state, consumed.outputs ++ rest.outputs⟩
  | .deliver inputs =>
    let headSequence := (inputs.head?.map (·.sequence)).getD 0
    .ok ⟨{ s with deliveryHeadSequence := some headSequence },
      [.command (.deliverInputs headSequence inputs s.piTurnActive)]⟩
  | .startTurn inputs =>
    match s.session, s.phase with
    | some session, .active startRecordId turnRecordId _ =>
      .ok ⟨{ s with phase := .active startRecordId turnRecordId .executing },
        [.command (.executeTurn turnRecordId inputs session)]⟩
    | _, _ => .ok ⟨s, []⟩

/-- The body of `advance` after `finishReadying`. -/
def advanceReady (recur : State → Reduce) (s : State) : Reduce :=
  match s.phase with
  | .draining reason exit _ => if noActiveWork s then beginCleanup s reason exit else .ok ⟨s, []⟩
  | .active _ _ turnStatus =>
    if s.deliveryHeadSequence.isSome || hasActivePublication s then .ok ⟨s, []⟩
    else advanceInputs recur s (turnStatus == .pending)
  | .waitingForAcceptance _ _ =>
    if s.deliveryHeadSequence.isSome || hasActivePublication s then .ok ⟨s, []⟩
    else if s.session.any (·.kind == .llm) then .ok ⟨s, []⟩
    else advanceInputs recur s false
  | _ => .ok ⟨s, []⟩

/-- `advance`, whose recursion consumes inputs: `fuel` bounds its depth. -/
def advanceWithin : Nat → State → Reduce
  | 0, s => .ok ⟨s, []⟩
  | fuel + 1, s => do
    let ready := finishReadying s
    let rest ← advanceReady (advanceWithin fuel) ready.state
    return ⟨rest.state, ready.outputs ++ rest.outputs⟩

/-- `advance`. Every recursive call has a shorter queue. -/
def advance (s : State) : Reduce := advanceWithin (s.inputQueue.length + 1) s

/-! ## The branches of the switch -/

/-- `runtime_started`. -/
def onRuntimeStarted (s : State) : Reduction :=
  match s.phase with
  | .init =>
    ⟨{ s with phase := .waitingForStart }, [.fact hello, .fact (.bootstrapProgress "worker_connected")]⟩
  | _ => ⟨s, []⟩

/-- The heartbeat of a session. -/
def heartbeatFact (s : State) (session : PreparedWorkerSession) : Output :=
  .fact (.heartbeat (deriveReportedWorkerState s) s.lastSequenceConsumed session.selectedTurnId)

/-- `transport_connected`. -/
def onTransportConnected (s : State) : Reduction :=
  let greeting : List Output := [.fact hello, .fact (.bootstrapProgress "worker_connected")] ++
    s.session.toList.map (heartbeatFact s)
  match s.publication with
  | .terminalPendingAck terminal =>
    let published := publishTerminalAndAwaitAcknowledgement s terminal
    ⟨published.state, greeting ++ published.outputs⟩
  | _ => ⟨s, greeting⟩

/-- The operation a stop request has to wait for. -/
def drainingOperation (s : State) : Option DrainingOperation :=
  match s.phase with
  | .bootstrapping startRecordId proposedTurnRecordId => some (.bootstrap startRecordId proposedTurnRecordId)
  | .activating startRecordId turnRecordId => some (.activation startRecordId turnRecordId)
  | .active _ turnRecordId .executing => some (.turn turnRecordId)
  | _ => none

/-- `stop_requested`. -/
def onStopRequested (s : State) (reason : String) (exitAfterCleanup : Bool) : Reduction :=
  match s.phase with
  | .cleaning _ _ _ | .draining _ _ _ => ⟨s, []⟩
  | _ =>
    ⟨{ s with
        phase := .draining reason exitAfterCleanup (drainingOperation s)
        timers := {}
        credential := none },
      [.heartbeat, .acceptanceRetry, .credentialPoll, .terminalAck].map fun name =>
        .command (.cancelTimer name)⟩

/-- `session_tainted`. -/
def onSessionTainted (s : State) (reason : String) : Reduction :=
  if s.sessionTainted then ⟨s, []⟩ else ⟨{ s with sessionTainted := true }, [.sessionTainted reason]⟩

/-- `worker.start`. -/
def onWorkerStart (s : State) (payload : WorkerStartPayload) : Reduction :=
  match s.phase with
  | .waitingForStart =>
    ⟨{ s with
        phase := .bootstrapping payload.startRecordId payload.proposedTurnRecordId
        sessionTainted := false },
      [.fact (.bootstrapProgress "preparing_workspace"),
        .command (.bootstrap payload.startRecordId payload)]⟩
  | _ => ⟨s, []⟩

/-- `input.batch`. -/
def onInputBatch (s : State) (inputs : List InputDelivery) : Reduction :=
  match s.phase with
  | .waitingForStart | .init => ⟨s, []⟩
  | _ =>
    let incoming := (inputs.map inputDeliveryToItem).filter (·.sequence > s.lastSequenceConsumed)
    ⟨{ s with inputQueue := enqueueInputs s.inputQueue incoming }, []⟩

/-- `worker.turn_start_accepted`. -/
def onTurnStartAccepted (s : State) (startRecordId turnRecordId : String) : Reduction :=
  match s.phase with
  | .readying id proposed _ =>
    if startRecordId == id then ⟨{ s with phase := .readying id proposed (some turnRecordId) }, []⟩ else ⟨s, []⟩
  | .waitingForAcceptance id _ =>
    if startRecordId == id then beginActivation s startRecordId turnRecordId else ⟨s, []⟩
  | _ => ⟨s, []⟩

/-- `worker.turn_terminal_recorded`. -/
def onTurnTerminalRecorded (s : State) (turnRecordId : String) : Reduction :=
  match s.publication with
  | .terminalPendingAck terminal =>
    if terminal.correlation.turnRecordId == turnRecordId then
      ⟨{ s with publication := .none, timers := s.timers.set .terminalAck none },
        [.command (.cancelTimer .terminalAck)]⟩
    else ⟨s, []⟩
  | _ => ⟨s, []⟩

/-- `worker.credential_update_accepted`. -/
def onCredentialUpdateAccepted (s : State) (providerId : String) (accepted : Bool)
    (currentRevision : Option Nat) (safeReason : Option String) : Reduction :=
  match s.credential with
  | none => ⟨s, []⟩
  | some credential =>
    if !credential.enabled || !credential.updatePending || providerId != credential.descriptor.providerId then
      ⟨s, []⟩
    else match currentRevision.filter fun _ => accepted with
      | none =>
        let rejected := { credential with enabled := false, updatePending := false, pendingFingerprint := none }
        ⟨{ s with credential := some rejected },
          [.diagnostic
            { level := "warn", code := "credential.refresh_rejected",
              message := safeReason.getD "Credential refresh was rejected" } safeReason]⟩
      | some revision =>
        let accepted :=
          { credential with
            revision := revision
            baselineFingerprint := credential.pendingFingerprint.or credential.baselineFingerprint
            pendingFingerprint := none
            updatePending := false
            sampling := true }
        ⟨{ s with credential := some accepted }, [.command (.sampleCredentials credential.descriptor false)]⟩

/-- `server_message`, the stop request apart. -/
def onServerMessage (s : State) : ServerMessage → Reduction
  | .start payload => onWorkerStart s payload
  | .stop reason => onStopRequested s reason true
  | .inputBatch inputs => onInputBatch s inputs
  | .turnStartAccepted startRecordId turnRecordId => onTurnStartAccepted s startRecordId turnRecordId
  | .turnTerminalRecorded turnRecordId => onTurnTerminalRecorded s turnRecordId
  | .credentialUpdateAccepted providerId accepted revision reason =>
    onCredentialUpdateAccepted s providerId accepted revision reason
  | .abortTurn | .other => ⟨s, []⟩

/-- The diagnostics of a bootstrap or an activation. -/
def bootstrapDiagnostics (messages : List String) : List Output :=
  messages.map fun message => .diagnostic { level := "warn", code := "bootstrap.diagnostic", message := message } none

/-- The credential state a bootstrap starts with. -/
def initialCredential (descriptor : CredentialRefreshDescriptor) : CredentialState :=
  { descriptor := descriptor, baselineFingerprint := none, pendingFingerprint := none,
    revision := descriptor.revision, sampling := true, updatePending := false, enabled := true }

/-- The state after a bootstrap, before the ready snapshot. -/
def bootstrapped (s : State) (startRecordId : String) (completion : WorkerBootstrapCompletion) : State :=
  { s with
    phase := match s.phase with
      | .draining reason exit _ => .draining reason exit none
      | _ => .readying startRecordId completion.session.proposedTurnRecordId
          completion.session.acceptedTurnRecordId
    session := some completion.session
    inputQueue := enqueueInputs s.inputQueue
      (completion.pendingInputs.filter (·.sequence > s.lastSequenceConsumed))
    credential := match s.phase with
      | .draining _ _ _ => none
      | _ => completion.credentialRefresh.map initialCredential }

/-- The facts of a finished bootstrap. -/
def bootstrappedFacts (completion : WorkerBootstrapCompletion) : List Output :=
  bootstrapDiagnostics completion.diagnostics ++
    [.fact (.bootstrapProgress "loading_resources"), .fact (.bootstrapProgress "preparing_turn"),
      .fact (.ready completion.readyPayload)]

/-- The best-effort snapshot of a ready worker. -/
def beginReadySnapshot (next : State) (session : PreparedWorkerSession) : Reduce :=
  if resolveWorkerSnapshotPolicy .afterWorkerReady session.kind session.piAvailable then
    beginSnapshot next .readySnapshot (sessionSnapshotSource session)
  else .ok ⟨next, []⟩

/-- `bootstrap_succeeded`. -/
def onBootstrapSucceeded (s : State) (startRecordId : String) (completion : WorkerBootstrapCompletion) :
    Reduce := do
  if !matchesBootstrap s startRecordId then return ⟨s, []⟩
  let next := bootstrapped s startRecordId completion
  let facts := bootstrappedFacts completion
  match s.phase with
  | .draining _ _ _ => return ⟨next, facts⟩
  | _ =>
    let session := completion.session
    let ready ← beginReadySnapshot next session
    let armed := armTimer ready.state .heartbeat session.heartbeatIntervalMs startRecordId
    return ⟨armed.state, facts ++ ready.outputs ++ armed.outputs ++
      completion.credentialRefresh.toList.map fun d => .command (.sampleCredentials d true)⟩

/-- `bootstrap_failed`. -/
def onBootstrapFailed (s : State) (startRecordId : String) (error : Thrown) (payload : WorkerStartPayload) :
    Reduce :=
  if !matchesBootstrap s startRecordId then .ok ⟨s, []⟩
  else match s.phase with
    | .draining _ _ _ => .ok ⟨finishDrainingOperation s, []⟩
    | _ => failureOutputs s (.bootstrap error payload)

/-- The session after its activation: an LLM session has Pi available. -/
def activatedSession (session : PreparedWorkerSession) : PreparedWorkerSession :=
  match session.runtime with
  | .automatic => session
  | .llm _ _ => { session with runtime := .llm true session.processSnapshot.selectedTurnModelProfileId }

/-- `worker.handle_ready`, for an LLM session that is not draining. -/
def handleReady (s : State) : List Output :=
  match s.phase, s.session with
  | .draining _ _ _, _ | _, none => []
  | _, some session => if session.kind == .llm then [.handleReady session.treeFile session.workspaceRoot] else []

/-- `activation_succeeded`. -/
def onActivationSucceeded (s : State) (startRecordId turnRecordId : String) (diagnostics : List String) :
    Reduction :=
  if !matchesActivation s startRecordId turnRecordId then ⟨s, []⟩
  else
    let phase := match s.phase with
      | .draining reason exit _ => Phase.draining reason exit none
      | _ => .active startRecordId turnRecordId .pending
    ⟨{ s with phase := phase, session := s.session.map activatedSession },
      bootstrapDiagnostics diagnostics ++ handleReady s⟩

/-- `activation_failed` and `turn_defect`, for a completion that `matched`. -/
def onOperationFailed (s : State) (matched : Bool) (error : Thrown) : Reduce :=
  if !matched then .ok ⟨s, []⟩
  else match s.phase with
    | .draining _ _ _ => .ok ⟨finishDrainingOperation s, []⟩
    | _ => failureOutputs s (.dispatch error .busy (failureContext s))

/-- `inputs_delivered`. -/
def onInputsDelivered (s : State) (headSequence : Nat) (delivered : List DeliveredInput) (info : Option Json) :
    Reduction :=
  if s.deliveryHeadSequence != some headSequence || (s.inputQueue.head?.map (·.sequence)) != some headSequence then
    ⟨s, []⟩
  else
    let ids := delivered.map (·.inputId)
    ⟨{ s with
        inputQueue := s.inputQueue.filter (fun item => !ids.contains item.inputId)
        lastSequenceConsumed := (delivered.map (·.sequence)).foldl max s.lastSequenceConsumed
        deliveryHeadSequence := none },
      delivered.map fun d => inputConsumedFact d.inputId d.sequence (.delivered d.deliveryMode) info⟩

/-- `input_delivery_failed`. -/
def onInputDeliveryFailed (s : State) (headSequence : Nat) (error : Thrown) : Reduce :=
  if s.deliveryHeadSequence != some headSequence then .ok ⟨s, []⟩
  else
    let next := { s with deliveryHeadSequence := none }
    match s.phase with
    | .draining _ _ _ => .ok ⟨next, []⟩
    | _ => failureOutputs next (.dispatch error (currentStateName s) (failureContext s))

/-- An active phase whose turn is completed; any other phase as it is. -/
def completedPhase : Phase → Phase
  | .active startRecordId turnRecordId _ => .active startRecordId turnRecordId .completed
  | phase => phase

/-- A completed turn before its result is published: the applied inputs have left the queue. -/
def turnDone (s : State) (result : SelectedTurnExecutionResult) : Reduction :=
  let applied := removeAppliedTargeted (finishDrainingOperation s) result.appliedTargetedInputs
  ⟨{ applied.state with phase := completedPhase applied.state.phase }, applied.outputs⟩

/-- The terminal fact of a turn outcome. -/
def outcomeTerminal (turnId outcome : String) (params : Json) (info : TurnExecutionMeta) : PendingTerminal where
  fact := .outcome
    { turnRecordId := info.turnRecordId, turnId := turnId, turnType := info.turnType, outcome := outcome,
      params := params, pathType := info.pathType, forkPiEntryId := info.forkPiEntryId,
      resultPiEntryId := info.resultPiEntryId, turnResultMarkdown := info.turnResultMarkdown,
      resultSummary := info.resultSummary, rootEntryId := info.rootEntryId }
  park := none
  correlation :=
    { turnRecordId := info.turnRecordId, turnId := turnId, turnType := some info.turnType,
      pathType := some info.pathType, forkPiEntryId := info.forkPiEntryId,
      resultPiEntryId := info.resultPiEntryId }

/-- The terminal fact of a failed turn. -/
def failedTerminal (s : State) (failure : TurnExecutionFailure) : Except String PendingTerminal :=
  match (normalizeWorkerFailure (.turn failure.failure failure.correlation (failureContext s))).terminal with
  | .turnFailed payload park =>
    .ok { fact := .failed payload, park := some park, correlation := failure.correlation }
  | _ => .error "Turn failure policy did not produce a turn failure"

/-- The publication of a terminal fact: at once for an automatic turn, after its
mandatory snapshot for an LLM turn. `s` is the state before the completion. -/
def publishTerminal (s next : State) (point : SnapshotPoint) (turnRecordId : String)
    (pending : PendingTerminal) : Reduce :=
  match s.session with
  | none => .ok ⟨next, []⟩
  | some session =>
    match session.kind with
    | .automatic => .ok (publishTerminalAndAwaitAcknowledgement next pending)
    | .llm =>
      if resolveWorkerSnapshotPolicy point session.kind session.piAvailable then
        beginSnapshot next (.terminalSnapshot point turnRecordId pending) (sessionSnapshotSource session)
      else .error "LLM terminal snapshot policy unexpectedly skipped upload"

/-- `turn_completed`. -/
def onTurnCompleted (s : State) (turnRecordId : String) (result : SelectedTurnExecutionResult) : Reduce := do
  if !matchesTurn s turnRecordId then return ⟨s, []⟩
  let done := turnDone s result
  match result.result with
  | .parked reason =>
    let parked : Output := .fact (.lifecycleParked ⟨s.session.map (·.selectedTurnId), reason, none⟩)
    return ⟨done.state, done.outputs ++ [parked]⟩
  | .outcome turnId outcome params info =>
    let published ← publishTerminal s done.state .beforeTurnOutcome turnRecordId
      (outcomeTerminal turnId outcome params info)
    return ⟨published.state, done.outputs ++ published.outputs⟩
  | .failed failure =>
    let pending ← failedTerminal s failure
    let published ← publishTerminal s done.state .beforeTurnFailed turnRecordId pending
    return ⟨published.state, done.outputs ++ published.outputs⟩

/-- The last step of `cleaning`: the resources of a worker whose publication stage is over. -/
def cleanResources (s : State) (publication : Publication) (thrown : String) : Reduce :=
  match s.phase with
  | .cleaning reason exit .publication =>
    .ok ⟨{ s with phase := .cleaning reason exit .resources, publication := publication },
      [.command .cleanup]⟩
  | _ => .error thrown

/-- `snapshot_succeeded` and `snapshot_failed` (with its `error`). -/
def onSnapshotCompleted (s : State) (point : SnapshotPoint) (turnRecordId : Option String)
    (error : Option Thrown) : Reduce :=
  if !snapshotMatches s point turnRecordId then .ok ⟨s, []⟩
  else
    let completion := if error.isNone then "completed" else "failed"
    let cleared := { s with publication := .none }
    match s.publication with
    | .readySnapshot => .ok ⟨cleared, []⟩
    | .terminalSnapshot _ _ terminal =>
      match error with
      | none => .ok (publishTerminalAndAwaitAcknowledgement s terminal)
      | some error => failureOutputs cleared (.mandatorySnapshot error point terminal.correlation (failureContext s))
    | .cleanupSnapshot =>
      match s.phase, error with
      | .cleaning _ _ .publication, some error => failureOutputs cleared (.cleanup error (failureContext s))
      | _, _ => cleanResources s .none s!"Cleanup snapshot {completion} outside cleanup publication"
    | .fatalSnapshot fatal .exit => .ok (finishFatal s fatal)
    | .fatalSnapshot fatal .cleanup =>
      cleanResources s (.fatalPendingCleanup fatal) s!"Fatal snapshot {completion} outside cleanup publication"
    | _ => .ok ⟨s, []⟩

/-- `timer_fired`. -/
def onTimerFired (s : State) (name : TimerName) (correlation : String) : Reduction :=
  if s.timers.get name != some correlation then ⟨s, []⟩
  else
    let next := { s with timers := s.timers.set name none }
    match name with
    | .heartbeat =>
      match s.session with
      | some session =>
        let armed := armTimer next .heartbeat session.heartbeatIntervalMs correlation
        ⟨armed.state, heartbeatFact s session :: armed.outputs⟩
      | none => ⟨next, []⟩
    | .acceptanceRetry =>
      match s.phase with
      | .waitingForAcceptance startRecordId proposedTurnRecordId =>
        let armed := armTimer next .acceptanceRetry 1000 correlation
        ⟨armed.state, .fact (.turnStarted startRecordId proposedTurnRecordId) :: armed.outputs⟩
      | _ => ⟨next, []⟩
    | .terminalAck =>
      match s.publication with
      | .terminalPendingAck terminal =>
        if terminal.correlation.turnRecordId == correlation then
          publishTerminalAndAwaitAcknowledgement next terminal
        else ⟨next, []⟩
      | _ => ⟨next, []⟩
    | .credentialPoll =>
      match s.credential with
      | some credential =>
        if credential.enabled && !credential.sampling && !credential.updatePending then
          ⟨{ next with credential := some { credential with sampling := true } },
            [.command (.sampleCredentials credential.descriptor false)]⟩
        else ⟨next, []⟩
      | none => ⟨next, []⟩

/-- `credential_sampled`. -/
def onCredentialSampled (s : State) (providerId : String) (values : Json) (fingerprint : String) : Reduction :=
  match s.credential with
  | none => ⟨s, []⟩
  | some credential =>
    if !credential.sampling || credential.descriptor.providerId != providerId then ⟨s, []⟩
    else if credential.baselineFingerprint.all (· == fingerprint) then
      let sampled :=
        { credential with
          baselineFingerprint := credential.baselineFingerprint.or (some fingerprint), sampling := false }
      armTimer { s with credential := some sampled } .credentialPoll 500 providerId
    else
      let changed :=
        { credential with sampling := false, updatePending := true, pendingFingerprint := some fingerprint }
      ⟨{ s with credential := some changed }, [.fact (.credentialUpdate providerId credential.revision values)]⟩

/-- `error instanceof Error ? error.message : String(error)`. -/
def thrownText : Thrown → String
  | .turnExecution error _ _ => error.message
  | .other isError message text _ _ _ => if isError then message.getD text else text

/-- `credential_sample_failed`. -/
def onCredentialSampleFailed (s : State) (providerId : String) (error : Thrown) : Reduction :=
  match s.credential with
  | none => ⟨s, []⟩
  | some credential =>
    if !credential.sampling || credential.descriptor.providerId != providerId then ⟨s, []⟩
    else
      let armed := armTimer { s with credential := some { credential with sampling := false } }
        .credentialPoll 500 providerId
      let refreshFailed : Output :=
        .diagnostic { level := "warn", code := "credential.refresh_failed", message := thrownText error } none
      ⟨armed.state, refreshFailed :: armed.outputs⟩

/-- `cleanup_succeeded`. -/
def onCleanupSucceeded (s : State) : Reduction :=
  match s.phase with
  | .cleaning _ exitAfterCleanup .resources =>
    match s.publication with
    | .fatalPendingCleanup fatal => finishFatal s fatal
    | _ =>
      ⟨{ s with phase := .exited, session := none, inputQueue := [] },
        [.fact (.cleanupCompleted [] []), .command .closeTransport] ++
          if exitAfterCleanup then [.command (.exit 0)] else []⟩
  | _ => ⟨s, []⟩

/-- `cleanup_failed`. -/
def onCleanupFailed (s : State) (error : Thrown) : Reduce :=
  match s.phase with
  | .cleaning _ _ .resources => failureOutputs s (.cleanup error (failureContext s))
  | _ => .ok ⟨s, []⟩

/-- The switch of `reduceWorkerRuntime`. -/
def handle (s : State) : Event → Reduce
  | .runtimeStarted => .ok (onRuntimeStarted s)
  | .transportConnected => .ok (onTransportConnected s)
  | .transportFailed error => failureOutputs s (.transport error)
  | .serverMessage message => .ok (onServerMessage s message)
  | .stopRequested reason exitAfterCleanup => .ok (onStopRequested s reason exitAfterCleanup)
  | .operatorAbortObserved => .ok ⟨s, []⟩
  | .piTurnStarted => .ok ⟨{ s with piTurnActive := true }, []⟩
  | .piTurnEnded => .ok ⟨{ s with piTurnActive := false }, []⟩
  | .sessionTainted reason => .ok (onSessionTainted s reason)
  | .timerFired name correlation => .ok (onTimerFired s name correlation)
  | .bootstrapSucceeded startRecordId completion => onBootstrapSucceeded s startRecordId completion
  | .bootstrapFailed startRecordId error payload => onBootstrapFailed s startRecordId error payload
  | .activationSucceeded startRecordId turnRecordId diagnostics =>
    .ok (onActivationSucceeded s startRecordId turnRecordId diagnostics)
  | .activationFailed startRecordId turnRecordId error =>
    onOperationFailed s (matchesActivation s startRecordId turnRecordId) error
  | .inputsDelivered headSequence delivered info => .ok (onInputsDelivered s headSequence delivered info)
  | .inputDeliveryFailed headSequence error => onInputDeliveryFailed s headSequence error
  | .turnCompleted turnRecordId result => onTurnCompleted s turnRecordId result
  | .turnDefect turnRecordId error => onOperationFailed s (matchesTurn s turnRecordId) error
  | .snapshotSucceeded point turnRecordId => onSnapshotCompleted s point turnRecordId none
  | .snapshotFailed point turnRecordId error => onSnapshotCompleted s point turnRecordId (some error)
  | .credentialSampled providerId values fingerprint =>
    .ok (onCredentialSampled s providerId values fingerprint)
  | .credentialSampleFailed providerId error => .ok (onCredentialSampleFailed s providerId error)
  | .cleanupSucceeded => .ok (onCleanupSucceeded s)
  | .cleanupFailed error => onCleanupFailed s error
  | .invariantFailed error => failureOutputs s (.dispatch error (currentStateName s) (failureContext s))

/-- `event.kind`; a stop message is reduced as the stop request it stands for. -/
def Event.kind : Event → String
  | .runtimeStarted => "runtime_started"
  | .transportConnected => "transport_connected"
  | .transportFailed _ => "transport_failed"
  | .serverMessage (.stop _) => "stop_requested"
  | .serverMessage _ => "server_message"
  | .stopRequested _ _ => "stop_requested"
  | .operatorAbortObserved => "operator_abort_observed"
  | .piTurnStarted => "pi_turn_started"
  | .piTurnEnded => "pi_turn_ended"
  | .sessionTainted _ => "session_tainted"
  | .timerFired _ _ => "timer_fired"
  | .bootstrapSucceeded _ _ => "bootstrap_succeeded"
  | .bootstrapFailed _ _ _ => "bootstrap_failed"
  | .activationSucceeded _ _ _ => "activation_succeeded"
  | .activationFailed _ _ _ => "activation_failed"
  | .inputsDelivered _ _ _ => "inputs_delivered"
  | .inputDeliveryFailed _ _ => "input_delivery_failed"
  | .turnCompleted _ _ => "turn_completed"
  | .turnDefect _ _ => "turn_defect"
  | .snapshotSucceeded _ _ => "snapshot_succeeded"
  | .snapshotFailed _ _ _ => "snapshot_failed"
  | .credentialSampled _ _ _ => "credential_sampled"
  | .credentialSampleFailed _ _ => "credential_sample_failed"
  | .cleanupSucceeded => "cleanup_succeeded"
  | .cleanupFailed _ => "cleanup_failed"
  | .invariantFailed _ => "invariant_failed"

/-- The report `withReportedTransition` adds. -/
def reportedTransition (previous next : State) (event : Event) : List Output :=
  let old := deriveReportedWorkerState previous
  let new := deriveReportedWorkerState next
  if old != new && next.phase != .exited then [.fact (.state old new event.kind)] else []

/-- `reduceWorkerRuntime`. -/
def reduceWorkerRuntime (s : State) (event : Event) : Reduce := do
  if s.phase == .exited && event != .runtimeStarted then return ⟨s, []⟩
  let handled ← handle s event
  let advanced ← advance handled.state
  return ⟨advanced.state,
    handled.outputs ++ advanced.outputs ++ reportedTransition s advanced.state event⟩

end Leitwerk.Worker
