import Leitwerk.Worker.Reducer
import Leitwerk.Lib.Runs
/-!
# What the proofs about the reducer follow

The reducer's state and outputs without what no safety property is about: the
credential refresh, Pi's own turn flag, three of the four timers, and the
outputs that only report. `CoreStep` says what one event does to this core, one
case for each thing an event can do; `Worker.Refines` proves that the reducer
does nothing else. An invariant is then a case analysis of `CoreStep`.
-/

namespace Leitwerk.Worker

/-! ## The tracked part of a state and of its outputs -/

/-- A state with the parts blanked that no property is about. -/
def State.core (s : State) : State :=
  { s with piTurnActive := false, credential := none, timers := { terminalAck := s.timers.terminalAck } }

/-- The outputs the properties are about: the commands that are answered, and
the facts that settle a turn, an input or the worker. -/
def Output.tracked : Output → Bool
  | .command (.bootstrap _ _) | .command (.activate _ _ _) | .command (.deliverInputs _ _ _) => true
  | .command (.executeTurn _ _ _) | .command (.uploadSnapshot _ _) | .command .cleanup => true
  | .fact (.terminal _) | .fact (.inputConsumed _ _ _ _) | .fact (.failed _) => true
  | _ => false

/-- The tracked outputs, in order. -/
def tracked (os : List Output) : List Output := os.filter (·.tracked)

@[simp] theorem core_phase (s : State) : s.core.phase = s.phase := rfl
@[simp] theorem core_session (s : State) : s.core.session = s.session := rfl
@[simp] theorem core_inputQueue (s : State) : s.core.inputQueue = s.inputQueue := rfl
@[simp] theorem core_lastSequenceConsumed (s : State) : s.core.lastSequenceConsumed = s.lastSequenceConsumed := rfl
@[simp] theorem core_sessionTainted (s : State) : s.core.sessionTainted = s.sessionTainted := rfl
@[simp] theorem core_deliveryHeadSequence (s : State) : s.core.deliveryHeadSequence = s.deliveryHeadSequence := rfl
@[simp] theorem core_publication (s : State) : s.core.publication = s.publication := rfl
@[simp] theorem core_terminalAck (s : State) : s.core.timers.terminalAck = s.timers.terminalAck := rfl

@[simp] theorem tracked_nil : tracked [] = [] := rfl

@[simp] theorem tracked_append (a b : List Output) : tracked (a ++ b) = tracked a ++ tracked b := by
  simp [tracked]

@[simp] theorem tracked_cons (o : Output) (os : List Output) :
    tracked (o :: os) = (if o.tracked then [o] else []) ++ tracked os := by
  unfold tracked
  rw [List.filter_cons]
  split <;> simp

/-! ## Failures -/

/-- The upload of a fatal snapshot. -/
def fatalUpload (source : SnapshotSource) : Output :=
  .command (.uploadSnapshot ⟨.beforeWorkerFailed, none, false⟩ source)

/-- A fatal failure takes a snapshot first if there is a source for it and no
publication is active; otherwise the worker fails at once. -/
inductive Fatal (s : State) (source : Option SnapshotSource) : List Output → State → Prop
  | snapshot {src fatal} : source = some src → s.publication = .none →
      Fatal s source [fatalUpload src] { s with publication := .fatalSnapshot fatal (afterFatalSnapshot s) }
  | exit {fatal : PendingFatal} : source = none ∨ s.publication ≠ .none →
      Fatal s source [.fact (.failed fatal.payload)] { s with publication := .none, phase := .exited }

/-- Where a session's failures take their snapshot. -/
def State.source (s : State) : Option SnapshotSource := s.session.map sessionSnapshotSource

/-- A dispatch failure parks the process, which changes nothing here, or is fatal. -/
inductive Dispatch (s : State) : List Output → State → Prop
  | parked : parks (failureContext s) = true → Dispatch s [] s
  | fatal {os t} : parks (failureContext s) = false → Fatal s s.source os t → Dispatch s os t

/-! ## Events that change nothing -/

/-- A phase in which a stop request has been taken. -/
def Phase.stopping : Phase → Bool
  | .draining _ _ _ | .cleaning _ _ _ => true
  | _ => false

/-- The acceptance a state waits for. -/
def awaitsAcceptance (s : State) (startRecordId : String) : Bool :=
  match s.phase with
  | .readying id _ _ => id == startRecordId
  | .waitingForAcceptance id _ => id == startRecordId && s.session.isSome
  | _ => false

/-- The acknowledgement a state waits for. -/
def awaitsAck (s : State) (turnRecordId : String) : Bool :=
  match s.publication with
  | .terminalPendingAck terminal => terminal.correlation.turnRecordId == turnRecordId
  | _ => false

/-- A completion of the in-flight delivery that also finds its inputs at the head of the queue. -/
def deliveryMatches (s : State) (headSequence : Nat) : Bool :=
  s.deliveryHeadSequence == some headSequence && s.inputQueue.head?.map (·.sequence) == some headSequence

/-- The last stage of a cleanup. -/
def Phase.cleaningResources : Phase → Bool
  | .cleaning _ _ .resources => true
  | _ => false

/-- An event that leaves the core as it is and emits nothing tracked: a
duplicate, a stale completion, or an event about the untracked parts. -/
def Ignored (s : State) : Event → Prop
  | .runtimeStarted => s.phase ≠ .init
  | .transportConnected => ∀ terminal, s.publication ≠ .terminalPendingAck terminal
  | .serverMessage (.start _) => s.phase ≠ .waitingForStart
  | .serverMessage (.stop _) | .stopRequested _ _ => s.phase.stopping = true
  | .serverMessage (.inputBatch _) => s.phase = .init ∨ s.phase = .waitingForStart
  | .serverMessage (.turnStartAccepted startRecordId _) => awaitsAcceptance s startRecordId = false
  | .serverMessage (.turnTerminalRecorded turnRecordId) => awaitsAck s turnRecordId = false
  | .serverMessage _ | .operatorAbortObserved | .piTurnStarted | .piTurnEnded => True
  | .credentialSampled _ _ _ | .credentialSampleFailed _ _ => True
  | .timerFired name correlation => name = .terminalAck → s.timers.terminalAck ≠ some correlation
  | .bootstrapSucceeded startRecordId _ | .bootstrapFailed startRecordId _ _ =>
    matchesBootstrap s startRecordId = false
  | .activationSucceeded startRecordId turnRecordId _ | .activationFailed startRecordId turnRecordId _ =>
    matchesActivation s startRecordId turnRecordId = false
  | .inputsDelivered headSequence _ _ => deliveryMatches s headSequence = false
  | .inputDeliveryFailed headSequence _ => s.deliveryHeadSequence ≠ some headSequence
  | .turnCompleted turnRecordId _ | .turnDefect turnRecordId _ => matchesTurn s turnRecordId = false
  | .snapshotSucceeded point turnRecordId | .snapshotFailed point turnRecordId _ =>
    snapshotMatches s point turnRecordId = false
  | .cleanupSucceeded | .cleanupFailed _ => s.phase.cleaningResources = false
  | .transportFailed _ | .sessionTainted _ | .invariantFailed _ => False

/-- A stop request, whoever asks. -/
def Event.isStop : Event → Bool
  | .serverMessage (.stop _) | .stopRequested _ _ => true
  | _ => false

/-- A phase in which inputs are handled, with no delivery and no publication active. -/
def handlesInputs (s : State) : Bool :=
  s.deliveryHeadSequence.isNone && s.publication == .none &&
    match s.phase with
    | .active _ _ _ => true
    | .waitingForAcceptance _ _ => s.session.all (·.kind == .automatic)
    | _ => false

/-- A completion of the snapshot of a point and a turn record. -/
def Event.completesSnapshot (point : SnapshotPoint) (turnRecordId : Option String) : Event → Bool
  | .snapshotSucceeded p record | .snapshotFailed p record _ => p == point && record == turnRecordId
  | _ => false

/-! ## What an event does -/

/-- The terminal fact pending after a completed turn. -/
def Reports (s : State) (result : TurnResult) (pending : PendingTerminal) : Prop :=
  match result with
  | .outcome turnId outcome params info => pending = outcomeTerminal turnId outcome params info
  | .failed failure => failedTerminal s failure = .ok pending
  | .parked _ => False

/-- The snapshot point of a turn result. -/
def TurnResult.point : TurnResult → SnapshotPoint
  | .outcome _ _ _ _ => .beforeTurnOutcome
  | _ => .beforeTurnFailed

/-- The state that has published `terminal` and awaits its acknowledgement. -/
def State.awaiting (s : State) (terminal : PendingTerminal) : State :=
  { s with
    publication := .terminalPendingAck terminal
    timers := s.timers.set .terminalAck (some terminal.correlation.turnRecordId) }

/-- The fact of a terminal, as an output. -/
def PendingTerminal.output (terminal : PendingTerminal) : Output := .fact (.terminal terminal.fact)

/-- The branches of the switch, without the ignored events. -/
inductive Handled (s : State) : Event → List Output → State → Prop
  | started : s.phase = .init → Handled s .runtimeStarted [] { s with phase := .waitingForStart }
  | reconnected {terminal} : s.publication = .terminalPendingAck terminal →
      Handled s .transportConnected [terminal.output] (s.awaiting terminal)
  | transportLost {error} : Handled s (.transportFailed error) [] { s with publication := .none, phase := .exited }
  | stopped {e reason exit} : e.isStop = true → s.phase.stopping = false →
      Handled s e [] { s with phase := .draining reason exit (drainingOperation s), timers := {} }
  | tainted {reason} : Handled s (.sessionTainted reason) [] { s with sessionTainted := true }
  | start {payload} : s.phase = .waitingForStart →
      Handled s (.serverMessage (.start payload)) [.command (.bootstrap payload.startRecordId payload)]
        { s with phase := .bootstrapping payload.startRecordId payload.proposedTurnRecordId, sessionTainted := false }
  | batch {inputs} : s.phase ≠ .init → s.phase ≠ .waitingForStart →
      Handled s (.serverMessage (.inputBatch inputs)) [] (onInputBatch s inputs).state
  | acceptedEarly {startId proposed accepted record} : s.phase = .readying startId proposed accepted →
      Handled s (.serverMessage (.turnStartAccepted startId record)) []
        { s with phase := .readying startId proposed (some record) }
  | accepted {startId proposed record session} : s.phase = .waitingForAcceptance startId proposed →
      s.session = some session →
      Handled s (.serverMessage (.turnStartAccepted startId record)) [.command (.activate startId record session)]
        { s with phase := .activating startId record }
  | acknowledged {terminal} : s.publication = .terminalPendingAck terminal →
      Handled s (.serverMessage (.turnTerminalRecorded terminal.correlation.turnRecordId)) []
        { s with publication := .none, timers := s.timers.set .terminalAck none }
  | bootstrapDrained {startId completion reason exit proposed} :
      s.phase = .draining reason exit (some (.bootstrap startId proposed)) →
      Handled s (.bootstrapSucceeded startId completion) [] (bootstrapped s startId completion).core
  | bootstrapReadied {startId completion proposed os p} : s.phase = .bootstrapping startId proposed →
      (p = s.publication ∧ os = [] ∨ s.publication = .none ∧ p = .readySnapshot ∧
        os = [.command (.uploadSnapshot ⟨.afterWorkerReady, none, false⟩ (sessionSnapshotSource completion.session))]) →
      Handled s (.bootstrapSucceeded startId completion) os
        { (bootstrapped s startId completion).core with publication := p }
  | bootstrapFailed {startId error payload proposed os t src} : s.phase = .bootstrapping startId proposed →
      Fatal s (some src) os t → Handled s (.bootstrapFailed startId error payload) os t
  | activated {startId record diagnostics} : s.phase = .activating startId record →
      Handled s (.activationSucceeded startId record diagnostics) []
        { s with phase := .active startId record .pending, session := s.session.map activatedSession }
  | activationDrained {startId record diagnostics reason exit} :
      s.phase = .draining reason exit (some (.activation startId record)) →
      Handled s (.activationSucceeded startId record diagnostics) []
        { s with phase := .draining reason exit none, session := s.session.map activatedSession }
  | operationDrained {e reason exit operation} : s.phase = .draining reason exit (some operation) →
      ((∃ startId proposed error payload, operation = .bootstrap startId proposed ∧
          e = .bootstrapFailed startId error payload) ∨
        (∃ startId record error, operation = .activation startId record ∧
          e = .activationFailed startId record error) ∨
        ∃ record error, operation = .turn record ∧ e = .turnDefect record error) →
      Handled s e [] { s with phase := .draining reason exit none }
  | activationFailed {startId record error os t} : s.phase = .activating startId record → Dispatch s os t →
      Handled s (.activationFailed startId record error) os t
  | turnDefect {startId record error os t} : s.phase = .active startId record .executing → Dispatch s os t →
      Handled s (.turnDefect record error) os t
  | delivered {headSequence delivered info} : deliveryMatches s headSequence = true →
      Handled s (.inputsDelivered headSequence delivered info)
        (onInputsDelivered s headSequence delivered info).outputs
        (onInputsDelivered s headSequence delivered info).state
  | deliveryDrained {headSequence error reason exit operation} : s.deliveryHeadSequence = some headSequence →
      s.phase = .draining reason exit operation →
      Handled s (.inputDeliveryFailed headSequence error) [] { s with deliveryHeadSequence := none }
  | deliveryFailed {headSequence error os t} : s.deliveryHeadSequence = some headSequence →
      (∀ reason exit operation, s.phase ≠ .draining reason exit operation) →
      Dispatch { s with deliveryHeadSequence := none } os t →
      Handled s (.inputDeliveryFailed headSequence error) os t
  | turnQuiet {record result} : matchesTurn s record = true →
      (∃ reason, result.result = .parked reason) ∨ s.session = none →
      Handled s (.turnCompleted record result) (turnDone s result).outputs (turnDone s result).state
  | turnPublished {record result pending} : matchesTurn s record = true → Reports s result.result pending →
      s.session.map (·.kind) = some .automatic →
      Handled s (.turnCompleted record result) ((turnDone s result).outputs ++ [pending.output])
        ((turnDone s result).state.awaiting pending)
  | turnSnapshot {record result pending src} : matchesTurn s record = true → Reports s result.result pending →
      s.session.map (·.kind) = some .llm → s.publication = .none →
      Handled s (.turnCompleted record result)
        ((turnDone s result).outputs ++
          [.command (.uploadSnapshot ⟨result.result.point, some record, true⟩ src)])
        { (turnDone s result).state with publication := .terminalSnapshot result.result.point record pending }
  | readyUploaded {e} : s.publication = .readySnapshot → e.completesSnapshot .afterWorkerReady none = true →
      Handled s e [] { s with publication := .none }
  | terminalUploaded {point record terminal} : s.publication = .terminalSnapshot point record terminal →
      Handled s (.snapshotSucceeded point (some record)) [terminal.output] (s.awaiting terminal)
  | terminalUploadFailed {point record terminal error payload} :
      s.publication = .terminalSnapshot point record terminal →
      payload.turnRecordId = terminal.correlation.turnRecordId →
      Handled s (.snapshotFailed point (some record) error) [.fact (.terminal (.failed payload))]
        { s with publication := .none }
  | cleanupUploaded {reason exit} : s.publication = .cleanupSnapshot → s.phase = .cleaning reason exit .publication →
      Handled s (.snapshotSucceeded .beforeCleanupCompleted none) [.command .cleanup]
        { s with publication := .none, phase := .cleaning reason exit .resources }
  | cleanupUploadFailed {reason exit error os t} : s.publication = .cleanupSnapshot →
      s.phase = .cleaning reason exit .publication → Fatal { s with publication := .none } s.source os t →
      Handled s (.snapshotFailed .beforeCleanupCompleted none error) os t
  | fatalUploaded {e fatal} : s.publication = .fatalSnapshot fatal .exit →
      e.completesSnapshot .beforeWorkerFailed none = true →
      Handled s e [.fact (.failed fatal.payload)] { s with publication := .none, phase := .exited }
  | fatalCleaning {e fatal reason exit} : s.publication = .fatalSnapshot fatal .cleanup →
      s.phase = .cleaning reason exit .publication → e.completesSnapshot .beforeWorkerFailed none = true →
      Handled s e [.command .cleanup]
        { s with publication := .fatalPendingCleanup fatal, phase := .cleaning reason exit .resources }
  | retried {terminal correlation} : s.publication = .terminalPendingAck terminal →
      s.timers.terminalAck = some correlation → terminal.correlation.turnRecordId = correlation →
      Handled s (.timerFired .terminalAck correlation) [terminal.output] (s.awaiting terminal)
  | retryLapsed {correlation} : awaitsAck s correlation = false → s.timers.terminalAck = some correlation →
      Handled s (.timerFired .terminalAck correlation) [] { s with timers := s.timers.set .terminalAck none }
  | cleanedFatal {fatal} : s.phase.cleaningResources = true → s.publication = .fatalPendingCleanup fatal →
      Handled s .cleanupSucceeded [.fact (.failed fatal.payload)] { s with publication := .none, phase := .exited }
  | cleaned : s.phase.cleaningResources = true → (∀ fatal, s.publication ≠ .fatalPendingCleanup fatal) →
      Handled s .cleanupSucceeded [] { s with phase := .exited, session := none, inputQueue := [] }
  | cleanupFailed {error os t} : s.phase.cleaningResources = true → Fatal s s.source os t →
      Handled s (.cleanupFailed error) os t
  | invariantFailed {error os t} : Dispatch s os t → Handled s (.invariantFailed error) os t

/-! ## What `advance` does next -/

/-- The branches of `advance`. Whether a ready worker proceeds also depends on
the credential refresh, which is not tracked. -/
inductive Advanced : State → List Output → State → Prop
  | rest {s} : noActiveWork s = false → Advanced s [] s
  | activate {s startId proposed record session} : s.phase = .readying startId proposed (some record) →
      s.publication = .none → s.session = some session →
      Advanced s [.command (.activate startId record session)] { s with phase := .activating startId record }
  | ready {s os t startId proposed accepted} : s.phase = .readying startId proposed accepted →
      s.publication = .none → Advanced { s with phase := .waitingForAcceptance startId proposed } os t →
      Advanced s os t
  | cleanupSnapshot {s reason exit src} : s.phase = .draining reason exit none → s.deliveryHeadSequence = none →
      s.publication = .none →
      Advanced s [.command (.uploadSnapshot ⟨.beforeCleanupCompleted, none, true⟩ src)]
        { s with phase := .cleaning reason exit .publication, publication := .cleanupSnapshot }
  | cleanup {s reason exit} : s.phase = .draining reason exit none → s.deliveryHeadSequence = none →
      s.publication = .none →
      Advanced s [.command .cleanup] { s with phase := .cleaning reason exit .resources }
  | ignore {s os t inputs start} : handlesInputs s = true →
      decideWorkerInputEffect s.inputQueue s.sessionTainted (s.session.any (·.piAvailable)) start =
        .consumeIgnored inputs →
      Advanced (consumeIgnored s inputs).state os t → Advanced s ((consumeIgnored s inputs).outputs ++ os) t
  | deliver {s inputs start active} : handlesInputs s = true →
      decideWorkerInputEffect s.inputQueue s.sessionTainted (s.session.any (·.piAvailable)) start =
        .deliver inputs →
      Advanced s [.command (.deliverInputs ((inputs.head?.map (·.sequence)).getD 0) inputs active)]
        { s with deliveryHeadSequence := some ((inputs.head?.map (·.sequence)).getD 0) }
  | execute {s inputs session startId record} : handlesInputs s = true →
      s.phase = .active startId record .pending → s.session = some session →
      decideWorkerInputEffect s.inputQueue s.sessionTainted (s.session.any (·.piAvailable)) true =
        .startTurn inputs →
      Advanced s [.command (.executeTurn record inputs session)]
        { s with phase := .active startId record .executing }

/-! ## A step -/

/-- Where the reducer throws. -/
def Throws (s : State) : Event → Prop
  | .bootstrapSucceeded startRecordId completion =>
    (∃ proposed, s.phase = .bootstrapping startRecordId proposed) ∧ completion.session.kind = .llm ∧
      s.publication ≠ .none
  | .turnCompleted turnRecordId result =>
    matchesTurn s turnRecordId = true ∧ (∀ reason, result.result ≠ .parked reason) ∧
      s.session.map (·.kind) = some .llm ∧ s.publication ≠ .none
  | .snapshotSucceeded point turnRecordId | .snapshotFailed point turnRecordId _ =>
    snapshotMatches s point turnRecordId = true ∧
      (s.publication = .cleanupSnapshot ∨ ∃ fatal, s.publication = .fatalSnapshot fatal .cleanup) ∧
      ∀ reason exit, s.phase ≠ .cleaning reason exit .publication
  | _ => False

/-- The driver's step: when the reducer throws, the driver keeps the state,
processes no output and goes on with its queue. -/
def step (s : State) (e : Event) : Reduction :=
  match reduceWorkerRuntime s e with
  | .ok reduction => reduction
  | .error _ => ⟨s, []⟩

/-- The worker as a machine. -/
def WorkerStep : Runs.Step State Event Output := fun s e os t => step s e = ⟨t, os⟩

/-- One event, on the core. -/
inductive CoreStep (s : State) (e : Event) : List Output → State → Prop
  | exited : s.phase = .exited → CoreStep s e [] s
  | thrown : s.phase ≠ .exited → Throws s e → CoreStep s e [] s
  | ignored {os t} : s.phase ≠ .exited → Ignored s e → Advanced s os t → CoreStep s e os t
  | handled {os m os' t} : s.phase ≠ .exited → Handled s e os m → Advanced m os' t →
      CoreStep s e (os ++ os') t

end Leitwerk.Worker
