import Leitwerk.Worker.Types
/-!
# The failure policy

`packages/worker/src/runtime/failure-policy.ts`: every failure the worker
runtime owns is turned into a diagnostic, a stderr line and one terminal
disposition. Text lengths count characters, where the source counts UTF-16
units.
-/

namespace Leitwerk.Worker

/-- `WorkerFailureSessionContext`. -/
structure FailureSessionContext where
  selectedTurnId : Option String
  lifecycleStatus : LifecycleStatus
  snapshotSource : SnapshotSource
  deriving DecidableEq

/-- `WorkerFailure`. -/
inductive WorkerFailure where
  | bootstrap (error : Thrown) (payload : WorkerStartPayload)
  | turn (error : TurnExecutionError) (correlation : TurnFailureCorrelation)
      (session : Option FailureSessionContext)
  | mandatorySnapshot (error : Thrown) (point : SnapshotPoint) (correlation : TurnFailureCorrelation)
      (session : Option FailureSessionContext)
  | dispatch (error : Thrown) (state : StateName) (session : Option FailureSessionContext)
  | cleanup (error : Thrown) (session : Option FailureSessionContext)
  | transport (error : Thrown)
  deriving DecidableEq

/-- `WorkerFailureTerminal`. -/
inductive FailureTerminal where
  | turnFailed (payload : TurnFailedPayload) (park : LifecycleParkedPayload)
  | workerFailed (payload : WorkerFailedPayload)
  | park (payload : LifecycleParkedPayload)
  | transportLost
  deriving DecidableEq

/-- `WorkerFailureDisposition`; `snapshot` is the source of the requested
best-effort snapshot. -/
structure FailureDisposition where
  diagnostic : Option Diagnostic
  stderrMessage : String
  snapshot : Option SnapshotSource
  terminal : FailureTerminal
  exitCode : Option Nat
  deriving DecidableEq

/-- `toErrorMessage`. -/
def toErrorMessage : Thrown → String
  | .turnExecution error _ _ =>
    if nonBlank error.message then error.message
    else if error.message.isEmpty then "TurnExecutionError" else "TurnExecutionError: " ++ error.message
  | .other isError message text _ _ _ =>
    match message with
    | some m => if isError && nonBlank m then m else text
    | none => text

/-- `classifyRuntimeError`. -/
def classifyRuntimeError (error : Thrown) (fallback : ErrorClass) : ErrorClass × String :=
  match error with
  | .turnExecution e _ _ => (e.errorClass, e.message)
  | .other _ message text errorClass _ _ =>
    match errorClass.bind ErrorClass.ofString? with
    | some c =>
      (c, match message with
        | some m => if nonBlank m then m else text
        | none => text)
    | none => (fallback, toErrorMessage error)

/-- `redactSecrets`. -/
def redactSecrets (message : String) (secrets : List String) : String :=
  secrets.foldl (fun result secret =>
    if secret.isEmpty then result else result.replace secret "<redacted>") message

/-- `bounded`: at most 200 characters, the last three of them dots where text was cut. -/
def bounded (message : String) : String :=
  if message.length > 200 then String.ofList (message.toList.take 197) ++ "..." else message

/-- `errorCode`. -/
def errorCode (error : Thrown) (fallback : String) : String :=
  match error.code with
  | some code => if nonBlank code then trim code else fallback
  | none => fallback

/-- The summary of a failed mandatory snapshot, prefixed once. -/
def mandatorySnapshotSummary (point : SnapshotPoint) (message : String) : String :=
  let label := "Mandatory session snapshot upload failed before " ++ point.text ++ ": "
  if label.toList.isPrefixOf message.toList then message else label ++ message

/-- The failed turn both a turn failure and a failed mandatory snapshot report. -/
def turnFailedPayload (correlation : TurnFailureCorrelation) (summary : String) (errorClass : ErrorClass)
    (turnError : Option TurnExecutionError) (details : Option FailureDetails) : TurnFailedPayload where
  turnRecordId := correlation.turnRecordId
  turnId := correlation.turnId
  turnType := correlation.turnType.getD .llm
  pathType := correlation.pathType.getD .primary
  errorSummary := summary
  errorClass := errorClass
  forkPiEntryId := correlation.forkPiEntryId
  resultPiEntryId := correlation.resultPiEntryId
  failureCode := turnError.bind (·.failureCode)
  failureDetails := details
  recoveryContext := turnError.bind (·.recoveryContext)

/-- The park that accompanies a failed turn. -/
def turnFailedPark (correlation : TurnFailureCorrelation) (summary : String) (errorClass : ErrorClass)
    (session : Option FailureSessionContext) : LifecycleParkedPayload where
  selectedTurnId := (session.bind (·.selectedTurnId)).or (some correlation.turnId)
  reason := some summary
  errorClass := some errorClass

/-- A dispatch or cleanup failure: a dispatch failure of a process that is not
in error parks it, every other one ends the worker. -/
def normalizeRuntimeFailure (isCleanup : Bool) (error : Thrown) (state : StateName)
    (session : Option FailureSessionContext) : FailureDisposition :=
  let classified := classifyRuntimeError error .infrastructure
  let message := classified.2
  let summary := (if isCleanup then "Worker cleanup failed" else "Worker dispatch failed") ++ ": " ++ message
  let diagnostic : Diagnostic :=
    { level := "error", code := if isCleanup then "cleanup.failed" else "runtime.dispatch_failed",
      message := summary, errorClass := some classified.1 }
  let ended : FailureDisposition :=
    { diagnostic := some diagnostic, stderrMessage := summary,
      snapshot := session.map (·.snapshotSource),
      terminal := .workerFailed
        { state := if isCleanup then "cleanup" else state.text,
          errorCode := if isCleanup then "cleanup_failed" else "runtime_dispatch_failed",
          message := bounded message, errorClass := classified.1,
          selectedTurnId := session.bind (·.selectedTurnId) },
      exitCode := some 1 }
  match session with
  | some s =>
    if !isCleanup && s.lifecycleStatus != .error then
      { diagnostic := some diagnostic, stderrMessage := message, snapshot := none,
        terminal := .park ⟨s.selectedTurnId, some message, some classified.1⟩, exitCode := none }
    else ended
  | none => ended

/-- `normalizeWorkerFailure`. -/
def normalizeWorkerFailure : WorkerFailure → FailureDisposition
  | .transport error =>
    { diagnostic := none, stderrMessage := (classifyRuntimeError error .infrastructure).2, snapshot := none,
      terminal := .transportLost, exitCode := some 1 }
  | .turn error correlation session =>
    let payload := turnFailedPayload correlation error.message error.errorClass (some error)
      (error.failureDetails.map .record)
    { diagnostic := some
        { level := "error", code := "turn.execution_failed",
          message := "Turn execution failed: " ++ error.message, errorClass := some error.errorClass,
          turnRecordId := some correlation.turnRecordId, turnId := some correlation.turnId },
      stderrMessage := error.message, snapshot := none,
      terminal := .turnFailed payload (turnFailedPark correlation error.message error.errorClass session),
      exitCode := none }
  | .mandatorySnapshot error point correlation session =>
    let classified := classifyRuntimeError error .infrastructure
    let summary := mandatorySnapshotSummary point classified.2
    let details := FailureDetails.snapshot point.text error.transport
    { diagnostic := some
        { level := "error", code := "session_snapshot.upload_failed", message := summary,
          errorClass := some classified.1, turnRecordId := some correlation.turnRecordId,
          turnId := some correlation.turnId, details := some details },
      stderrMessage := summary, snapshot := none,
      terminal := .turnFailed (turnFailedPayload correlation summary classified.1 none (some details))
        (turnFailedPark correlation summary classified.1 session),
      exitCode := none }
  | .bootstrap error payload =>
    let classified := classifyRuntimeError error .infrastructure
    let summary := "Worker bootstrap failed: " ++ redactSecrets classified.2 payload.secretValues
    { diagnostic := some
        { level := "error", code := "bootstrap.failed", message := summary,
          errorClass := some .infrastructure },
      stderrMessage := summary,
      snapshot := some ⟨payload.bootstrapKind, payload.primaryTreeFile⟩,
      terminal := .workerFailed
        { state := "bootstrapping", errorCode := errorCode error "bootstrap_failed",
          message := bounded summary, errorClass := .infrastructure,
          selectedTurnId := payload.selectedTurnId },
      exitCode := some 1 }
  | .dispatch error state session => normalizeRuntimeFailure false error state session
  | .cleanup error session => normalizeRuntimeFailure true error .cleanup session

/-! ## What each failure ends in -/

/-- A dispatch failure parks the process unless it has no session or is in error. -/
def parks (session : Option FailureSessionContext) : Bool :=
  match session with
  | some s => s.lifecycleStatus != .error
  | none => false

theorem dispatch_parks (error : Thrown) (state : StateName) {session : Option FailureSessionContext}
    (h : parks session = true) :
    ∃ payload, (normalizeWorkerFailure (.dispatch error state session)).terminal = .park payload := by
  obtain _ | s := session
  · cases h
  · refine ⟨⟨s.selectedTurnId, some (classifyRuntimeError error .infrastructure).2,
      some (classifyRuntimeError error .infrastructure).1⟩, ?_⟩
    simp only [parks] at h
    simp [normalizeWorkerFailure, normalizeRuntimeFailure, h]

theorem dispatch_fails (error : Thrown) (state : StateName) {session : Option FailureSessionContext}
    (h : parks session = false) :
    ∃ payload, (normalizeWorkerFailure (.dispatch error state session)).terminal = .workerFailed payload ∧
      (normalizeWorkerFailure (.dispatch error state session)).snapshot = session.map (·.snapshotSource) ∧
      (normalizeWorkerFailure (.dispatch error state session)).exitCode = some 1 := by
  obtain _ | s := session
  · exact ⟨_, rfl, rfl, rfl⟩
  · simp only [parks] at h
    simp [normalizeWorkerFailure, normalizeRuntimeFailure, h]

theorem cleanup_fails (error : Thrown) (session : Option FailureSessionContext) :
    ∃ payload, (normalizeWorkerFailure (.cleanup error session)).terminal = .workerFailed payload ∧
      (normalizeWorkerFailure (.cleanup error session)).snapshot = session.map (·.snapshotSource) ∧
      (normalizeWorkerFailure (.cleanup error session)).exitCode = some 1 := by
  obtain _ | s := session <;> exact ⟨_, rfl, rfl, rfl⟩

end Leitwerk.Worker
