import Leitwerk.Engine.Settlement
/-!
# Recording what a worker reports at the end of a turn

`worker-turn-ipc-recorder.ts`. A report starts a task that runs the engine's
operation for it, falls back to `WorkerFailure` when that is not recorded, and
acknowledges the report to the worker. A task waits for the process lock and for
the reactions of a commit, so other operations run between its steps, and a
restart of the server drops it.
-/

namespace Leitwerk.Ipc

open Engine

/-! ## Reports -/

/-- `isTurnFailureCode`, with the code it narrows to. -/
def turnFailureCode? : String → Option TurnFailureCode
  | "branch_drift" => some .branchDrift
  | _ => none

/-- `WorkerTurnFailedPayload` as it arrives: its class and its code are any strings. -/
structure WorkerTurnFailedPayload where
  turnRecordId : String
  turnId : TurnId
  turnType : TurnType
  pathType : PathType := .primary
  forkPiEntryId : Option String := none
  resultPiEntryId : Option String := none
  errorSummary : String
  errorClass : Option String := none
  failureCode : Option String := none
  recoveryContext : Option FailedTurnRecoveryContext := none

/-- The payload `recordTurnFailed` hands to the engine. -/
def WorkerTurnFailedPayload.toEngine (payload : WorkerTurnFailedPayload) : Engine.TurnFailedPayload where
  turnRecordId := payload.turnRecordId
  turnId := payload.turnId
  turnType := payload.turnType
  pathType := payload.pathType
  forkPiEntryId := payload.forkPiEntryId
  resultPiEntryId := payload.resultPiEntryId
  errorSummary := payload.errorSummary
  errorClass := payload.errorClass.bind ErrorClass.ofString?
  failureCode := payload.failureCode.bind turnFailureCode?
  recoveryContext := payload.recoveryContext

/-- `worker.turn_outcome` and `worker.turn_failed`. -/
inductive Report where
  | outcome (payload : Engine.TurnOutcomePayload)
  | failure (payload : WorkerTurnFailedPayload)

def Report.turnRecordId : Report → String
  | .outcome payload => payload.turnRecordId
  | .failure payload => payload.turnRecordId

/-- The operation that records the report. -/
def Report.op : Report → Op
  | .outcome payload => .turnOutcome payload
  | .failure payload => .turnFailed payload.toEngine

/-- `TerminalType`. -/
def Report.terminalType : Report → String
  | .outcome _ => "outcome"
  | .failure _ => "failure"

/-- `terminalWasAlreadyRecorded`. -/
def terminalWasAlreadyRecorded (st : Store) (turnRecordId : String) (status : TurnRecordStatus) : Bool :=
  (st.turnRecords.get? turnRecordId).any (·.status == status)

/-- The status a recorded report leaves its record in. -/
def Report.recordedStatus : Report → TurnRecordStatus
  | .outcome _ => .succeeded
  | .failure _ => .failed

/-- `createGenericFailedTurnRecoveryContext`. -/
def genericFailedTurnRecoveryContext : FailedTurnRecoveryContext where
  suggestedContinuePrompt := "continue"
  failureCode := "generic_continue"

/-- The `resultPiEntryId` and `recoveryContext` of a fallback. A report refused for its class has none. -/
def Report.recovery : Report → Option String × Option FailedTurnRecoveryContext
  | .outcome payload => (payload.resultPiEntryId, some genericFailedTurnRecoveryContext)
  | .failure payload => (payload.resultPiEntryId, payload.recoveryContext)

/-! ## Tasks -/

/-- The code and the message of a failure to record. -/
abbrev Details := String × String

/-- `failureDetails` of an operation that did not succeed. -/
def failureDetails : Result → Details
  | .ok => ("turn_terminal_recording_failed", "Turn terminal recording failed")
  | .preCommit why => (why.code, why.message)
  | .postCommit => ("post_commit_failed", "Process operation failed after commit")

/-- Where the task of a report is. -/
inductive Phase where
  /-- The report's operation waits for the process lock. -/
  | recording
  /-- It was committed; `afterRecord` and the reactions follow. -/
  | committed (result : Result)
  /-- It has returned. -/
  | returned (result : Result)
  /-- The fallback waits for the process lock. -/
  | fallback (payload : WorkerFailurePayload)
  /-- The fallback has returned. -/
  | fellBack (ok : Bool)

structure Task where
  workerLeaseId : String
  report : Report
  phase : Phase

structure State where
  store : Store
  tasks : List Task := []

/-- `worker.turn_terminal_recorded` for a record. -/
structure Ack where
  turnRecordId : String
  deriving DecidableEq

/-- The fallback of a report that could not be recorded. -/
def fallbackPayload (workerLeaseId : String) (report : Report) (details : Details)
    (recovery : Option String × Option FailedTurnRecoveryContext) : WorkerFailurePayload where
  errorCode := details.1
  message := "Server could not durably record worker turn " ++ report.terminalType ++ ": " ++ details.2
  errorClass := some .infrastructure
  workerLeaseId := some workerLeaseId
  resultPiEntryId := recovery.1
  recoveryContext := recovery.2

/-- `recoverRecordingFailure` up to its fallback: an acknowledgement, or the task that falls back. -/
def recoverRecordingFailure (st : Store) (workerLeaseId : String) (report : Report) (details : Details)
    (recovery : Option String × Option FailedTurnRecoveryContext) : Option Task × List Ack :=
  if terminalWasAlreadyRecorded st report.turnRecordId report.recordedStatus then (none, [⟨report.turnRecordId⟩])
  else (some ⟨workerLeaseId, report, .fallback (fallbackPayload workerLeaseId report details recovery)⟩, [])

/-- `recordTurnOutcome` and `recordTurnFailed`. -/
def receive (st : Store) (workerLeaseId : String) (report : Report) : Option Task × List Ack :=
  let record : Option Task × List Ack :=
    if terminalWasAlreadyRecorded st report.turnRecordId report.recordedStatus then (none, [⟨report.turnRecordId⟩])
    else (some ⟨workerLeaseId, report, .recording⟩, [])
  match report with
  | .outcome _ => record
  | .failure payload => match payload.errorClass with
    | some errorClass =>
      if (ErrorClass.ofString? errorClass).isNone then
        recoverRecordingFailure st workerLeaseId report
          ("turn_terminal_recording_threw", "Invalid worker error class '" ++ errorClass ++ "'") (none, none)
      else record
    | none => record

/-- A task goes on after what it awaited; `thrown` is the error a callback threw. -/
def Task.resume (st : Store) (task : Task) (thrown : Option String) : Option Task × List Ack :=
  match task.phase with
  | .committed result => (some { task with phase := .returned result }, [⟨task.report.turnRecordId⟩])
  | .returned .ok => match thrown with
    | some message => recoverRecordingFailure st task.workerLeaseId task.report
        ("turn_terminal_recording_threw", message) task.report.recovery
    | none => (none, [])
  | .returned result =>
    recoverRecordingFailure st task.workerLeaseId task.report (failureDetails result) task.report.recovery
  | .fellBack ok =>
    if thrown.isSome then (none, [])
    else if ok || terminalWasAlreadyRecorded st task.report.turnRecordId .failed then
      (none, [⟨task.report.turnRecordId⟩])
    else (none, [])
  | .recording | .fallback _ => (some task, [])

/-- The operation a task waits to run. -/
def Task.op? (task : Task) : Option Op :=
  match task.phase with
  | .recording => some task.report.op
  | .fallback payload => some (.workerFailure payload)
  | _ => none

/-- The task once its operation has run. -/
def Task.ran (task : Task) (result : Result) : Task :=
  match task.phase with
  | .recording => { task with phase := match result with
      | .preCommit why => .returned (.preCommit why)
      | .ok | .postCommit => .committed result }
  | .fallback _ => { task with phase := .fellBack (result == .ok) }
  | _ => task

/-! ## Steps -/

/-- What happens on the server: any other operation, a report of a worker, the turn of a task
to run its operation or to go on, or a restart, which drops every task. -/
inductive Event where
  | engine (e : Engine.Event)
  | report (workerId : String) (report : Report)
  | run (i : Nat) (ctx : Context)
  | resume (i : Nat) (thrown : Option String)
  | restart

/-- Puts what is left of a task in its place. -/
def settleTask (tasks : List Task) (i : Nat) : Option Task → List Task
  | some task => tasks.set i task
  | none => tasks.eraseIdx i

def next (d : ProcessDefinition) (s : State) : Event → State
  | .engine e => { s with store := Engine.next d s.store e }
  | .report workerId report => match s.store.activeLease with
    | some lease =>
      if lease.workerId = workerId then { s with tasks := s.tasks ++ (receive s.store lease.id report).1.toList } else s
    | none => s
  | .run i ctx => match s.tasks[i]? with
    | some task => match task.op? with
      | some op =>
        { store := Engine.next d s.store (.op op ctx)
          tasks := match (Engine.outputs d s.store (.op op ctx)).head? with
            | some result => s.tasks.set i (task.ran result)
            | none => s.tasks }
      | none => s
    | none => s
  | .resume i thrown => match s.tasks[i]? with
    | some task => { s with tasks := settleTask s.tasks i (task.resume s.store thrown).1 }
    | none => s
  | .restart => { s with tasks := [] }

/-- The acknowledgements a step sends. -/
def acks (s : State) : Event → List Ack
  | .report workerId report => match s.store.activeLease with
    | some lease => if lease.workerId = workerId then (receive s.store lease.id report).2 else []
    | none => []
  | .resume i thrown => match s.tasks[i]? with
    | some task => (task.resume s.store thrown).2
    | none => []
  | _ => []

/-- A step of the server. -/
def RecorderStep (d : ProcessDefinition) : Runs.Step State Event Ack := fun s e os s' => s' = next d s e ∧ os = acks s e

end Leitwerk.Ipc
