import Leitwerk.Engine.Types
import Mathlib.Data.List.Sort
/-!
# Startup evidence

`buildStartupEvidence`: the attempts of a process up to its first accepted
start, each with a checklist of four steps read from start, lease and turn
records. `recovery` and `readiness`, which only repeat the process and the
current start, are left out.
-/

namespace Leitwerk.Supervisor.StartupEvidence

open Engine (StartState)

/-! ## Records -/

structure StartRecord where
  id : String
  state : StartState
  createdAt : String
  updatedAt : String

/-- `WorkerLease`, with the `readyAt` of its `bootstrapReceipt`. -/
structure WorkerLease where
  id : String
  turnStartRecordId : Option String
  startedAt : String
  connectedAt : Option String
  workspacePreparationStartedAt : Option String
  readyAt : Option String
  receiptReadyAt : Option String

structure TurnRecord where
  id : String
  turnStartRecordId : Option String
  acceptedWorkerLeaseId : Option String
  startedAt : String

/-- A process event and its `data.startRecordId`. -/
structure ProcessEvent where
  eventType : String
  startRecordId : Option String

/-- `ProcessInstance`; its `currentExecution` when it is a worker start. -/
structure Process where
  lifecycleStatus : LifecycleStatus
  currentStartId : Option String
  closedAt : Option String
  updatedAt : Option String

structure Input where
  process : Process
  turnStarts : List StartRecord
  leases : List WorkerLease
  turnRecords : List TurnRecord
  events : List ProcessEvent := []

/-- What the host makes of texts: `Date.parse`, when it is finite, and `localeCompare`. -/
structure Host where
  dateParse : String → Option ℤ
  localeCompare : String → String → ℤ

inductive StepId
  | startWorker | connectWorker | prepareWorkspace | startFirstTurn
  deriving DecidableEq

inductive StepStatus
  | pending | inProgress | completed | failed | superseded
  deriving DecidableEq

inductive AttemptStatus
  | starting | succeeded | failed | superseded | recovered
  deriving DecidableEq

structure StepSummary where
  id : StepId
  label : String
  status : StepStatus
  occurredAt : Option String
  startedAt : Option String
  endedAt : Option String
  detail : String

structure AttemptSummary where
  startRecordId : String
  workerLeaseId : Option String
  status : AttemptStatus
  startedAt : String
  readyAt : Option String
  /-- The inner `none` is `NaN`. -/
  durationMs : Option (Option ℤ)
  summary : Option String
  recoveredByStartRecordId : Option String
  steps : List StepSummary

structure Evidence where
  attempts : List AttemptSummary
  currentAttempt : Option AttemptSummary
  authoritativeAttemptId : Option String

/-! ## One attempt -/

section Attempt

variable (host : Host)

def validObservedAt (value : Option String) (notBefore : String) : Option String :=
  match value with
  | none => none
  | some value =>
    if value = "" then none
    else match host.dateParse value, host.dateParse notBefore with
      | some time, some bound => if bound ≤ time then some value else none
      | _, _ => none

def connectedAt (lease : WorkerLease) : Option String :=
  validObservedAt host (lease.connectedAt <|> lease.receiptReadyAt) lease.startedAt

def workspaceAt (lease : WorkerLease) : Option String :=
  validObservedAt host (lease.workspacePreparationStartedAt <|> lease.receiptReadyAt)
    ((connectedAt host lease).getD lease.startedAt)

def readyAt (lease : WorkerLease) : Option String :=
  validObservedAt host (lease.readyAt <|> lease.receiptReadyAt) ((workspaceAt host lease).getD lease.startedAt)

/-- `new Map(rows.map(row => [key(row), row])).get(id)`: the last row of a key. -/
def lastWith {α : Type} (rows : List α) (key : α → Option String) (id : String) : Option α :=
  rows.reverse.find? fun row => key row = some id

/-- `stateLeaseId`, when it is not empty. -/
def stateLeaseId : StartState → Option String
  | .accepted _ _ acceptedWorkerLeaseId => if acceptedWorkerLeaseId = "" then none else some acceptedWorkerLeaseId
  | .bootstrapFailed _ (some failedWorkerLeaseId) _ _ => if failedWorkerLeaseId = "" then none else some failedWorkerLeaseId
  | _ => none

/-- The lease of a start: the one its state names, else the last one made for it. -/
def leaseOf (leases : List WorkerLease) (start : StartRecord) : Option WorkerLease :=
  ((stateLeaseId start.state).bind fun id => lastWith leases (fun lease => some lease.id) id) <|>
    lastWith (leases.filter fun lease => lease.turnStartRecordId ≠ none ∧ lease.turnStartRecordId ≠ some "")
      WorkerLease.turnStartRecordId start.id

def acceptedTurn (records : List TurnRecord) (start : StartRecord) : Option TurnRecord :=
  match start.state with
  | .accepted _ turnRecordId acceptedWorkerLeaseId =>
    (lastWith records (fun record => some record.id) turnRecordId).filter fun record =>
      record.turnStartRecordId = some start.id ∧ record.acceptedWorkerLeaseId = some acceptedWorkerLeaseId
  | _ => none

def firstTurnAt (records : List TurnRecord) (start : StartRecord) (readyAt : Option String) : Option String :=
  match acceptedTurn records start, readyAt with
  | some turn, some readyAt => validObservedAt host (some turn.startedAt) readyAt
  | _, _ => none

def isAccepted : StartState → Bool
  | .accepted .. => true
  | _ => false

def isFailed : StartState → Bool
  | .preparationFailed _ | .bootstrapFailed .. => true
  | _ => false

def isSuperseded : StartState → Bool
  | .superseded _ => true
  | _ => false

/-- `state.safeSummary` of a failed start. -/
def safeSummary : StartState → Option String
  | .preparationFailed failure => some failure.safeSummary
  | .bootstrapFailed _ _ _ summary => some summary
  | _ => none

def attemptStatus (process : Process) (start : StartRecord) (succeeded last : Bool) : AttemptStatus :=
  if succeeded then .succeeded
  else if isFailed start.state then .failed
  else if isSuperseded start.state || process.lifecycleStatus = .aborted || process.lifecycleStatus = .completed ||
      (process.currentStartId ≠ some start.id && !last) then .superseded
  else .starting

/-- The first step that was not observed. -/
def failedStepId (lease : Option WorkerLease) (connectedAt readyAt : Option String) : StepId :=
  if lease.isNone then .startWorker
  else if connectedAt.isNone then .connectWorker
  else if readyAt.isNone then .prepareWorkspace
  else .startFirstTurn

def stepStatus (observed : Bool) (status : AttemptStatus) (failed isFailedStep : Bool) : StepStatus :=
  if observed then .completed
  else if status = .superseded then .superseded
  else if failed && isFailedStep then .failed
  else if isFailedStep && status = .starting then .inProgress
  else .pending

def stepLabel : StepId → String
  | .startWorker => "Request worker"
  | .connectWorker => "Start worker"
  | .prepareWorkspace => "Prepare runtime"
  | .startFirstTurn => "Start first turn"

def queueSummary : String := "Waiting for worker capacity; starts automatically when a slot is available."

def stepDetail (queued : Bool) : StepId → String
  | .startWorker => if queued then queueSummary else "Resolve the turn and request its worker."
  | .connectWorker => "Allocate storage, schedule and start the worker, then connect."
  | .prepareWorkspace => "Prepare the workspace, tools and model provider."
  | .startFirstTurn => "Accept the turn and hand it to the worker."

/-- One attempt. `later` are the startup starts after it. -/
def buildAttempt (input : Input) (start : StartRecord) (later : List StartRecord) : AttemptSummary :=
  let lease := leaseOf input.leases start
  let connectedAt := lease.bind (connectedAt host)
  let readyAt := lease.bind (readyAt host)
  let firstTurnAt := firstTurnAt host input.turnRecords start readyAt
  let succeeded := lease.isSome && readyAt.isSome && firstTurnAt.isSome && isAccepted start.state
  let failed := isFailed start.state
  let status := attemptStatus input.process start succeeded later.isEmpty
  let queued := status = .starting && lease.isNone && input.events.any fun event =>
    event.eventType = "worker_capacity_queued" && event.startRecordId = some start.id
  let failedStep := failedStepId lease connectedAt readyAt
  let allocatedAt := lease.map WorkerLease.startedAt
  let stoppedAt :=
    if failed || isSuperseded start.state then some start.updatedAt
    else if status = .superseded then
      (later.head?.map StartRecord.createdAt <|> input.process.closedAt <|> input.process.updatedAt <|> some start.updatedAt)
    else none
  let step (id : StepId) (observed : Bool) (occurredAt startedAt endedAt : Option String) : StepSummary :=
    { id
      label := if queued && id = .startWorker then "Waiting for worker capacity" else stepLabel id
      status := stepStatus observed status failed (id == failedStep)
      occurredAt, startedAt
      endedAt := endedAt <|> if id = failedStep then stoppedAt else none
      detail := stepDetail queued id }
  { startRecordId := start.id
    workerLeaseId := lease.map WorkerLease.id
    status
    startedAt := start.createdAt
    readyAt
    durationMs := readyAt.map fun readyAt =>
      match host.dateParse readyAt, host.dateParse start.createdAt with
      | some ready, some created => some (max 0 (ready - created))
      | _, _ => none
    summary := safeSummary start.state <|> if queued then some queueSummary else none
    recoveredByStartRecordId := none
    -- each phase ends where the next one starts
    steps := [
      step .startWorker lease.isSome allocatedAt (some start.createdAt) allocatedAt,
      step .connectWorker connectedAt.isSome connectedAt allocatedAt (lease.bind WorkerLease.connectedAt),
      step .prepareWorkspace readyAt.isSome readyAt (lease.bind WorkerLease.connectedAt) readyAt,
      step .startFirstTurn firstTurnAt.isSome firstTurnAt readyAt firstTurnAt] }

/-! ## All attempts -/

/-- `left.createdAt.localeCompare(right.createdAt) || left.id.localeCompare(right.id)`, at most 0. -/
def startsBefore (left right : StartRecord) : Bool :=
  let comparison := host.localeCompare left.createdAt right.createdAt
  if comparison ≠ 0 then comparison ≤ 0 else host.localeCompare left.id right.id ≤ 0

def orderedStarts (starts : List StartRecord) : List StartRecord := starts.mergeSort (startsBefore host)

/-- Startup ends with the first accepted start. -/
def startupStarts (starts : List StartRecord) : List StartRecord :=
  let firstAcceptedIndex := (orderedStarts host starts).findIdx fun start => isAccepted start.state
  (orderedStarts host starts).take (firstAcceptedIndex + 1)

/-- `startupStarts.map`, where each start sees those after it. -/
def buildAttempts (input : Input) : List StartRecord → List AttemptSummary
  | [] => []
  | start :: later => buildAttempt host input start later :: buildAttempts input later

def recover (authoritative : Option AttemptSummary) (attempt : AttemptSummary) : AttemptSummary :=
  match authoritative with
  | some success =>
    if attempt.status = .failed then { attempt with status := .recovered, recoveredByStartRecordId := some success.startRecordId }
    else attempt
  | none => attempt

def buildStartupEvidence (input : Input) : Evidence :=
  let attempts := buildAttempts host input (startupStarts host input.turnStarts)
  let authoritative := attempts.find? fun attempt => attempt.status = .succeeded
  let recoveredAttempts := attempts.map (recover authoritative)
  { attempts := recoveredAttempts
    currentAttempt :=
      (input.process.currentStartId.bind fun id =>
        if id = "" then none else recoveredAttempts.find? fun attempt => attempt.startRecordId = id) <|>
      recoveredAttempts.getLast?
    authoritativeAttemptId := authoritative.map AttemptSummary.startRecordId }

end Attempt

/-! ## Checklists -/

/-- Completed steps, at most one that failed or is in progress, and then steps still to come. -/
def Checklist (statuses : List StepStatus) : Prop :=
  ∃ k current rest, statuses = List.replicate k .completed ++ current ++ rest ∧ current.length ≤ 1 ∧
    (∀ status ∈ current, status = .failed ∨ status = .inProgress) ∧ ∀ status ∈ rest, status = .pending ∨ status = .superseded

theorem stepStatus_later (status : AttemptStatus) (failed : Bool) :
    stepStatus false status failed false = .pending ∨ stepStatus false status failed false = .superseded := by
  cases status <;> cases failed <;> simp [stepStatus]

theorem stepStatus_current (status : AttemptStatus) (failed : Bool) :
    (stepStatus false status failed true = .failed ∨ stepStatus false status failed true = .inProgress) ∨
      stepStatus false status failed true = .pending ∨ stepStatus false status failed true = .superseded := by
  cases status <;> cases failed <;> simp [stepStatus]

/-- The first step that was not observed is the current one. -/
theorem checklist_of_observed (k n : ℕ) (status : AttemptStatus) (failed : Bool) :
    Checklist (List.replicate k .completed ++ stepStatus false status failed true ::
      List.replicate n (stepStatus false status failed false)) := by
  have hlater : ∀ x ∈ List.replicate n (stepStatus false status failed false), x = .pending ∨ x = .superseded := by
    intro x hx
    rw [List.eq_of_mem_replicate hx]
    exact stepStatus_later status failed
  rcases stepStatus_current status failed with hcurrent | hcurrent
  · exact ⟨k, [stepStatus false status failed true], _, by simp, by simp, by simpa using hcurrent, hlater⟩
  · exact ⟨k, [], stepStatus false status failed true :: List.replicate n (stepStatus false status failed false), by simp, by simp,
      by simp, List.forall_mem_cons.2 ⟨hcurrent, hlater⟩⟩

/-- Before a completed step of a checklist all steps are completed. -/
theorem Checklist.completed {statuses : List StepStatus} (h : Checklist statuses) {i j : ℕ} (hij : i < j)
    (hj : statuses[j]? = some .completed) : statuses[i]? = some .completed := by
  obtain ⟨k, current, rest, rfl, -, hcurrent, hrest⟩ := h
  rw [List.append_assoc] at hj ⊢
  have hk : j < k := by
    by_contra hle
    rw [List.getElem?_append_right (by simpa using hle)] at hj
    rcases List.mem_append.1 (List.mem_of_getElem? hj) with hmem | hmem
    · simpa using hcurrent _ hmem
    · simpa using hrest _ hmem
  rw [List.getElem?_append_left (by simp; omega)]
  simp [List.getElem?_replicate]
  omega

section Attempts

variable {host : Host} {input : Input} {start : StartRecord} {later : List StartRecord}

/-- A lease that was seen ready without having been seen connected: its `connectedAt` is missing
or lies before its start. -/
def Skewed (host : Host) (lease : WorkerLease) : Prop :=
  validObservedAt host (lease.connectedAt <|> lease.receiptReadyAt) lease.startedAt = none ∧
    validObservedAt host (lease.readyAt <|> lease.receiptReadyAt)
      ((validObservedAt host (lease.workspacePreparationStartedAt <|> lease.receiptReadyAt) lease.startedAt).getD
        lease.startedAt) ≠ none

theorem skewed_iff {lease : WorkerLease} : Skewed host lease ↔ connectedAt host lease = none ∧ readyAt host lease ≠ none := by
  have hconnected : connectedAt host lease = validObservedAt host (lease.connectedAt <|> lease.receiptReadyAt) lease.startedAt := rfl
  unfold Skewed
  rw [← hconnected]
  constructor
  · rintro ⟨hnone, hready⟩
    exact ⟨hnone, by rw [readyAt, workspaceAt, hnone]; exact hready⟩
  · rintro ⟨hnone, hready⟩
    rw [readyAt, workspaceAt, hnone] at hready
    exact ⟨hnone, hready⟩

theorem firstTurnAt_ready {records : List TurnRecord} {ready : Option String} (h : (firstTurnAt host records start ready).isSome) :
    ready.isSome := by
  unfold firstTurnAt at h
  split at h
  · rfl
  · cases h

theorem attemptStatus_succeeded {process : Process} {succeeded last : Bool} :
    attemptStatus process start succeeded last = .succeeded ↔ succeeded = true := by
  unfold attemptStatus
  cases succeeded
  · simp only [Bool.false_eq_true, if_false, iff_false]
    repeat' split
    all_goals simp
  · simp

/-- The statuses of the four steps, by what was observed. -/
theorem buildAttempt_statuses (host : Host) (input : Input) (start : StartRecord) (later : List StartRecord) :
    let lease := leaseOf input.leases start
    let connected := lease.bind (connectedAt host)
    let ready := lease.bind (readyAt host)
    let turn := firstTurnAt host input.turnRecords start ready
    let status := (buildAttempt host input start later).status
    let failedStep := failedStepId lease connected ready
    (buildAttempt host input start later).steps.map StepSummary.status =
      [stepStatus lease.isSome status (isFailed start.state) (StepId.startWorker == failedStep),
        stepStatus connected.isSome status (isFailed start.state) (StepId.connectWorker == failedStep),
        stepStatus ready.isSome status (isFailed start.state) (StepId.prepareWorkspace == failedStep),
        stepStatus turn.isSome status (isFailed start.state) (StepId.startFirstTurn == failedStep)] := rfl

theorem buildAttempt_succeeded_iff : (buildAttempt host input start later).status = .succeeded ↔
    (leaseOf input.leases start).isSome ∧ ((leaseOf input.leases start).bind (readyAt host)).isSome ∧
      (firstTurnAt host input.turnRecords start ((leaseOf input.leases start).bind (readyAt host))).isSome ∧
      isAccepted start.state := by
  refine attemptStatus_succeeded.trans ?_
  simp only [Bool.and_eq_true, and_assoc]

@[simp] theorem stepStatus_observed (status : AttemptStatus) (failed current : Bool) :
    stepStatus true status failed current = .completed := rfl

/-- Without a skewed lease the steps of an attempt are a checklist, all completed once it succeeded. -/
theorem buildAttempt_checklist (h : ∀ lease, leaseOf input.leases start = some lease → ¬ Skewed host lease) :
    Checklist ((buildAttempt host input start later).steps.map StepSummary.status) ∧
      ((buildAttempt host input start later).status = .succeeded →
        (buildAttempt host input start later).steps.map StepSummary.status = List.replicate 4 .completed) := by
  have hturn := @firstTurnAt_ready host start input.turnRecords ((leaseOf input.leases start).bind (readyAt host))
  have hsucceeded := @buildAttempt_succeeded_iff host input start later
  rw [buildAttempt_statuses]
  generalize (buildAttempt host input start later).status = status at hsucceeded ⊢
  -- by the first of the four that was not observed
  cases hlease : leaseOf input.leases start with
  | none =>
    have hnone : firstTurnAt host input.turnRecords start none = none := by
      simpa [hlease] using hturn
    simp only [hlease, Option.bind_none, hnone, failedStepId, Option.isSome_none] at hsucceeded ⊢
    exact ⟨checklist_of_observed 0 3 status _, by simp [hsucceeded]⟩
  | some lease =>
    have hskewed := mt skewed_iff.2 (h lease hlease)
    simp only [hlease, Option.bind_some] at hturn hsucceeded ⊢
    cases hconnected : connectedAt host lease with
    | none =>
      have hready : readyAt host lease = none := by
        by_contra hready
        exact hskewed ⟨hconnected, hready⟩
      have hnone : firstTurnAt host input.turnRecords start none = none := by
        simpa [hready] using hturn
      simp only [hready, hnone, failedStepId] at hsucceeded ⊢
      exact ⟨checklist_of_observed 1 2 status _, by simp [hsucceeded]⟩
    | some connected =>
      cases hready : readyAt host lease with
      | none =>
        have hnone : firstTurnAt host input.turnRecords start none = none := by
          simpa [hready] using hturn
        simp only [hready, hnone, failedStepId] at hsucceeded ⊢
        exact ⟨checklist_of_observed 2 1 status _, by simp [hsucceeded]⟩
      | some ready =>
        simp only [hready] at hsucceeded ⊢
        cases hfirst : firstTurnAt host input.turnRecords start (some ready) with
        | none =>
          simp only [hfirst, failedStepId] at hsucceeded ⊢
          exact ⟨checklist_of_observed 3 0 status _, by simp [hsucceeded]⟩
        | some turn => exact ⟨⟨4, [], [], rfl, by simp, by simp, by simp⟩, fun _ => rfl⟩

/-- With one they are not. -/
theorem buildAttempt_skewed {lease : WorkerLease} (hlease : leaseOf input.leases start = some lease) (hskewed : Skewed host lease) :
    ¬ Checklist ((buildAttempt host input start later).steps.map StepSummary.status) := by
  obtain ⟨hconnected, hready⟩ := skewed_iff.1 hskewed
  obtain ⟨ready, hready⟩ := Option.ne_none_iff_exists'.1 hready
  intro hchecklist
  rw [buildAttempt_statuses] at hchecklist
  have hsecond := hchecklist.completed (i := 1) (j := 2) (by omega) (by simp [hlease, hready])
  simp only [hlease, Option.bind_some, hconnected, List.getElem?_cons_succ, List.getElem?_cons_zero, Option.some.injEq] at hsecond
  have hcases := stepStatus_current (buildAttempt host input start later).status (isFailed start.state)
  simp [failedStepId] at hsecond
  simp [hsecond] at hcases

/-- An accepted start alone succeeds, and a failed one alone fails. -/
theorem buildAttempt_failed (h : isFailed start.state = true) : (buildAttempt host input start later).status = .failed := by
  have haccepted : isAccepted start.state = false := by
    cases hstate : start.state <;> simp_all [isFailed, isAccepted]
  show attemptStatus _ _ _ _ = _
  simp [attemptStatus, haccepted, h]

theorem buildAttempt_ne_recovered : (buildAttempt host input start later).status ≠ .recovered := by
  show attemptStatus _ _ _ _ ≠ _
  unfold attemptStatus
  repeat' split
  all_goals simp

/-- Only the last start, or the current one, is starting. -/
theorem buildAttempt_starting (h : (buildAttempt host input start later).status = .starting) :
    input.process.currentStartId = some start.id ∨ later = [] := by
  change attemptStatus _ _ _ _ = _ at h
  unfold attemptStatus at h
  split at h
  · cases h
  · split at h
    · cases h
    · split at h
      · cases h
      · rename_i hother
        simp only [Bool.or_eq_true, not_or, Bool.and_eq_true, not_and] at hother
        by_cases hcurrent : input.process.currentStartId = some start.id
        · exact .inl hcurrent
        · right
          simpa [hcurrent] using hother.2

/-! ## All attempts of a startup -/

theorem getElem?_buildAttempts (host : Host) (input : Input) (starts : List StartRecord) (i : ℕ) :
    (buildAttempts host input starts)[i]? = starts[i]?.map fun start => buildAttempt host input start (starts.drop (i + 1)) := by
  induction starts generalizing i with
  | nil => simp [buildAttempts]
  | cons start later ih =>
    cases i with
    | zero => simp [buildAttempts]
    | succ i => simp [buildAttempts, ih]

/-- Nothing follows an accepted start. -/
theorem accepted_last {starts : List StartRecord} {i : ℕ} (h : (startupStarts host starts)[i]? = some start)
    (haccepted : isAccepted start.state = true) : (startupStarts host starts).length = i + 1 := by
  obtain ⟨hlt, hget⟩ := List.getElem?_eq_some_iff.1 h
  unfold startupStarts at hlt hget ⊢
  dsimp only at hlt hget ⊢
  rw [List.getElem_take] at hget
  rw [List.length_take, Nat.lt_min] at hlt
  have hindex : (orderedStarts host starts).findIdx (fun start => isAccepted start.state) ≤ i := by
    by_contra hlater
    have hnot := List.not_of_lt_findIdx (Nat.lt_of_not_le hlater)
    rw [hget] at hnot
    exact Bool.noConfusion (haccepted.symm.trans hnot)
  rw [List.length_take]
  omega

@[simp] theorem recover_steps (authoritative : Option AttemptSummary) (attempt : AttemptSummary) :
    (recover authoritative attempt).steps = attempt.steps := by
  unfold recover
  split
  · split <;> rfl
  · rfl

@[simp] theorem recover_startRecordId (authoritative : Option AttemptSummary) (attempt : AttemptSummary) :
    (recover authoritative attempt).startRecordId = attempt.startRecordId := by
  unfold recover
  split
  · split <;> rfl
  · rfl

/-- Recovering changes no status but that of a failure. -/
theorem recover_status {authoritative : Option AttemptSummary} {attempt : AttemptSummary} {status : AttemptStatus}
    (h : (recover authoritative attempt).status = status) (hne : status ≠ .recovered) : attempt.status = status := by
  unfold recover at h
  split at h
  · split at h
    · exact absurd h.symm hne
    · exact h
  · exact h

theorem recover_of_ne_failed {authoritative : Option AttemptSummary} {attempt : AttemptSummary} (h : attempt.status ≠ .failed) :
    recover authoritative attempt = attempt := by
  unfold recover
  split
  · rw [if_neg h]
  · rfl

theorem getElem?_evidence (host : Host) (input : Input) (i : ℕ) :
    (buildStartupEvidence host input).attempts[i]? = (startupStarts host input.turnStarts)[i]?.map fun start =>
      recover ((buildAttempts host input (startupStarts host input.turnStarts)).find? fun attempt => attempt.status = .succeeded)
        (buildAttempt host input start ((startupStarts host input.turnStarts).drop (i + 1))) := by
  show (List.map _ _)[i]? = _
  rw [List.getElem?_map, getElem?_buildAttempts, Option.map_map]
  rfl

/-- An attempt of the evidence is that of a start. -/
theorem getElem?_attempts {i : ℕ} {a : AttemptSummary} (h : (buildStartupEvidence host input).attempts[i]? = some a) :
    ∃ start, (startupStarts host input.turnStarts)[i]? = some start ∧
      a = recover ((buildAttempts host input (startupStarts host input.turnStarts)).find? fun attempt => attempt.status = .succeeded)
        (buildAttempt host input start ((startupStarts host input.turnStarts).drop (i + 1))) := by
  rw [getElem?_evidence] at h
  obtain ⟨start, hstart, ha⟩ := Option.map_eq_some_iff.1 h
  exact ⟨start, hstart, ha.symm⟩

/-- A success is the last attempt. -/
theorem succeeded_last {i : ℕ} {a : AttemptSummary} (h : (buildStartupEvidence host input).attempts[i]? = some a)
    (hsucceeded : a.status = .succeeded) : (startupStarts host input.turnStarts).length = i + 1 := by
  obtain ⟨start, hstart, rfl⟩ := getElem?_attempts h
  exact accepted_last hstart (buildAttempt_succeeded_iff.1 (recover_status hsucceeded (by simp))).2.2.2

/-- A success of the evidence is the one that was found first. -/
theorem authoritative_of_succeeded {j : ℕ} {b : AttemptSummary} (h : (buildStartupEvidence host input).attempts[j]? = some b)
    (hsucceeded : b.status = .succeeded) :
    (buildAttempts host input (startupStarts host input.turnStarts)).find? (fun attempt => attempt.status = .succeeded) = some b := by
  obtain ⟨start, hstart, hb⟩ := getElem?_attempts h
  have hlast := succeeded_last h hsucceeded
  have hbase : (buildAttempt host input start ((startupStarts host input.turnStarts).drop (j + 1))).status = .succeeded :=
    recover_status (hb ▸ hsucceeded) (by simp)
  rw [recover_of_ne_failed (by simp [hbase])] at hb
  have hget : (buildAttempts host input (startupStarts host input.turnStarts))[j]? = some b := by
    rw [getElem?_buildAttempts, hstart, hb]
    rfl
  cases hfind : (buildAttempts host input (startupStarts host input.turnStarts)).find? (fun attempt => attempt.status = .succeeded) with
  | none => simpa [hsucceeded] using List.find?_eq_none.1 hfind b (List.mem_of_getElem? hget)
  | some a =>
    -- what is found is a success, and so the last attempt too
    obtain ⟨i, hi, hai⟩ := List.getElem_of_mem (List.mem_of_find?_eq_some hfind)
    have hget' : (buildAttempts host input (startupStarts host input.turnStarts))[i]? = some a := List.getElem?_eq_some_iff.2 ⟨hi, hai⟩
    have hstatus : a.status = .succeeded := by simpa using List.find?_some hfind
    rw [getElem?_buildAttempts] at hget'
    obtain ⟨start', hstart', ha⟩ := Option.map_eq_some_iff.1 hget'
    have hlast' := accepted_last hstart' (buildAttempt_succeeded_iff.1 (ha ▸ hstatus)).2.2.2
    obtain rfl : i = j := by omega
    rw [getElem?_buildAttempts] at hget
    rw [← hget, hget']

/-- What is asked of the evidence. -/
structure WellFormed (input : Input) (starts : List StartRecord) (evidence : Evidence) : Prop where
  steps : ∀ a ∈ evidence.attempts,
    a.steps.map StepSummary.id = [.startWorker, .connectWorker, .prepareWorkspace, .startFirstTurn]
  checklist : ∀ a ∈ evidence.attempts, Checklist (a.steps.map StepSummary.status)
  succeeded : ∀ a ∈ evidence.attempts, a.status = .succeeded → a.steps.map StepSummary.status = List.replicate 4 .completed
  single : ∀ (i j : ℕ) (a b : AttemptSummary), evidence.attempts[i]? = some a → evidence.attempts[j]? = some b →
    a.status = .succeeded → b.status = .succeeded → i = j
  authoritative : ∀ id, evidence.authoritativeAttemptId = some id ↔
    ∃ a ∈ evidence.attempts, a.status = .succeeded ∧ a.startRecordId = id
  /-- Every failed start before a success is reported as recovered by it. -/
  recovered : ∀ (i j : ℕ) (start : StartRecord) (b : AttemptSummary), starts[i]? = some start → isFailed start.state = true →
    evidence.attempts[j]? = some b → b.status = .succeeded →
      ∃ a, evidence.attempts[i]? = some a ∧ i < j ∧ a.status = .recovered ∧ a.recoveredByStartRecordId = some b.startRecordId
  /-- At most one attempt is starting that is not the current start. -/
  starting : ∀ (i j : ℕ) (a b : AttemptSummary), evidence.attempts[i]? = some a → evidence.attempts[j]? = some b →
    a.status = .starting → b.status = .starting → input.process.currentStartId ≠ some a.startRecordId →
      input.process.currentStartId ≠ some b.startRecordId → i = j

/-- An attempt that is starting and not current is the last. -/
theorem starting_last {i : ℕ} {a : AttemptSummary} (h : (buildStartupEvidence host input).attempts[i]? = some a)
    (hstarting : a.status = .starting) (hcurrent : input.process.currentStartId ≠ some a.startRecordId) :
    (startupStarts host input.turnStarts).length = i + 1 := by
  obtain ⟨start, hstart, rfl⟩ := getElem?_attempts h
  have hlt := (List.getElem?_eq_some_iff.1 hstart).1
  rcases buildAttempt_starting (recover_status hstarting (by simp)) with hid | hnil
  · exact absurd (by rw [recover_startRecordId]; exact hid) hcurrent
  · rw [List.drop_eq_nil_iff] at hnil
    omega

/-- The evidence is a well-formed checklist just where no start of it has a skewed lease. -/
theorem startup_wellFormed_iff (host : Host) (input : Input) :
    WellFormed input (startupStarts host input.turnStarts) (buildStartupEvidence host input) ↔
      ∀ start ∈ startupStarts host input.turnStarts, ∀ lease, leaseOf input.leases start = some lease → ¬ Skewed host lease := by
  constructor
  · intro hformed start hstart lease hlease hskewed
    obtain ⟨i, hi, hget⟩ := List.getElem_of_mem hstart
    have hget' : (startupStarts host input.turnStarts)[i]? = some start := List.getElem?_eq_some_iff.2 ⟨hi, hget⟩
    have hattempt := getElem?_evidence host input i
    rw [hget', Option.map_some] at hattempt
    have hchecklist := hformed.checklist _ (List.mem_of_getElem? hattempt)
    rw [recover_steps] at hchecklist
    exact buildAttempt_skewed hlease hskewed hchecklist
  · intro hsound
    have hattempts : ∀ a ∈ (buildStartupEvidence host input).attempts, ∃ i, (buildStartupEvidence host input).attempts[i]? = some a :=
      fun a ha => List.mem_iff_getElem?.1 ha
    refine ⟨?_, ?_, ?_, ?_, ?_, ?_, ?_⟩
    · intro a ha
      obtain ⟨i, hi⟩ := hattempts a ha
      obtain ⟨start, -, rfl⟩ := getElem?_attempts hi
      rw [recover_steps]
      rfl
    · intro a ha
      obtain ⟨i, hi⟩ := hattempts a ha
      obtain ⟨start, hstart, rfl⟩ := getElem?_attempts hi
      rw [recover_steps]
      exact (buildAttempt_checklist (hsound start (List.mem_of_getElem? hstart))).1
    · intro a ha hsucceeded
      obtain ⟨i, hi⟩ := hattempts a ha
      obtain ⟨start, hstart, rfl⟩ := getElem?_attempts hi
      rw [recover_steps]
      exact (buildAttempt_checklist (hsound start (List.mem_of_getElem? hstart))).2 (recover_status hsucceeded (by simp))
    · intro i j a b ha hb hasucceeded hbsucceeded
      have hi := succeeded_last ha hasucceeded
      have hj := succeeded_last hb hbsucceeded
      omega
    · intro id
      constructor
      · intro hid
        obtain ⟨b, hfind, hb⟩ := Option.map_eq_some_iff.1 (show Option.map _ (List.find? _ _) = some id from hid)
        have hstatus : b.status = .succeeded := by simpa using List.find?_some hfind
        refine ⟨b, List.mem_map.2 ⟨b, List.mem_of_find?_eq_some hfind, recover_of_ne_failed (by simp [hstatus])⟩, hstatus, hb⟩
      · rintro ⟨a, ha, hsucceeded, rfl⟩
        obtain ⟨i, hi⟩ := hattempts a ha
        show Option.map _ (List.find? _ _) = _
        rw [authoritative_of_succeeded hi hsucceeded]
        rfl
    · intro i j start b hstart hfailed hb hsucceeded
      have hlt := (List.getElem?_eq_some_iff.1 hstart).1
      have hlast := succeeded_last hb hsucceeded
      have hbase := @buildAttempt_failed host input start ((startupStarts host input.turnStarts).drop (i + 1)) hfailed
      have hattempt : (buildStartupEvidence host input).attempts[i]? =
          some (recover (some b) (buildAttempt host input start ((startupStarts host input.turnStarts).drop (i + 1)))) := by
        rw [getElem?_evidence, hstart, authoritative_of_succeeded hb hsucceeded, Option.map_some]
      have hrecover : recover (some b) (buildAttempt host input start ((startupStarts host input.turnStarts).drop (i + 1))) =
          { buildAttempt host input start ((startupStarts host input.turnStarts).drop (i + 1)) with
            status := .recovered, recoveredByStartRecordId := some b.startRecordId } := by
        simp only [recover, hbase, if_true]
      refine ⟨_, hattempt, ?_, by rw [hrecover], by rw [hrecover]⟩
      -- the success is the last attempt, and this one is not it
      rcases Nat.lt_or_ge i j with hij | hji
      · exact hij
      · obtain rfl : i = j := by omega
        rw [hattempt, hrecover] at hb
        rw [← Option.some.inj hb] at hsucceeded
        cases hsucceeded
    · intro i j a b ha hb hastarting hbstarting hacurrent hbcurrent
      have hi := starting_last ha hastarting hacurrent
      have hj := starting_last hb hbstarting hbcurrent
      omega

end Attempts

/-- Milliseconds of four texts, in a clock that was set back and forth. -/
def clock : Host where
  dateParse text := [("2026-01-01T00:00:05.000Z", 1767225605000), ("2026-01-01T00:00:03.000Z", 1767225603000),
    ("2026-01-01T00:00:06.000Z", 1767225606000), ("2026-01-01T00:00:07.000Z", 1767225607000)].lookup text
  localeCompare _ _ := 0

/-- An accepted start whose lease was seen connected before it was allocated. -/
def setBack : Input where
  process := ⟨.active, none, none, none⟩
  turnStarts := [⟨"tsr_1", .accepted .automatic "trn_1" "wls_1", "2026-01-01T00:00:03.000Z", "2026-01-01T00:00:07.000Z"⟩]
  leases := [⟨"wls_1", some "tsr_1", "2026-01-01T00:00:05.000Z", some "2026-01-01T00:00:03.000Z", none,
    some "2026-01-01T00:00:06.000Z", none⟩]
  turnRecords := [⟨"trn_1", some "tsr_1", some "wls_1", "2026-01-01T00:00:07.000Z"⟩]

/-- It succeeds with a step that was not completed before two that were. -/
theorem startup_wellFormed_fails :
    (buildStartupEvidence clock setBack).attempts.map (fun a => (a.status, a.steps.map StepSummary.status)) =
        [(.succeeded, [.completed, .pending, .completed, .completed])] ∧
      ¬ WellFormed setBack (startupStarts clock setBack.turnStarts) (buildStartupEvidence clock setBack) := by
  have hstatuses : (buildStartupEvidence clock setBack).attempts.map (fun a => (a.status, a.steps.map StepSummary.status)) =
      [(.succeeded, [.completed, .pending, .completed, .completed])] := by
    have hstarts : startupStarts clock setBack.turnStarts = setBack.turnStarts := by
      simp [startupStarts, orderedStarts, setBack]
    unfold buildStartupEvidence
    rw [hstarts]
    decide +kernel
  refine ⟨hstatuses, fun hformed => ?_⟩
  obtain ⟨a, ha, hstatus⟩ := List.mem_map.1 (hstatuses ▸ List.mem_singleton_self _)
  have hchecklist := hformed.checklist a ha
  rw [(Prod.mk.inj hstatus).2] at hchecklist
  simpa using hchecklist.completed (i := 1) (j := 2) (by omega) rfl

end Leitwerk.Supervisor.StartupEvidence
