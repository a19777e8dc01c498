import Leitwerk.Engine.Builders
/-!
# Turn waits

`turn-wait-state.ts`. A turn with a `waitFor` predicate does not start at once:
`deferTurnWaitStarts` takes its start out of the writes and keeps it in the
process's metadata, as scheduling state apart from starts and attempts. Every
write that creates a start passes here before it is persisted.
-/

namespace Leitwerk.Engine

variable (d : ProcessDefinition)

/-- Whether the turn waits for a predicate, `turnWaitPredicate`. -/
def turnWaitPredicate (turnId : Option TurnId) : Bool :=
  match turnId.bind d.turns with
  | some turn => (workerTurnType? turn.turnType).isSome && turn.waitFor
  | none => false

/-- `writeTurnWait`, on the metadata the writes hold so far. -/
def writeTurnWait (w : Writes) (p : Process) (wait : Option PendingTurnWait) : Writes :=
  applyMetadataPatch w p { w.processPatch.metadata.getD p.metadata with turnWait := wait }

/-- The wait a deferred start leaves: the one it already waits in, or a new one. -/
def deferredWait (p : Process) (start : TurnStartInput) (metadata : Option DecisionMetadata) (waitId : String) :
    PendingTurnWait :=
  let fresh : PendingTurnWait :=
    { id := waitId, revision := 0, status := .waiting, nextCheckAt := 0, failures := 0, message := none
      start, metadata
      initialSelection := p.selectedTurnId.isNone && p.lifecycleStatus == .discovered && p.planRevision == 0 }
  match p.metadata.turnWait with
  | some previous =>
    if previous.turnId = start.turnId ∧ start.startKind = .selectedTurn ∧ previous.status = .waiting then previous
    else fresh
  | none => fresh

/-- Drops a wait for a turn the process no longer has selected, or one it ended in. -/
def dropStaleTurnWait (p : Process) (w : Writes) : Writes :=
  let next := w.candidate p
  match next.metadata.turnWait with
  | some wait =>
    if next.selectedTurnId ≠ some wait.turnId ∨ next.lifecycleStatus = .completed ∨ next.lifecycleStatus = .aborted
    then writeTurnWait w p none
    else w
  | none => w

/-- Whether the start is the admission of the process's pending wait, or a later item of a
mapped run that was admitted already. -/
def startAdmitted (p : Process) (w : Writes) (start : TurnStartInput) : Bool :=
  (match p.metadata.turnWait with
    | some previous => w.waitForAdmission == some previous.id && previous.turnId == start.turnId
    | none => false) ||
  (start.iteration.isSome && start.startKind == .selectedTurn)

/-- Puts a start off: its wait is recorded and the process has no execution meanwhile. -/
def deferStart (p : Process) (metadata : Option DecisionMetadata) (waitId : String) (w : Writes)
    (start : TurnStartInput) : Writes :=
  let w := w.removeCreate fun s => some s.turnId == (w.candidate p).selectedTurnId
  let w := writeTurnWait w p (some (deferredWait p start metadata waitId))
  { (w.put .currentExecution none).put .lifecycleStatus .waiting with workerIntent := some .reconcile }

/-- `deferTurnWaitStarts`. -/
def deferTurnWaitStarts (p : Process) (metadata : Option DecisionMetadata) (waitId : String) (w : Writes) : Writes :=
  let next := w.candidate p
  match turnWaitPredicate d next.selectedTurnId, w.creates.find? (fun s => some s.turnId == next.selectedTurnId) with
  | true, some start => if startAdmitted p w start then w else deferStart p metadata waitId w start
  | _, _ => dropStaleTurnWait p w

end Leitwerk.Engine
