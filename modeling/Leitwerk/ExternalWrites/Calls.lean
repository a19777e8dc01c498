import Leitwerk.Lib.Runs
import Leitwerk.Lib.Serial
import Leitwerk.Domain
/-!
# External writes

`packages/external-writes/src/external-writes.ts`: the calls of `ensure` and
`logOnly` that meet on one write log. `serialize` chains the operations of a
dedup key by promises; each operation checks the log, asks the remote side
(`reconcile`), executes, recovers and records in steps of their own, any of
which may fail, and the server may restart between any two steps.

The values a call returns are left out, and the metadata are the text they are
recorded as.
-/

namespace Leitwerk.ExternalWrites

open Runs Serial

/-! ## The write log -/

/-- `ExternalWriteLogRecordInput`. -/
structure LogRow where
  instanceId : String
  writeType : String
  dedupKey : String
  metadata : Json
  deriving DecidableEq

/-- `hasDedupKey`. -/
def hasDedupKey (log : List LogRow) (dedupKey : String) : Bool := log.any (·.dedupKey == dedupKey)

/-- How `record` ends: the row is there, `record` throws and it is not, or it throws and it is. -/
inductive Insertion where
  | inserted | refused | thrown
  deriving DecidableEq

/-- `recordWriteIfMissing`: the log, and whether the call returns. -/
def recordWriteIfMissing (log : List LogRow) (row : LogRow) (insertion : Insertion) : List LogRow × Bool :=
  if hasDedupKey log row.dedupKey then (log, true)
  else
    match insertion with
    | .inserted => (log ++ [row], true)
    | .refused => (log, hasDedupKey log row.dedupKey)
    | .thrown => (log ++ [row], hasDedupKey (log ++ [row]) row.dedupKey)

/-! ## Calls -/

/-- The two operations of `bindExternalWrites`. -/
inductive Kind where
  | ensure | logOnly
  deriving DecidableEq

/-- What a call is bound to, beside its dedup key. -/
structure Call where
  kind : Kind
  instanceId : String
  writeType : String
  deriving DecidableEq

/-- What of an operation runs: `reconcile` in the phase `already_recorded` or
`before_execute`, `execute`, or `reconcile` in the phase `after_execute_error`. -/
inductive Part where
  | reconciling (recorded : Bool)
  | executing
  | recovering
  deriving DecidableEq

/-- The answer of `reconcile`: a value, null, or an error. -/
inductive Answer where
  | found | nothing | failed
  deriving DecidableEq

/-- What comes of recording: the metadata, if computing them does not throw, and the insertion. -/
structure Recording where
  metadata : Option Json
  insertion : Insertion
  deriving DecidableEq

/-- The calls with their queues, the log, and the remote objects: those that
exist, by key, and the calls that created one. -/
structure State where
  calls : Tasks String Call Part
  log : List LogRow
  remote : String → Bool
  created : List Nat

/-- No calls and no record; some objects may exist already. -/
def State.init (remote : String → Bool) : State := ⟨.init, [], remote, []⟩

/-- What happens to the calls. -/
inductive Event where
  | call (dedupKey : String) (call : Call)
  | start (i : Nat)
  | reconciled (i : Nat) (answer : Answer) (recording : Recording)
  | created (i : Nat)
  | executed (i : Nat) (ok : Bool) (recording : Recording)
  | recovered (i : Nat) (answer : Answer) (recording : Recording)
  | finish (i : Nat)
  | restart
  deriving DecidableEq

/-! ## Steps -/

/-- A call gets to another phase. -/
def State.to (s : State) (i : Nat) (phase : Phase Part) : State := { s with calls := s.calls.setPhase i phase }

/-- The operation records its write and settles. -/
def State.record (s : State) (i : Nat) (task : Task String Call Part) (recording : Recording) : State :=
  match recording.metadata with
  | none => s.to i (.settled false)
  | some metadata =>
    let recorded := recordWriteIfMissing s.log
      ⟨task.data.instanceId, task.data.writeType, task.key, metadata⟩ recording.insertion
    { s.to i (.settled recorded.2) with log := recorded.1 }

/-- The operation of a call starts: it looks for its key in the log. -/
def State.start (s : State) (i : Nat) (task : Task String Call Part) : State :=
  let recorded := hasDedupKey s.log task.key
  match task.data.kind with
  | .ensure => s.to i (.running (.reconciling recorded))
  | .logOnly => if recorded then s.to i (.settled true) else s.to i (.running .executing)

/-- `ensure` after `reconcile`: a recorded write that is not found is an error. -/
def State.reconciled (s : State) (i : Nat) (task : Task String Call Part) (recorded : Bool) (answer : Answer)
    (recording : Recording) : State :=
  match answer with
  | .failed => s.to i (.settled false)
  | .nothing => if recorded then s.to i (.settled false) else s.to i (.running .executing)
  | .found => if recorded then s.to i (.settled true) else s.record i task recording

/-- An operation after `execute`: `ensure` looks for what a failed execution has left. -/
def State.executed (s : State) (i : Nat) (task : Task String Call Part) (ok : Bool) (recording : Recording) : State :=
  if ok then s.record i task recording
  else
    match task.data.kind with
    | .ensure => s.to i (.running .recovering)
    | .logOnly => s.to i (.settled false)

/-- `ensure` after the `reconcile` that follows a failed execution. -/
def State.recovered (s : State) (i : Nat) (task : Task String Call Part) (answer : Answer) (recording : Recording) :
    State :=
  match answer with
  | .found => s.record i task recording
  | _ => s.to i (.settled false)

/-- An event, for the call it is about. -/
def State.about (s : State) (i : Nat) (step : Task String Call Part → State) : State :=
  match s.calls.at i with
  | some task => step task
  | none => s

/-- What an event does. -/
def State.next (s : State) : Event → State
  | .call dedupKey call => { s with calls := s.calls.add dedupKey call }
  | .start i => s.about i fun task => s.start i task
  | .reconciled i answer recording => s.about i fun task =>
    match task.phase with
    | .running (.reconciling recorded) => s.reconciled i task recorded answer recording
    | _ => s
  | .created i => s.about i fun task =>
    { s with remote := fun key => key == task.key || s.remote key, created := i :: s.created }
  | .executed i ok recording => s.about i fun task => s.executed i task ok recording
  | .recovered i answer recording => s.about i fun task => s.recovered i task answer recording
  | .finish i => s.about i fun task =>
    match task.phase with
    | .settled ok => { s with calls := s.calls.finish i task.key ok }
    | _ => s
  | .restart => { s with calls := s.calls.stop }

/-- Whether a call is there and meets a condition. -/
def State.has (s : State) (i : Nat) (p : Task String Call Part → Bool) : Bool := (s.calls.at i).any p

/-- When an event can happen. An execution creates its object once, at any time
while it runs. -/
def State.admits (s : State) : Event → Bool
  | .call _ _ | .restart => true
  | .start i => s.has i s.calls.ready
  | .reconciled i _ _ => s.has i fun task => task.phase == .running (.reconciling true) ||
      task.phase == .running (.reconciling false)
  | .created i => s.has i (·.phase == .running .executing) && !s.created.contains i
  | .executed i _ _ => s.has i (·.phase == .running .executing)
  | .recovered i _ _ => s.has i (·.phase == .running .recovering)
  | .finish i => s.has i fun task => task.phase == .settled true || task.phase == .settled false

/-- A step, whether or not the event can happen. -/
def WriteMove : Step State Event Unit := fun s e _ t => t = s.next e

/-- The calls on one write log. -/
def WriteStep : Step State Event Unit := Guard WriteMove fun s e => s.admits e = true

/-- A `reconcile` that answers finds the object of its key exactly when it exists. -/
def Truthful (s : State) : Event → Prop
  | .reconciled i answer _ | .recovered i answer _ =>
    ∀ task, s.calls.at i = some task → (answer = .found → s.remote task.key = true) ∧
      (answer = .nothing → s.remote task.key = false)
  | _ => True

end Leitwerk.ExternalWrites
