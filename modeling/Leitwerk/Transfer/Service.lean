import Leitwerk.Lib.Runs
import Leitwerk.Transfer.Attempts
/-!
# The session transfer service

`session-transfer-service.ts`. Each attempt is launched once in a server run: an
export chain stops the worker and prepares an archive, and a client then opens
its stream. A step of the service is one call, or what runs of a chain or of a
stream up to its next await, so steps interleave as the event loop lets them. A
restart loses everything but the database.
-/

namespace Leitwerk.Transfer

def grantLifetimeMs : Nat := 60 * 60 * 1000
def attemptLeaseMs : Nat := 90 * 1000
def attemptHardDeadlineMs : Nat := 60 * 60 * 1000
def consumedTombstoneMs : Nat := 24 * 60 * 60 * 1000

/-! ## What a server run holds -/

/-- `PreparedProcessStateExport`: its preflight, and the chunks its stream produces. -/
structure PreparedProcessStateExport where
  entriesTotal : Nat
  logicalBytesTotal : Nat
  archive : List (List UInt8)

/-- Where an export chain is: what it awaits, or the handler it runs next. -/
inductive ExportPoint where
  /-- `processOperations.runExclusive`. -/
  | reserving
  | delaying
  | reserved
  /-- `supervisor.stopWorker`. -/
  | stopping
  /-- `snapshotManifest`. -/
  | manifesting
  /-- `exporter.prepare`. -/
  | preparing
  /-- The `catch` handler, with the message of the error. -/
  | failing (why : String)
  /-- The `finally` handler. -/
  | settling
  | done

/-- An open stream: the chunks to come, and those the meter has seen. A stream that failed is closed later. -/
structure ArchiveStream where
  remaining : List (List UInt8)
  produced : List (List UInt8) := []
  finished : Bool := false
  failed : Bool := false
  closed : Bool := false

/-- `AttemptRuntime`, with the chain and the stream that hold it. `aborted` is the reason of its signal. -/
structure AttemptRuntime where
  attemptId : Nat
  instanceId : String
  point : ExportPoint := .reserving
  aborted : Option String := none
  prepared : Option PreparedProcessStateExport := none
  streamClaimed : Bool := false
  stream : Option ArchiveStream := none

/-- The database, and what is lost with a server run. `launched` are the runtimes by launch, of
which `runtimes` holds those that requests still find. -/
structure Service where
  db : Db := {}
  launched : Table Nat AttemptRuntime := .empty
  nextLaunch : Nat := 0
  runtimes : Table Nat Nat := .empty
  reconciled : Bool := false

/-! ## Moving an attempt -/

/-- `updatePhase`. -/
def updatePhase (db : Db) (id : Nat) (phase : Phase)
    (extra : SessionTransferAttempt → SessionTransferAttempt := fun a => a) : Db :=
  match db.attempts.get? id with
  | none => db
  | some current => if current.phase.terminal then db else db.updateAttempt id fun a => extra { a with phase }

/-- Aborting a signal again keeps its reason. -/
def AttemptRuntime.abort (r : AttemptRuntime) (why : String) : AttemptRuntime := { r with aborted := r.aborted.or (some why) }

namespace Service

variable (s : Service)

def setRuntime (launch : Nat) (f : AttemptRuntime → AttemptRuntime) : Service := { s with launched := s.launched.modify launch f }

def setPhase (id : Nat) (phase : Phase) (extra : SessionTransferAttempt → SessionTransferAttempt := fun a => a) : Service :=
  { s with db := updatePhase s.db id phase extra }

def dropRuntime (attemptId : Nat) : Service := { s with runtimes := s.runtimes.remove attemptId }

/-- `transitionTerminal`, to `failed` or `cancelled`. -/
def transitionTerminal (id : Nat) (cancelled : Bool) (code : String) (now : Nat) : Service :=
  match s.db.attempts.get? id with
  | none => s
  | some current =>
    if current.phase.terminal then s
    else
      let db := s.db.updateAttempt id fun a =>
        { a with phase := if cancelled then .cancelled else .failed, failureCode := some code, completedAt := some now }
      let launched := match s.runtimes.get? id with
        | some launch => s.launched.modify launch (·.abort code)
        | none => s.launched
      { s with db, launched, runtimes := s.runtimes.remove id }

def failAttempt (id : Nat) (code : String) (now : Nat) : Service := s.transitionTerminal id false code now

def cancelAttempt (id : Nat) (code : String) (now : Nat) : Service := s.transitionTerminal id true code now

/-! ## The export chain -/

/-- `launch`, up to its first await. -/
def launch (attempt : SessionTransferAttempt) : Service :=
  { s with
    db := updatePhase s.db attempt.id .waitingForExecutionChain
    launched := s.launched.put s.nextLaunch { attemptId := attempt.id, instanceId := attempt.instanceId }
    nextLaunch := s.nextLaunch + 1
    runtimes := s.runtimes.put attempt.id s.nextLaunch }

/-- What a chain is resumed with. -/
inductive ExportResult where
  /-- `runExclusive` runs its callback: whether the process exists, and whether it is stable. -/
  | reserve (processExists stable : Bool)
  | delayed
  | resume
  /-- `stopWorker` is done: how it failed, or whether a lease remains. -/
  | stopped (error : Option String) (leaseRemains : Bool)
  | manifest (error : Option String)
  | prepared (result : Except String PreparedProcessStateExport)
  | handle

/-- The chain of a launch moves on. -/
def setPoint (launch : Nat) (point : ExportPoint) : Service := s.setRuntime launch fun r => { r with point }

/-- `signal.throwIfAborted()`, then the rest. -/
def unlessAborted (launch : Nat) (r : AttemptRuntime) (rest : Service) : Service :=
  match r.aborted with
  | some why => s.setPoint launch (.failing why)
  | none => rest

/-- An export chain runs to its next await. A result of something else than it awaits changes nothing. -/
def exportStep (launch : Nat) (result : ExportResult) (now : Nat) : Service :=
  match s.launched.get? launch with
  | none => s
  | some r => match r.point, result with
    | .reserving, .reserve processExists stable =>
      match s.db.attempts.get? r.attemptId with
      | none => s.setPoint launch (.failing "transfer_no_longer_queued")
      | some current =>
        if current.phase.state ≠ .queued then s.setPoint launch (.failing "transfer_no_longer_queued")
        else if processExists = false then s.setPoint launch (.failing "process_deleted")
        else if stable = false then s.setPoint launch .delaying
        else (s.setPhase r.attemptId .stoppingWorker).setPoint launch .reserved
    | .delaying, .delayed =>
      if r.aborted.isSome then s.setPoint launch (.failing "The operation was aborted") else s.setPoint launch .reserving
    | .reserved, .resume => s.unlessAborted launch r (s.setPoint launch .stopping)
    | .stopping, .stopped error leaseRemains =>
      match error with
      | some why => s.setPoint launch (.failing why)
      | none =>
        if leaseRemains then s.setPoint launch (.failing "worker_lease_remains")
        else s.unlessAborted launch r ((s.setPhase r.attemptId .startingExporter).setPoint launch .manifesting)
    | .manifesting, .manifest error =>
      match error with
      | some why => s.setPoint launch (.failing why)
      | none => s.unlessAborted launch r ((s.setPhase r.attemptId .scanning).setPoint launch .preparing)
    | .preparing, .prepared result =>
      match result with
      | .error why => s.setPoint launch (.failing why)
      | .ok prepared =>
        let s := s.setRuntime launch fun r => { r with prepared := some prepared }
        s.unlessAborted launch r ((s.setPhase r.attemptId .readyToStream fun a =>
          { a with entriesTotal := some prepared.entriesTotal
                   logicalBytesTotal := some prepared.logicalBytesTotal }).setPoint launch .settling)
    | .failing why, .handle =>
      let s := s.setPoint launch .settling
      match s.db.attempts.get? r.attemptId with
      | some current => if current.exportPending then s.failAttempt r.attemptId why now else s
      | none => s
    | .settling, .handle =>
      let s := s.setPoint launch .done
      match s.db.attempts.get? r.attemptId with
      | some current => if current.exportPending then s else s.dropRuntime r.attemptId
      | none => s
    | _, _ => s

/-! ## Requests -/

/-- `deadlineCode`. -/
def deadlineCode (attempt : SessionTransferAttempt) (now : Nat) : Option String :=
  if attempt.hardDeadline ≤ now then some "hard_deadline_expired"
  else if attempt.leaseUntil ≤ now then some "lease_expired"
  else none

/-- `cancelIfExpired`. -/
def cancelIfExpired (attempt : SessionTransferAttempt) (now : Nat) : Service :=
  match deadlineCode attempt now with
  | some code => s.cancelAttempt attempt.id code now
  | none => s

/-- `sweep`. -/
def sweep (now : Nat) : Service :=
  let swept := s.db.listActive.foldl (fun s attempt => s.cancelIfExpired attempt now) s
  { swept with db := swept.db.cleanup now }

variable (hashOpaqueToken : String → String)

/-- `startAttempt`. -/
def startAttempt (instanceId : String) (grantId : Nat) (token : String) (deletionPending : Bool) (now : Nat) : Service :=
  if deletionPending then s
  else match s.db.startAttempt hashOpaqueToken instanceId grantId token now attemptLeaseMs attemptHardDeadlineMs with
    | .created db attempt => { s with db }.launch attempt
    | .notFound | .busy => s

/-- `heartbeat`. An attempt that ended stays as it is. -/
def heartbeat (auth : Db.AttemptAuth) (now : Nat) : Service :=
  match s.db.verifyAttempt hashOpaqueToken auth with
  | none => s
  | some attempt =>
    let s := s.cancelIfExpired attempt now
    { s with db := s.db.renew attempt.id now attemptLeaseMs }

/-- `cancel`. -/
def cancel (auth : Db.AttemptAuth) (code : Option String) (now : Nat) : Service :=
  match s.db.verifyAttempt hashOpaqueToken auth with
  | none => s
  | some attempt => s.cancelAttempt attempt.id (code.getD "client_cancelled") now

/-- `cancelForWeb`. -/
def cancelForWeb (instanceId : String) (attemptId now : Nat) : Service :=
  match s.db.attempts.get? attemptId with
  | none => s
  | some attempt =>
    if attempt.instanceId ≠ instanceId ∨ attempt.phase = .awaitingAck then s
    else s.cancelAttempt attemptId "operator_cancelled" now

/-- `acknowledge`. -/
def acknowledge (auth : Db.AttemptAuth) (now : Nat) : Service :=
  match s.db.verifyAttempt hashOpaqueToken auth with
  | none => s
  | some attempt =>
    if attempt.phase = .consumed then s
    else if (deadlineCode attempt now).isSome then s.cancelIfExpired attempt now
    else { s with db := s.db.acknowledge attempt.id now consumedTombstoneMs }

/-- `revokeProcess`. -/
def revokeProcess (instanceId : String) (now : Nat) : Service :=
  let s := match s.db.getActiveByInstance instanceId with
    | some active => s.cancelAttempt active.id "process_deleted" now
    | none => s
  { s with db := s.db.revokeProcess instanceId }

/-! ## The stream -/

/-- The runtime `openStream` hands the archive of out, with its launch. -/
def claimable (attempt : SessionTransferAttempt) : Option (Nat × AttemptRuntime × PreparedProcessStateExport) := do
  let launch ← s.runtimes.get? attempt.id
  let r ← s.launched.get? launch
  let prepared ← r.prepared
  if attempt.phase = .readyToStream ∧ r.streamClaimed = false then return (launch, r, prepared) else none

/-- `openStream`, and whether it hands out a stream. `error` is what `prepared.stream` throws. -/
def openStream (auth : Db.AttemptAuth) (error : Option String) (now : Nat) : Service × Bool :=
  match s.db.verifyAttempt hashOpaqueToken auth with
  | none => (s, false)
  | some attempt =>
    if (deadlineCode attempt now).isSome then (s.cancelIfExpired attempt now, false)
    else match s.claimable attempt with
      | none => (s, false)
      | some (launch, _, prepared) =>
        let s := (s.setRuntime launch fun r => { r with streamClaimed := true }).setPhase attempt.id .streaming
        match error with
        | some why => (s.failAttempt attempt.id why now, false)
        | none => (s.setRuntime launch fun r => { r with stream := some { remaining := prepared.archive } }, true)

def setStream (launch : Nat) (f : ArchiveStream → ArchiveStream) : Service :=
  s.setRuntime launch fun r => { r with stream := r.stream.map f }

/-- The `error` and `close` handlers of the meter. -/
def endStream (r : AttemptRuntime) (stream : ArchiveStream) (why : String) (now : Nat) : Service :=
  let s := if stream.finished then s else s.failAttempt r.attemptId why now
  s.dropRuntime r.attemptId

/-- The meter of a stream fails. -/
def failStream (launch : Nat) (r : AttemptRuntime) (stream : ArchiveStream) (why : String) (now : Nat) : Service :=
  (s.setStream launch fun x => { x with failed := true }).endStream r stream why now

/-- What happens to an open stream. -/
inductive StreamEvent where
  | chunk
  | flush
  | error (message : String)
  | close

/-- A stream of a launch meets an event; the meter fails past the compressed limit. -/
def streamStep (digest : List UInt8 → String) (maxCompressedBytes launch : Nat) (e : StreamEvent) (now : Nat) : Service :=
  match s.launched.get? launch with
  | none => s
  | some r => match r.stream with
    | none => s
    | some stream =>
      if stream.closed then s
      else match e, stream.remaining with
        | .chunk, chunk :: rest =>
          if stream.finished ∨ stream.failed then s
          else if maxCompressedBytes < (stream.produced ++ [chunk]).flatten.length then
            s.failStream launch r stream "compressed_limit_exceeded" now
          else s.setStream launch fun x => { x with remaining := rest, produced := x.produced ++ [chunk] }
        | .flush, [] =>
          if stream.finished ∨ stream.failed then s
          else match r.aborted with
            | some why => s.failStream launch r stream why now
            | none =>
              ((s.setStream launch fun x => { x with finished := true }).setPhase r.attemptId .awaitingAck fun a =>
                { a with compressedBytes := some stream.produced.flatten.length
                         streamSha256 := some (digest stream.produced.flatten) }).dropRuntime r.attemptId
        | .error message, _ =>
          if stream.failed then s
          else s.failStream launch r stream (if message = "" then "stream_failed" else message) now
        | .close, _ =>
          (s.setStream launch fun x => { x with closed := true }).endStream r stream "stream_interrupted" now
        | _, _ => s

/-! ## The server -/

/-- One attempt of the loop in `reconcile`. -/
def reconcileAttempt (now : Nat) (attempt : SessionTransferAttempt) : Service :=
  if attempt.phase = .streaming then s.failAttempt attempt.id "server_restarted_during_stream" now
  else if attempt.phase ≠ .awaitingAck then
    { s with db := s.db.updateAttempt attempt.id fun a => { a with phase := .queued } }.launch
      { attempt with phase := .queued }
  else s

/-- `reconcile` after it awaited the exporter, which a server run does once. -/
def reconcile (now : Nat) : Service :=
  if s.reconciled then s
  else
    let s := s.db.listActive.foldl (fun s attempt => s.reconcileAttempt now attempt) s
    { s.sweep now with reconciled := true }

/-- `stop` aborts the runtimes. -/
def stop : Service :=
  { s with
    launched := s.runtimes.values.foldl (fun launched launch => launched.modify launch (·.abort "server_stopping")) s.launched
    runtimes := .empty }

/-- A new server run on the database of the last. -/
def restart : Service := { db := s.db }

end Service

/-! ## Steps -/

inductive Event where
  | createGrant (instanceId token : String) (now : Nat)
  | startAttempt (instanceId : String) (grantId : Nat) (token : String) (deletionPending : Bool) (now : Nat)
  | chain (launch : Nat) (result : Service.ExportResult) (now : Nat)
  | heartbeat (auth : Db.AttemptAuth) (now : Nat)
  | openStream (auth : Db.AttemptAuth) (error : Option String) (now : Nat)
  | stream (launch : Nat) (e : Service.StreamEvent) (now : Nat)
  | cancel (auth : Db.AttemptAuth) (code : Option String) (now : Nat)
  | cancelForWeb (instanceId : String) (attemptId now : Nat)
  | acknowledge (auth : Db.AttemptAuth) (now : Nat)
  | sweep (now : Nat)
  | revokeProcess (instanceId : String) (now : Nat)
  | stop
  | restart
  | reconcile (now : Nat)

/-- What the service is given: hashes, and the limit of an archive. -/
structure Env where
  hashOpaqueToken : String → String
  digest : List UInt8 → String
  maxCompressedBytes : Nat

variable (env : Env)

def next (s : Service) : Event → Service
  | .createGrant instanceId token now =>
    { s with db := s.db.createGrant env.hashOpaqueToken instanceId token (now + grantLifetimeMs) }
  | .startAttempt instanceId grantId token deletionPending now =>
    s.startAttempt env.hashOpaqueToken instanceId grantId token deletionPending now
  | .chain launch result now => s.exportStep launch result now
  | .heartbeat auth now => s.heartbeat env.hashOpaqueToken auth now
  | .openStream auth error now => (s.openStream env.hashOpaqueToken auth error now).1
  | .stream launch e now => s.streamStep env.digest env.maxCompressedBytes launch e now
  | .cancel auth code now => s.cancel env.hashOpaqueToken auth code now
  | .cancelForWeb instanceId attemptId now => s.cancelForWeb instanceId attemptId now
  | .acknowledge auth now => s.acknowledge env.hashOpaqueToken auth now
  | .sweep now => s.sweep now
  | .revokeProcess instanceId now => s.revokeProcess instanceId now
  | .stop => s.stop
  | .restart => s.restart
  | .reconcile now => s.reconcile now

/-- The attempts whose archive stream an event hands out. -/
def outputs (s : Service) : Event → List Nat
  | .openStream auth error now =>
    if (s.openStream env.hashOpaqueToken auth error now).2 then [auth.attemptId] else []
  | _ => []

def Step : Runs.Step Service Event Nat := fun s e os t => t = next env s e ∧ os = outputs env s e

end Leitwerk.Transfer
