import Leitwerk.Lib.Table
/-!
# Grants and attempts of session transfers

`session-transfer-repo.ts`. A grant lets the holder of its token transfer the
session of one process. Each attempt of it is a row with a phase; its times are
milliseconds. Ids are counted, as `generateId` gives none twice.
-/

namespace Leitwerk.Transfer

/-- `SessionTransferPhase`. -/
inductive Phase where
  | queued | waitingForExecutionChain | stoppingWorker | startingExporter | scanning | readyToStream | streaming | awaitingAck
  | consumed | cancelled | failed
  deriving DecidableEq

/-- `SessionTransferAttemptState`. -/
inductive AttemptState where
  | queued | exporting | awaitingAck | consumed | cancelled | failed
  deriving DecidableEq

/-- `sessionTransferAttemptStateForPhase`. -/
def Phase.state : Phase → AttemptState
  | .queued | .waitingForExecutionChain => .queued
  | .stoppingWorker | .startingExporter | .scanning | .readyToStream | .streaming => .exporting
  | .awaitingAck => .awaitingAck
  | .consumed => .consumed
  | .cancelled => .cancelled
  | .failed => .failed

/-- `["consumed", "cancelled", "failed"].includes(phase)`; `ACTIVE_PHASES` are the others. -/
def Phase.terminal : Phase → Bool
  | .consumed | .cancelled | .failed => true
  | _ => false

structure SessionTransferGrant where
  id : Nat
  instanceId : String
  tokenHash : String
  expiresAt : Nat
  consumedAt : Option Nat := none
  tombstoneUntil : Option Nat := none
  deriving DecidableEq

structure SessionTransferAttempt where
  id : Nat
  grantId : Nat
  instanceId : String
  phase : Phase
  leaseUntil : Nat
  hardDeadline : Nat
  entriesTotal : Option Nat := none
  logicalBytesTotal : Option Nat := none
  compressedBytes : Option Nat := none
  streamSha256 : Option String := none
  failureCode : Option String := none
  completedAt : Option Nat := none
  deriving DecidableEq

/-- `isExportPending`. -/
def SessionTransferAttempt.exportPending (a : SessionTransferAttempt) : Bool :=
  a.phase.state == .queued || a.phase.state == .exporting

structure Db where
  grants : Table Nat SessionTransferGrant := .empty
  attempts : Table Nat SessionTransferAttempt := .empty
  nextGrant : Nat := 0
  nextAttempt : Nat := 0

namespace Db

variable (hashOpaqueToken : String → String) (db : Db)

/-- `createGrant`. -/
def createGrant (instanceId token : String) (expiresAt : Nat) : Db :=
  { db with
    grants := db.grants.put db.nextGrant
      { id := db.nextGrant, instanceId, tokenHash := hashOpaqueToken token, expiresAt }
    nextGrant := db.nextGrant + 1 }

/-- `getActiveByInstance`. -/
def getActiveByInstance (instanceId : String) : Option SessionTransferAttempt :=
  db.attempts.values.find? fun a => a.instanceId == instanceId && !a.phase.terminal

/-- `listActive`. -/
def listActive : List SessionTransferAttempt := db.attempts.values.filter fun a => !a.phase.terminal

/-- The outcome of `startAttempt`. -/
inductive StartResult where
  | created (db : Db) (attempt : SessionTransferAttempt)
  | notFound
  | busy

/-- `startAttempt`. An active attempt of the process is found before the unique index is met. -/
def startAttempt (instanceId : String) (grantId : Nat) (token : String) (now leaseMs hardDeadlineMs : Nat) : StartResult :=
  match db.grants.get? grantId with
  | none => .notFound
  | some grant =>
    if grant.instanceId ≠ instanceId ∨ grant.consumedAt.isSome ∨ grant.expiresAt ≤ now ∨
        hashOpaqueToken token ≠ grant.tokenHash then .notFound
    else if (db.getActiveByInstance instanceId).isSome then .busy
    else
      let attempt : SessionTransferAttempt :=
        { id := db.nextAttempt, grantId := grant.id, instanceId, phase := .queued
          leaseUntil := now + leaseMs, hardDeadline := now + hardDeadlineMs }
      .created { db with attempts := db.attempts.put db.nextAttempt attempt, nextAttempt := db.nextAttempt + 1 } attempt

/-- What a request of a client names. -/
structure AttemptAuth where
  instanceId : String
  grantId : Nat
  attemptId : Nat
  token : String

/-- `verifyAttempt`. -/
def verifyAttempt (auth : AttemptAuth) : Option SessionTransferAttempt :=
  match db.grants.get? auth.grantId, db.attempts.get? auth.attemptId with
  | some grant, some attempt =>
    if grant.instanceId = auth.instanceId ∧ attempt.instanceId = auth.instanceId ∧ attempt.grantId = grant.id ∧
        hashOpaqueToken auth.token = grant.tokenHash then some attempt
    else none
  | _, _ => none

/-- `updateAttempt`, with its patch as a function. -/
def updateAttempt (id : Nat) (patch : SessionTransferAttempt → SessionTransferAttempt) : Db :=
  { db with attempts := db.attempts.modify id patch }

/-- `renew`. -/
def renew (id now leaseMs : Nat) : Db :=
  match db.attempts.get? id with
  | none => db
  | some attempt =>
    if attempt.phase.terminal then db
    else db.updateAttempt id fun a => { a with leaseUntil := min (now + leaseMs) attempt.hardDeadline }

/-- `acknowledge`. -/
def acknowledge (id now tombstoneMs : Nat) : Db :=
  match db.attempts.get? id with
  | none => db
  | some attempt =>
    if attempt.phase ≠ .awaitingAck ∨ attempt.compressedBytes = none ∨ (attempt.streamSha256.filter (· ≠ "")) = none then db
    else
      { db with
        attempts := db.attempts.modify id fun a => { a with phase := .consumed, completedAt := some now }
        grants := db.grants.modify attempt.grantId fun g =>
          if g.consumedAt = none then { g with consumedAt := some now, tombstoneUntil := some (now + tombstoneMs) } else g }

/-- Deleting grants deletes their attempts. -/
def deleteGrants (gone : SessionTransferGrant → Bool) : Db :=
  { db with
    grants := db.grants.filter fun _ g => !gone g
    attempts := db.attempts.filter fun _ a => !(db.grants.get? a.grantId).any gone }

/-- `revokeProcess`. -/
def revokeProcess (instanceId : String) : Db := db.deleteGrants fun g => g.instanceId == instanceId

/-- `cleanup`. -/
def cleanup (now : Nat) : Db :=
  db.deleteGrants fun g =>
    ((g.consumedAt.isNone && decide (g.expiresAt < now)) || g.tombstoneUntil.any (decide <| · < now)) &&
      !db.listActive.any (·.grantId == g.id)

end Db

end Leitwerk.Transfer
