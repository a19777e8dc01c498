import Leitwerk.Lib.Json
import Leitwerk.Protocol.CompactSummary
/-!
# Replaying primary path frames

`primary-path-detail.ts`, `primary-path-replay.ts` and the buffer of
`processes.svelte.ts`. While a snapshot loads the frames are buffered, and a
summary of a turn takes the place of the earlier one. What is left out of a
snapshot is what no frame reads or changes.
-/

namespace Leitwerk.Ui

open Protocol.LiveTurn (CompactTurnSummary emptyCompactTurnSummary)

structure SemanticEntryRef where
  entryId : String
  deriving DecidableEq

/-- `ProcessTurnRecordSummary`. -/
structure TurnRecordSummary where
  id : String
  turnId : String
  turnType : String
  pathType : String
  startedAt : String

/-- `CompactActiveTurnSnapshot`. -/
structure ActiveTurn extends CompactTurnSummary where
  turnRecordId : String
  turnId : String
  turnType : String
  pathType : String
  startedAt : String
  summaryPending : Bool

structure TurnState where
  currentTurnRecordId : Option String
  isStreaming : Bool
  activeTurn : Option ActiveTurn

/-- `ProcessTurnAnnotation`. -/
structure TurnAnnotation where
  id : String
  content : String

/-- `PrimaryPathUiSnapshot`; the entries are known by their identities. -/
structure PrimaryPathSnapshot where
  rebuiltAt : String
  throughEventSequence : Nat
  primaryPathEntries : List String
  currentLeaf : Option SemanticEntryRef
  rootEntry : Option SemanticEntryRef
  currentPrimaryPathLeaf : Option SemanticEntryRef
  labels : List (String × String)
  turnAnnotations : List TurnAnnotation
  turnState : TurnState

inductive PrimaryPathPayload
  | turnStarted (turnRecord : TurnRecordSummary)
  | assistantPartial
  | usageUpdated
  | toolCallStarted
  | toolCallCompleted
  | summaryUpdated (turnRecordId : String) (summary : CompactTurnSummary)
  | assistantCommitted (turnRecord : TurnRecordSummary) (rootEntry currentLeaf : Option SemanticEntryRef)
  | turnAnnotationChanged (note : TurnAnnotation)
  | labelChanged (targetId label : Option String)
  | changed (rootEntry currentLeaf : Option SemanticEntryRef)

structure PrimaryPathFrame where
  payload : PrimaryPathPayload
  eventSequence : Option Nat
  sentAt : String

def PrimaryPathFrame.seq (frame : PrimaryPathFrame) : Nat := frame.eventSequence.getD 0

/-! ## A frame on a snapshot -/

/-- `isFullPrimaryPathDetailFrame`. -/
def isFullDetail : PrimaryPathPayload → Bool
  | .assistantPartial | .usageUpdated | .toolCallStarted | .toolCallCompleted => true
  | _ => false

def updateSemanticLeafRefs (snapshot : PrimaryPathSnapshot) (rootEntry currentLeaf : Option SemanticEntryRef) : PrimaryPathSnapshot :=
  { snapshot with currentLeaf := currentLeaf, rootEntry := rootEntry, currentPrimaryPathLeaf := currentLeaf }

def applyMetadataFrame (snapshot : PrimaryPathSnapshot) : PrimaryPathPayload → PrimaryPathSnapshot
  | .assistantCommitted _ rootEntry currentLeaf =>
    { updateSemanticLeafRefs snapshot rootEntry currentLeaf with turnState := ⟨none, false, none⟩ }
  | .turnAnnotationChanged note =>
    { snapshot with
      turnAnnotations :=
        if snapshot.turnAnnotations.any fun n => n.id = note.id then
          snapshot.turnAnnotations.map fun n => if n.id = note.id then note else n
        else snapshot.turnAnnotations ++ [note] }
  | .labelChanged targetId label =>
    match targetId with
    | some target =>
      if target = "" ∨ target ∉ snapshot.primaryPathEntries then snapshot
      else
        match label.filter (· ≠ "") with
        | some text => { snapshot with labels := setField snapshot.labels target text }
        | none => { snapshot with labels := snapshot.labels.filter fun l => l.1 ≠ target }
    | none => snapshot
  | .changed rootEntry currentLeaf => updateSemanticLeafRefs snapshot rootEntry currentLeaf
  | _ => snapshot

/-- The active turn of a turn that starts. -/
def ActiveTurn.started (turn : TurnRecordSummary) : ActiveTurn :=
  { emptyCompactTurnSummary with
    turnRecordId := turn.id
    turnId := turn.turnId
    turnType := turn.turnType
    pathType := turn.pathType
    startedAt := turn.startedAt
    summaryPending := true }

/-- `{ ...active, ...summary, summaryPending: false }`. -/
def ActiveTurn.summarized (active : ActiveTurn) (summary : CompactTurnSummary) : ActiveTurn :=
  { active with toCompactTurnSummary := summary, summaryPending := false }

/-- A summary changes the active turn it belongs to, when it reaches further. -/
def applySummary (snapshot : PrimaryPathSnapshot) (through : Nat) (turnRecordId : String) (summary : CompactTurnSummary) :
    PrimaryPathSnapshot :=
  match snapshot.turnState.activeTurn with
  | some active =>
    if active.turnRecordId ≠ turnRecordId ∨ summary.throughEventSequence ≤ active.throughEventSequence then snapshot
    else
      { snapshot with
        throughEventSequence := through
        turnState := { snapshot.turnState with activeTurn := some (active.summarized summary) } }
  | none => snapshot

/-- Another turn than the one that was committed is active. -/
def committedElsewhere (snapshot : PrimaryPathSnapshot) : PrimaryPathPayload → Bool
  | .assistantCommitted turnRecord _ _ => snapshot.turnState.activeTurn.any fun active => active.turnRecordId ≠ turnRecord.id
  | _ => false

def applyPrimaryPathFrame (snapshot : PrimaryPathSnapshot) (frame : PrimaryPathFrame) : PrimaryPathSnapshot :=
  let through := frame.eventSequence.getD snapshot.throughEventSequence
  if frame.eventSequence.any fun n => n ≤ snapshot.throughEventSequence then snapshot
  else
    match frame.payload with
    | .summaryUpdated turnRecordId summary => applySummary snapshot through turnRecordId summary
    | .turnStarted turn =>
      { snapshot with
        throughEventSequence := through
        turnState := ⟨some turn.id, true, some (.started turn)⟩ }
    | payload =>
      if isFullDetail payload || committedElsewhere snapshot payload then snapshot
      else { applyMetadataFrame snapshot payload with throughEventSequence := through }

/-! ## Buffering and replaying -/

/-- The turn whose summary a frame is. -/
def PrimaryPathFrame.summaryOf (frame : PrimaryPathFrame) : Option String :=
  match frame.payload with
  | .summaryUpdated turnRecordId _ => some turnRecordId
  | _ => none

/-- `bufferPrimaryPathFrame` on the queue of an instance. -/
def bufferPrimaryPathFrame (queued : List PrimaryPathFrame) (frame : PrimaryPathFrame) : List PrimaryPathFrame :=
  match frame.summaryOf with
  | some id => (queued.eraseP fun f => decide (f.summaryOf = some id)) ++ [frame]
  | none => queued ++ [frame]

section Replay

variable (compareTimestampStrings : String → String → Int)

def shouldReplayPrimaryPathFrameAfterSnapshot (frame : PrimaryPathFrame) (snapshot : PrimaryPathSnapshot) : Bool :=
  match frame.eventSequence with
  | some n => decide (snapshot.throughEventSequence < n)
  | none => decide (0 < compareTimestampStrings frame.sentAt snapshot.rebuiltAt)

/-- The comparison that `sort` is given. -/
def compareFrames (a b : PrimaryPathFrame) : Int :=
  match a.eventSequence, b.eventSequence with
  | some m, some n => m - n
  | _, _ => compareTimestampStrings a.sentAt b.sentAt

def replayPrimaryPathFramesAfterSnapshot (snapshot : PrimaryPathSnapshot) (frames : List PrimaryPathFrame) : PrimaryPathSnapshot :=
  (frames.mergeSort fun a b => decide (compareFrames compareTimestampStrings a b ≤ 0)).foldl
    (fun next frame =>
      if shouldReplayPrimaryPathFrameAfterSnapshot compareTimestampStrings frame next then applyPrimaryPathFrame next frame else next)
    snapshot

end Replay

end Leitwerk.Ui
