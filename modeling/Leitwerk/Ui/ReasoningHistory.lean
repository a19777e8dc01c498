import Leitwerk.Lib.Json
import Leitwerk.Protocol.LiveTurn
/-!
# The expanded history of a turn

`ReasoningHistory` of `reasoning-history.ts`: a response replaces the base, and
the frames that came in while it was asked for are replayed on it. What it shows
is a view: the events by sequence number and the projection. `View.record` is
one later frame; a history shows its base followed by the later frames.
-/

namespace Leitwerk.Ui

open Protocol Protocol.LiveTurn

structure WsFrame where
  type : String
  instanceId : String
  payload : Payload
  eventSequence : Option Nat
  sentAt : JsString

/-- `ProcessEvent`. -/
structure ProcessEvent where
  id : String
  instanceId : String
  eventSequence : Option Nat
  eventType : String
  data : Payload
  createdAt : JsString

/-- `PI_EVENT_TYPES`. -/
def piEventTypes : List (String × String) :=
  [("pi.stream.delta", "pi.stream.delta"), ("pi.stream.started", "pi.turn.start"), ("pi.stream.completed", "pi.turn.end"),
    ("pi.tool.started", "pi.tool.call"), ("pi.tool.completed", "pi.tool.result"), ("pi.usage", "pi.usage"),
    ("pi.error", "pi.error"), ("pi.retry.start", "pi.retry.start"), ("pi.retry.end", "pi.retry.end"),
    ("pi.compaction.start", "pi.compaction.start"), ("pi.compaction.end", "pi.compaction.end")]

/-- The sequence number of a frame that has one. -/
def WsFrame.seq (frame : WsFrame) : Nat := frame.eventSequence.getD 0

def WsFrame.eventType (frame : WsFrame) : String := (piEventTypes.lookup frame.type).getD ""

/-- `frame.payload.turnRecordId`, when it is there. -/
def WsFrame.turnRecordId (frame : WsFrame) : Option JsString :=
  match frame.payload.lookup "turnRecordId" with
  | some (.str id) => some id
  | _ => none

/-- A frame of the turn that the history takes in. -/
def WsFrame.concerns (frame : WsFrame) (instanceId : String) (turnRecordId : JsString) : Bool :=
  decide (frame.instanceId = instanceId) && decide (frame.turnRecordId = some turnRecordId) &&
    frame.eventSequence.isSome && (piEventTypes.lookup frame.type).isSome

/-- `TurnReasoningDetailResponseBody`, with the events of an inspection. -/
structure Response where
  instanceId : String
  turnRecordId : JsString
  /-- `state === "committed"`. -/
  committed : Bool
  throughEventSequence : Nat
  reasoning : TraceSnapshot
  events : Option (List ProcessEvent)

/-- What is shown. -/
structure View where
  inspectionEvents : List (Nat × ProcessEvent)
  projection : Projection

structure ReasoningHistory extends View where
  instanceId : String
  turnRecordId : JsString
  boundary : Nat
  buffered : List (Nat × WsFrame)
  pending : Bool
  committed : Bool

/-- The event and the projection's step of a frame. -/
def View.record (host : Host) (instanceId : String) (view : View) (frame : WsFrame) : View where
  inspectionEvents := setField view.inspectionEvents frame.seq
    { id := s!"event:{frame.seq}"
      instanceId := instanceId
      eventSequence := some frame.seq
      eventType := frame.eventType
      data := frame.payload
      createdAt := frame.sentAt }
  projection := view.projection.run host [⟨frame.eventType, frame.payload, frame.sentAt⟩]

/-- `new Map(events.flatMap(...))`: the events that have a sequence number. -/
def eventMap (events : List ProcessEvent) : List (Nat × ProcessEvent) :=
  events.foldl (fun map event => match event.eventSequence with | some n => setField map n event | none => map) []

namespace ReasoningHistory

def create (instanceId : String) (turnRecordId : JsString) : ReasoningHistory where
  inspectionEvents := []
  projection := .create
  instanceId := instanceId
  turnRecordId := turnRecordId
  boundary := 0
  buffered := []
  pending := false
  committed := false

def beginRequest (h : ReasoningHistory) : ReasoningHistory := { h with pending := true }

def failedRequest (h : ReasoningHistory) : ReasoningHistory := { h with pending := false, buffered := [] }

/-- `apply`: whether the frame was taken in. -/
def apply (host : Host) (h : ReasoningHistory) (frame : WsFrame) : ReasoningHistory × Bool :=
  if h.committed || frame.eventSequence.isNone || decide (frame.seq ≤ h.boundary) then (h, false)
  else ({ h with toView := h.toView.record host h.instanceId frame, boundary := frame.seq }, true)

/-- The base of an accepted response, before the buffered frames. -/
def rebase (h : ReasoningHistory) (response : Response) : ReasoningHistory :=
  { h with
    inspectionEvents := (response.events.map eventMap).getD h.inspectionEvents
    projection := restoreTurnTraceProjection response.reasoning
    boundary := response.throughEventSequence
    committed := response.committed
    pending := false }

def bufferedInOrder (h : ReasoningHistory) : List WsFrame :=
  (h.buffered.map Prod.snd).mergeSort fun a b => decide (a.seq ≤ b.seq)

def accept (host : Host) (h : ReasoningHistory) (response : Response) : Except String ReasoningHistory :=
  if response.instanceId ≠ h.instanceId ∨ response.turnRecordId ≠ h.turnRecordId then
    .error "Reasoning response belongs to another turn"
  else
    .ok { h.bufferedInOrder.foldl (fun h frame => (h.apply host frame).1) (h.rebase response) with buffered := [] }

/-- `push`: whether a snapshot is returned. -/
def push (host : Host) (h : ReasoningHistory) (frame : WsFrame) : ReasoningHistory × Bool :=
  if frame.concerns h.instanceId h.turnRecordId then
    { h with buffered := if h.pending then setField h.buffered frame.seq frame else h.buffered }.apply host frame
  else (h, false)

/-- `snapshot()`: the trace, and the events in the order of their sequence numbers. -/
def snapshot (host : Host) (h : ReasoningHistory) : TraceSnapshot × List ProcessEvent :=
  (h.projection.snapshot host none,
    (h.inspectionEvents.map Prod.snd).mergeSort fun a b => decide (a.eventSequence.getD 0 ≤ b.eventSequence.getD 0))

end ReasoningHistory

end Leitwerk.Ui
