import Leitwerk.Protocol.Payload
import Mathlib.Data.List.Perm.Subperm
/-!
# The projection of a live turn

`live-turn-projection.ts`. A projection takes the events of one turn in and
keeps what the turn shows: the text of the assistant, the tool calls, and the
trace that puts thinking, calls and operational events in order. Its snapshot
can be turned back into a projection, which then knows the calls only as they
were displayed and has no ordinal for made-up identities.
-/

namespace Leitwerk.Protocol.LiveTurn

open JsString (lit)

inductive CallStatus where
  | running | completed
  deriving DecidableEq

/-- What is displayed of a result. -/
structure ShownResult where
  resultText : Option JsString
  truncated : Bool
  deriving DecidableEq

/-- `ProjectionToolCall`. A result that is absent is `null`. -/
structure ToolCall where
  toolCallId : JsString
  toolName : JsString
  status : CallStatus
  startedAt : JsString
  completedAt : Option JsString
  arguments : Option Payload
  result : Value
  isError : Bool
  restoredResult : Option ShownResult

/-- `TurnTraceToolCallSnapshot`. -/
structure TraceToolCall where
  toolCallId : JsString
  toolName : JsString
  status : CallStatus
  startedAt : JsString
  completedAt : Option JsString
  arguments : Option Payload
  isError : Bool
  shown : ShownResult

/-- `PrimaryPathTraceItemSnapshot`. -/
inductive TraceItem where
  | thinking (text : JsString)
  | toolCall (toolCallId : JsString)
  | operational (item : OperationalItem)
  deriving DecidableEq

/-- `PrimaryPathStreamingAssistantSnapshot`. -/
structure Assistant where
  text : JsString
  thinking : JsString
  lastUpdatedAt : Option JsString
  deriving DecidableEq

/-- `LiveTurnProjectionState`. The calls are in the order of the map, which is
the order in which they were first seen. -/
structure State where
  assistant : Assistant
  traceItems : List TraceItem
  usage : Option Usage
  toolCalls : List ToolCall
  nextFallbackOrdinal : Nat

/-- `LiveTurnProjectionEvent`. -/
structure Event where
  eventType : String
  data : Payload
  fallbackTimestamp : JsString

/-- `AppliedLiveTurnProjectionEvent`. -/
structure Applied where
  canonicalData : Payload
  timestamp : JsString
  toolCallId : Option JsString
  toolName : Option JsString
  usage : Option Usage

/-- `createProjectionState`. -/
def State.empty : State := ⟨⟨[], [], none⟩, [], none, [], 1⟩

/-- The keys of the map. -/
def State.ids (s : State) : List JsString := s.toolCalls.map (·.toolCallId)

/-! ## Identities of calls -/

/-- The most recent call that runs under a name. -/
def State.openCall (s : State) (toolName : JsString) : Option ToolCall :=
  s.toolCalls.reverse.find? fun tool => tool.status = .running ∧ tool.toolName = toolName

/-- How many ordinals the loop of `canonicalizeToolCallId` passes over. Among one
more than there are calls, one is free (`skipped_free`). -/
def State.skipped (s : State) (toolName timestamp : JsString) : Nat :=
  ((List.range (s.toolCalls.length + 1)).find? fun k =>
    fallbackToolCallId toolName timestamp (s.nextFallbackOrdinal + k) ∉ s.ids).getD 0

/-- The ordinal of the identity that is made up. -/
def State.freeOrdinal (s : State) (toolName timestamp : JsString) : Nat :=
  s.nextFallbackOrdinal + s.skipped toolName timestamp

/-- `canonicalizeToolCallId`: the identity, and the next ordinal. -/
def canonicalizeToolCallId (s : State) (data : Payload) (timestamp toolName : JsString) (preferOpenCall : Bool) :
    JsString × Nat :=
  match readToolCallId data with
  | some explicitToolCallId => (explicitToolCallId, s.nextFallbackOrdinal)
  | none =>
    match if preferOpenCall then s.openCall toolName else none with
    | some openToolCall => (openToolCall.toolCallId, s.nextFallbackOrdinal)
    | none =>
      let ordinal := s.freeOrdinal toolName timestamp
      (fallbackToolCallId toolName timestamp ordinal, ordinal + 1)

/-! ## Events -/

/-- `appendThinkingTraceText`. -/
def appendThinkingTraceText (items : List TraceItem) (text : JsString) : List TraceItem :=
  if text = [] then items
  else match items.getLast? with
    | some (.thinking last) => items.dropLast ++ [.thinking (last ++ text)]
    | _ => items ++ [.thinking text]

/-- `ensureToolTraceItem`. -/
def ensureToolTraceItem (items : List TraceItem) (toolCallId : JsString) : List TraceItem :=
  if .toolCall toolCallId ∈ items then items else items ++ [.toolCall toolCallId]

/-- What a result changes of its call. -/
def ToolCall.complete (tool : ToolCall) (data : Payload) (timestamp : JsString) : ToolCall :=
  { tool with
    status := .completed
    completedAt := some timestamp
    result := (data.lookup "result").getD .null
    restoredResult := none
    isError := isTrue (data.lookup "isError") }

/-- A call as it is first seen. -/
def ToolCall.started (toolCallId toolName timestamp : JsString) (arguments : Option Payload) : ToolCall :=
  { toolCallId, toolName, arguments
    status := .running
    startedAt := timestamp
    completedAt := none
    result := .null
    isError := false
    restoredResult := none }

/-- A tool call or a result of the call `toolCallId`. -/
def State.recordTool (s : State) (isResult : Bool) (toolCallId toolName timestamp : JsString) (data : Payload) : State :=
  let started := ToolCall.started toolCallId toolName timestamp (if isResult then none else readToolArguments data)
  let toolCalls := if toolCallId ∈ s.ids then s.toolCalls else s.toolCalls ++ [started]
  { s with
    toolCalls :=
      if isResult then
        toolCalls.map fun tool => if tool.toolCallId = toolCallId then tool.complete data timestamp else tool
      else toolCalls
    traceItems := ensureToolTraceItem s.traceItems toolCallId }

/-- A chunk of the assistant's text or thinking. -/
def State.recordDelta (s : State) (data : Payload) (timestamp : JsString) : State :=
  match readStreamText data with
  | none | some [] => s
  | some text =>
    if readNonEmptyString (data.lookup "streamType") = some (lit "thinking") then
      { s with
        assistant := { s.assistant with thinking := s.assistant.thinking ++ text, lastUpdatedAt := some timestamp }
        traceItems := appendThinkingTraceText s.traceItems text }
    else
      { s with assistant := { s.assistant with text := s.assistant.text ++ text, lastUpdatedAt := some timestamp } }

def isToolEvent (eventType : String) : Bool := eventType = "pi.tool.call" || eventType = "pi.tool.result"

/-- The identity an event's call is given, and the next ordinal. -/
def State.target (s : State) (e : Event) : JsString × Nat :=
  canonicalizeToolCallId s e.data (readTimestamp e.data e.fallbackTimestamp) (readToolName e.data)
    (e.eventType = "pi.tool.result")

/-- The payload that names the call. -/
def State.canonicalData (s : State) (e : Event) : Payload :=
  if isToolEvent e.eventType then
    if readToolCallId e.data = some (s.target e).1 then e.data else e.data.set "toolCallId" (.str (s.target e).1)
  else e.data

/-- The state after `applyPiEventToLiveTurnProjection`. -/
def State.next (host : Host) (s : State) (e : Event) : State :=
  let timestamp := readTimestamp e.data e.fallbackTimestamp
  if e.eventType = "pi.stream.delta" then s.recordDelta e.data timestamp
  else if isToolEvent e.eventType then
    { s with nextFallbackOrdinal := (s.target e).2 }.recordTool (e.eventType = "pi.tool.result") (s.target e).1
      (readToolName e.data) timestamp (s.canonicalData e)
  else if e.eventType = "pi.usage" then { s with usage := mergeUsage s.usage (normalizeUsage e.data) }
  else match buildOperationalItem host e.eventType e.data e.fallbackTimestamp with
    | some item => { s with traceItems := s.traceItems ++ [.operational item] }
    | none => s

/-- `applyPiEventToLiveTurnProjection`. -/
def applyPiEvent (host : Host) (s : State) (e : Event) : State × Applied :=
  let isTool := isToolEvent e.eventType
  (s.next host e,
    { canonicalData := s.canonicalData e
      timestamp := readTimestamp e.data e.fallbackTimestamp
      toolCallId := if isTool then some (s.target e).1 else none
      toolName := if isTool then some (readToolName e.data) else none
      usage := (s.next host e).usage })

def State.run (host : Host) (s : State) (events : List Event) : State := events.foldl (State.next host) s

/-- The events with the canonical data that applying them returns. -/
def State.canonical (host : Host) : State → List Event → List Event
  | _, [] => []
  | s, e :: events =>
    let (s', applied) := applyPiEvent host s e
    { e with data := applied.canonicalData } :: s'.canonical host events

/-! ## Snapshots -/

/-- `snapshotToolTrace`. -/
def ToolCall.trace (host : Host) (tool : ToolCall) : TraceToolCall :=
  { toolCallId := tool.toolCallId
    toolName := tool.toolName
    status := tool.status
    startedAt := tool.startedAt
    completedAt := tool.completedAt
    arguments := tool.arguments
    isError := tool.isError
    shown := tool.restoredResult.getD
      { resultText := toolResultText host tool.result
        truncated := isToolResultTruncated host (toolResultText host tool.result)
          ((asUnknownRecord tool.result).bind (·.lookup "details")) tool.result } }

/-- `LiveTurnSnapshot`. -/
structure Snapshot where
  assistant : Assistant
  toolCalls : List ToolCall
  traceItems : List TraceItem
  usage : Option Usage

/-- `TurnTraceSnapshot`. The prompt is only handed on. -/
structure TraceSnapshot where
  assistant : Assistant
  toolCalls : List TraceToolCall
  traceItems : List TraceItem
  usage : Option Usage
  piInput : Value

/-- A projection with the prompt it retains. -/
structure Projection where
  state : State
  retainedPiInput : Value

namespace Projection

/-- `createLiveTurnProjection()`. -/
def create : Projection := ⟨.empty, .null⟩

/-- `rawSnapshot`. -/
def rawSnapshot (p : Projection) : Snapshot :=
  { assistant := p.state.assistant
    toolCalls := p.state.toolCalls.map ({ · with restoredResult := none })
    traceItems := p.state.traceItems
    usage := p.state.usage }

/-- `snapshot(piInput)`, where a prompt that is not given is the retained one. -/
def snapshot (host : Host) (p : Projection) (piInput : Option Value) : TraceSnapshot :=
  { assistant := p.state.assistant
    toolCalls := p.state.toolCalls.map (ToolCall.trace host)
    traceItems := p.state.traceItems
    usage := p.state.usage
    piInput := piInput.getD p.retainedPiInput }

/-- `apply` of each event. -/
def run (host : Host) (p : Projection) (events : List Event) : Projection :=
  { p with state := p.state.run host events }

end Projection

/-- A call of a trace, whose original result is not retained. -/
def TraceToolCall.restore (tool : TraceToolCall) : ToolCall :=
  { toolCallId := tool.toolCallId
    toolName := tool.toolName
    status := tool.status
    startedAt := tool.startedAt
    completedAt := tool.completedAt
    arguments := tool.arguments
    result := .null
    isError := tool.isError
    restoredResult := some tool.shown }

/-- `toolCallsById.set`. -/
def setCall (calls : List ToolCall) (tool : ToolCall) : List ToolCall :=
  if tool.toolCallId ∈ calls.map (·.toolCallId) then
    calls.map fun c => if c.toolCallId = tool.toolCallId then tool else c
  else calls ++ [tool]

/-- `restoreTurnTraceProjection`. -/
def restoreTurnTraceProjection (trace : TraceSnapshot) : Projection :=
  { state :=
      { State.empty with
        assistant := trace.assistant
        traceItems := trace.traceItems
        usage := trace.usage
        toolCalls := (trace.toolCalls.map TraceToolCall.restore).foldl setCall [] }
    retainedPiInput := trace.piInput }

/-- What is done with a projection: an event is applied, or it is replaced by
the one restored from its snapshot. -/
inductive Step where
  | apply (e : Event)
  | restore (piInput : Option Value)

def Projection.step (host : Host) (p : Projection) : Step → Projection
  | .apply e => p.run host [e]
  | .restore piInput => restoreTurnTraceProjection (p.snapshot host piInput)

/-- A projection that can be reached. -/
def Projection.reach (host : Host) (steps : List Step) : Projection := steps.foldl (Projection.step host) .create

/-! ## Identities that are made up -/

theorem fallback_injective {toolName timestamp : JsString} {m n : Nat}
    (h : fallbackToolCallId toolName timestamp m = fallbackToolCallId toolName timestamp n) : m = n := by
  unfold fallbackToolCallId at h
  rw [List.append_cancel_left_eq] at h
  split at h <;> split at h
  · omega
  · have := JsString.digits_ne_nil 10 n
    simp_all
  · have := JsString.digits_ne_nil 10 m
    simp_all
  · exact JsString.digits_injective (by omega) (by omega) (List.append_cancel_left h)

/-- Among one more ordinal than there are calls one gives an identity of its
own: the identities of different ordinals differ. -/
theorem exists_free (s : State) (toolName timestamp : JsString) :
    ∃ k < s.toolCalls.length + 1, fallbackToolCallId toolName timestamp (s.nextFallbackOrdinal + k) ∉ s.ids := by
  by_contra hall
  push Not at hall
  let made := (List.range (s.toolCalls.length + 1)).map fun k =>
    fallbackToolCallId toolName timestamp (s.nextFallbackOrdinal + k)
  have hnodup : made.Nodup := by
    apply List.Nodup.map _ List.nodup_range
    intro m n hmn
    have := fallback_injective hmn
    omega
  have hsub : made ⊆ s.ids := by
    intro id hid
    obtain ⟨k, hk, rfl⟩ := List.mem_map.1 hid
    exact hall k (List.mem_range.1 hk)
  have hlen := (List.subperm_of_subset hnodup hsub).length_le
  simp only [made, State.ids, List.length_map, List.length_range] at hlen
  omega

/-- The loop ends at an identity no call has. -/
theorem free_not_mem (s : State) (toolName timestamp : JsString) :
    fallbackToolCallId toolName timestamp (s.freeOrdinal toolName timestamp) ∉ s.ids := by
  obtain ⟨k, hk, hfree⟩ := exists_free s toolName timestamp
  unfold State.freeOrdinal State.skipped
  cases hfind : (List.range (s.toolCalls.length + 1)).find? fun k =>
      fallbackToolCallId toolName timestamp (s.nextFallbackOrdinal + k) ∉ s.ids with
  | none =>
    rw [List.find?_eq_none] at hfind
    exact absurd (decide_eq_true hfree) (hfind k (List.mem_range.2 hk))
  | some j => simpa using List.find?_some hfind

/-- A made-up identity needs no trimming: it starts with the name of the tool
and ends with a digit. -/
theorem fallback_trimmed {toolName timestamp : JsString} {ordinal : Nat} (hname : toolName.Trimmed) (hord : 0 < ordinal) :
    (fallbackToolCallId toolName timestamp ordinal).Trimmed := by
  obtain ⟨u, rest, rfl⟩ := List.exists_cons_of_ne_nil hname.1
  refine ⟨by simp [fallbackToolCallId], JsString.trim_eq_self ?_ ?_⟩
  · intro v hv
    have hvu : v = u := by simpa [fallbackToolCallId, eq_comm] using hv
    subst hvu
    have hhead : v ∈ (JsString.trim (v :: rest)).head? := by simp [hname.2]
    exact JsString.head_trim hhead
  · intro v hv
    have hdigits : v ∈ (JsString.digits 10 ordinal).getLast? := by
      unfold fallbackToolCallId at hv
      rw [if_neg (by omega), ← List.append_assoc, List.getLast?_append_of_ne_nil _ (JsString.digits_ne_nil _ _)] at hv
      exact hv
    exact JsString.getLast_digits (by omega) (by omega) hdigits

theorem readToolName_trimmed (data : Payload) : (readToolName data).Trimmed := by
  unfold readToolName
  cases hname : readNonEmptyString (data.lookup "name") with
  | some name => exact readNonEmptyString_trimmed hname
  | none =>
    cases htool : readNonEmptyString (data.lookup "toolName") with
    | some name => exact readNonEmptyString_trimmed htool
    | none => exact ⟨by decide, by decide⟩

end Leitwerk.Protocol.LiveTurn
