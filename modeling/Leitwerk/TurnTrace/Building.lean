import Leitwerk.Protocol.Continuation
import Leitwerk.Protocol.EventOrder
/-!
# The trace of a turn

`process-turn-trace.ts`. A turn leaves two records: the entries of its session
and the events that were kept while it ran. `buildTurnTraceFromSession` makes a
trace of the entries, to which the events add diagnostics only;
`buildCommittedTurnTrace` returns that trace, or the one that is replayed from
the events where these hold more. How an implementation sorts is a parameter,
`sorter`.
-/

namespace Leitwerk.TurnTrace

open JsString (lit)
open Protocol LiveTurn

/-- `SessionEntry`: what places it in the tree, and all its other fields. -/
structure SessionEntry extends ContinuationTreeEntry where
  fields : Payload

/-- `TraceTurnRecord`. -/
structure TraceTurnRecord extends ContinuationTurnRecord where
  id : JsString
  turnType : TurnType
  endedAt : Option String := none

/-- What a committed trace is built from. -/
structure Turn where
  entries : List SessionEntry
  turnRecord : TraceTurnRecord
  events : List ProcessEvent

/-- `input.sort(compare)` of operational items. -/
abbrev Sorter := (OperationalItem → OperationalItem → Int) → List OperationalItem → List OperationalItem

/-! ## Entries of the session -/

/-- `traceSessionEntries`, of one entry: a custom message is user input. -/
def traceSessionEntry (entry : SessionEntry) : SessionEntry :=
  if entry.type = "custom_message" then
    let content := (entry.fields.lookup "content").elim [] fun content => [("content", content)]
    { entry with
      type := "message"
      fields := [("message", .obj (("role", .str (lit "user")) :: content))] }
  else entry

/-- The message of an entry that `isPiSessionMessageEntryWithRecord` accepts. -/
def SessionEntry.message? (entry : SessionEntry) : Option Payload :=
  if entry.type = "message" then asUnknownRecord (entry.fields.lookup "message") else none

/-- `createTurnContinuationIndex(entries).buildSlice`; the index keeps of entries with
one id the last. -/
def buildSessionSlice (host : Host) (entries : List SessionEntry) (turnRecord : TraceTurnRecord) : List SessionEntry :=
  (buildSlice (fun left right => compareTimestampStrings host (lit left) (lit right))
      (entries.map (·.toContinuationTreeEntry)) turnRecord.toContinuationTurnRecord { endedAt := turnRecord.endedAt }).filterMap
    fun entry => entries.reverse.find? (·.id = entry.id)

def isText (value : Option Value) (text : String) : Bool :=
  match value with
  | some (.str s) => s = lit text
  | _ => false

/-- The payload `isContentBlock` accepts. -/
def contentBlock? : Value → Option Payload
  | .obj fields => if (fields.lookup "type").isSome then some fields else none
  | _ => none

/-- `normalizeContentBlocks`. -/
def normalizeContentBlocks : Option Value → List Payload
  | some (.str text) => [[("type", .str (lit "text")), ("text", .str text)]]
  | some (.arr values) => values.filterMap contentBlock?
  | _ => []

/-- `extractPiSessionMessageText(message.content)`. -/
def messageText (message : Payload) : JsString := extractPiSessionMessageText ((message.lookup "content").getD .null)

/-- `extractToolResultValue`. -/
def extractToolResultValue (message : Payload) : Value :=
  match message.lookup "details" with
  | some details => details
  | none =>
    let text := (messageText message).trim
    if text ≠ [] then .str text else (message.lookup "content").getD .null

/-! ## Operational items -/

/-- What tells two operational items apart. -/
abbrev ItemKey := String × JsString × JsString

/-- Type, message and timestamp. -/
def itemKey (item : OperationalItem) : ItemKey := (item.eventType, item.message, item.timestamp)

def operational? : TraceItem → Option OperationalItem
  | .operational item => some item
  | _ => none

/-- The operational items of a trace, in order. -/
def operationalItems (items : List TraceItem) : List OperationalItem := items.filterMap operational?

/-- `appendOperationalTraceItem`. -/
def appendOperationalTraceItem (traceItems : List TraceItem) : Option OperationalItem → List TraceItem
  | none => traceItems
  | some item =>
    if (operationalItems traceItems).any fun existing =>
        existing.eventType = item.eventType && existing.message = item.message && existing.timestamp = item.timestamp then
      traceItems
    else traceItems ++ [.operational item]

/-- `{ [key]: value }` of a value that may be `null`. -/
def orNull (value : Option JsString) : Value := value.elim .null .str

/-- `buildAssistantErrorTraceItem`. -/
def buildAssistantErrorTraceItem (host : Host) (timestamp : JsString) (message : Payload) : Option OperationalItem :=
  if isText (message.lookup "role") "assistant" && isText (message.lookup "stopReason") "error" then
    match readNonBlankString (message.lookup "errorMessage") with
    | none => none
    | some errorMessage =>
      buildOperationalItem host "pi.error"
        [("message", .str errorMessage), ("errorMessage", .str errorMessage),
          ("provider", orNull (readNonBlankString (message.lookup "provider"))),
          ("model", orNull (readNonBlankString (message.lookup "model"))), ("timestamp", .str timestamp)]
        timestamp
  else none

/-- `buildCompactionEntryTraceItem`. -/
def buildCompactionEntryTraceItem (entry : SessionEntry) : Option OperationalItem :=
  if entry.type ≠ "compaction" then none
  else
    let summary := match entry.fields.lookup "summary" with
      | some (.str s) => s.trim
      | _ => []
    some {
      eventType := "pi.compaction.end"
      severity := .success
      title := lit "Context compacted"
      message := if summary ≠ [] then lit "Pi compacted context. Summary:\n" ++ summary else lit "Pi compacted context."
      timestamp := lit entry.timestamp }

/-- `eventTurnRecordId`. -/
def eventTurnRecordId (event : ProcessEvent) : Option JsString :=
  readNonBlankString ((asWsEventPayloadRecord event.data).lookup "turnRecordId")

/-- The operational item of an event. -/
def eventItem (host : Host) (event : ProcessEvent) : Option OperationalItem :=
  buildOperationalItem host event.eventType (asWsEventPayloadRecord event.data) event.createdAt

/-- The operational item of an entry. -/
def entryItem (host : Host) (entry : SessionEntry) : Option OperationalItem :=
  match entry.message? with
  | none => buildCompactionEntryTraceItem entry
  | some message => buildAssistantErrorTraceItem host (lit entry.timestamp) message

/-! ## Sorting -/

/-- How `compareOperationalTraceItems` compares what it reads. -/
def compareKeys (host : Host) (left right : ItemKey) : Int :=
  let byTimestamp := compareTimestampStrings host left.2.2 right.2.2
  if byTimestamp ≠ 0 then byTimestamp
  else
    let byType := host.localeCompare (lit left.1) (lit right.1)
    if byType ≠ 0 then byType else host.localeCompare left.2.1 right.2.1

/-- `compareOperationalTraceItems`. -/
def compareOperationalTraceItems (host : Host) (left right : OperationalItem) : Int :=
  compareKeys host (itemKey left) (itemKey right)

/-- The operational items of a trace replaced by others, one by one. -/
def replaceOperational : List TraceItem → List OperationalItem → List TraceItem
  | .operational _ :: items, next :: sorted => .operational next :: replaceOperational items sorted
  | item :: items, sorted => item :: replaceOperational items sorted
  | [], _ => []

/-- `ensureSortedTraceItems`. -/
def ensureSortedTraceItems (host : Host) (sorter : Sorter) (traceItems : List TraceItem) : List TraceItem :=
  replaceOperational traceItems (sorter (compareOperationalTraceItems host) (operationalItems traceItems))

/-! ## The trace of a session -/

/-- `TurnPiInputPart`. -/
structure TurnPiInputPart where
  text : JsString
  createdAt : JsString

/-- `MULTI_PART_PI_INPUT_SEPARATOR`. -/
def multiPartPiInputSeparator : JsString := lit "\n\n--- UI-added separator between Pi input messages ---\n\n"

/-- `buildTurnPiInputSnapshot`. -/
def buildTurnPiInputSnapshot (parts : List TurnPiInputPart) : Value :=
  match parts with
  | [] => .null
  | firstPart :: _ =>
    .obj [
      ("parts", .arr (parts.map fun part =>
        .obj [("role", .str (lit "user")), ("text", .str part.text), ("createdAt", .str part.createdAt)])),
      ("fullPrompt", .str (multiPartPiInputSeparator.intercalate (parts.map (·.text)))),
      ("createdAt", .str firstPart.createdAt), ("userInput", .null)]

/-- The variables of `buildTurnTraceFromSlice`. -/
structure SliceTrace where
  promptParts : List TurnPiInputPart
  assistant : Assistant
  toolCalls : List TraceToolCall
  traceItems : List TraceItem
  usage : Option Usage

namespace SliceTrace

def empty : SliceTrace := ⟨[], ⟨[], [], none⟩, [], [], none⟩

def ids (t : SliceTrace) : List JsString := t.toolCalls.map (·.toolCallId)

/-- A change of the call with an identity. -/
def updateCall (t : SliceTrace) (toolCallId : JsString) (f : TraceToolCall → TraceToolCall) : SliceTrace :=
  { t with toolCalls := t.toolCalls.map fun tool => if tool.toolCallId = toolCallId then f tool else tool }

/-- `ensureToolCall`. -/
def ensureToolCall (t : SliceTrace) (toolCallId toolName startedAt : JsString) (arguments : Option Payload) : SliceTrace :=
  if toolCallId ∈ t.ids then t.updateCall toolCallId fun tool => { tool with arguments := tool.arguments.or arguments }
  else
    { t with
      toolCalls := t.toolCalls ++ [{
        toolCallId, toolName, startedAt, arguments
        status := .running
        completedAt := none
        isError := false
        shown := ⟨none, false⟩ }]
      traceItems := t.traceItems ++ [.toolCall toolCallId] }

/-- A block of an assistant message. -/
def addBlock (timestamp : JsString) (t : SliceTrace) (block : Payload) : SliceTrace :=
  if isText (block.lookup "type") "thinking" then
    match block.lookup "thinking" with
    | some (.str thinking) =>
      if thinking = [] then t
      else
        { t with
          assistant := { t.assistant with thinking := t.assistant.thinking ++ thinking, lastUpdatedAt := some timestamp }
          traceItems := t.traceItems ++ [.thinking thinking] }
    | _ => t
  else if isText (block.lookup "type") "toolCall" then
    match readNonEmptyString (block.lookup "id"), readNonEmptyString (block.lookup "name") with
    | some toolCallId, some toolName =>
      t.ensureToolCall toolCallId toolName timestamp (asUnknownRecord (block.lookup "arguments"))
    | _, _ => t
  else if isText (block.lookup "type") "text" then
    match block.lookup "text" with
    | some (.str text) =>
      { t with assistant := { t.assistant with text := t.assistant.text ++ text, lastUpdatedAt := some timestamp } }
    | _ => t
  else t

/-- A message of the user. -/
def addPrompt (t : SliceTrace) (timestamp : JsString) (message : Payload) : SliceTrace :=
  let text := messageText message
  if text.trim = [] then t else { t with promptParts := t.promptParts ++ [⟨text, timestamp⟩] }

/-- A message of the assistant. -/
def addAssistant (t : SliceTrace) (timestamp : JsString) (message : Payload) : SliceTrace :=
  let t := (normalizeContentBlocks (message.lookup "content")).foldl (addBlock timestamp) t
  { t with usage := mergeUsage t.usage ((asUnknownRecord (message.lookup "usage")).bind normalizeUsage) }

/-- What a result changes of its call. -/
def completeCall (host : Host) (timestamp : JsString) (message : Payload) (tool : TraceToolCall) : TraceToolCall :=
  let rawResultText := messageText message
  let resultText := if rawResultText.trim = [] then none else some rawResultText
  { tool with
    status := .completed
    completedAt := some timestamp
    isError := isTrue (message.lookup "isError")
    shown := ⟨resultText, isToolResultTruncated host resultText (message.lookup "details") (some (extractToolResultValue message))⟩ }

/-- A message with the result of a tool. -/
def addToolResult (host : Host) (t : SliceTrace) (timestamp : JsString) (message : Payload) : SliceTrace :=
  match readNonEmptyString (message.lookup "toolCallId") with
  | none => t
  | some toolCallId =>
    let toolName := (readNonEmptyString (message.lookup "toolName")).getD (lit "tool")
    (t.ensureToolCall toolCallId toolName timestamp none).updateCall toolCallId (completeCall host timestamp message)

/-- What a message adds besides its diagnostics, by its role. -/
def addMessage (host : Host) (t : SliceTrace) (timestamp : JsString) (message : Payload) : SliceTrace :=
  let role := readNonEmptyString (message.lookup "role")
  if role = some (lit "user") then t.addPrompt timestamp message
  else if role = some (lit "assistant") then t.addAssistant timestamp message
  else if role = some (lit "toolResult") then t.addToolResult host timestamp message
  else t

def appendOperational (t : SliceTrace) (item : Option OperationalItem) : SliceTrace :=
  { t with traceItems := appendOperationalTraceItem t.traceItems item }

def addEntry (host : Host) (t : SliceTrace) (entry : SessionEntry) : SliceTrace :=
  match entry.message? with
  | none => t.appendOperational (buildCompactionEntryTraceItem entry)
  | some message =>
    (t.appendOperational (buildAssistantErrorTraceItem host (lit entry.timestamp) message)).addMessage host
      (lit entry.timestamp) message

def addEvent (host : Host) (turnRecordId : JsString) (t : SliceTrace) (event : ProcessEvent) : SliceTrace :=
  if eventTurnRecordId event = some turnRecordId then t.appendOperational (eventItem host event) else t

/-- The variables after the slice and the events. -/
def collect (host : Host) (turnRecordId : JsString) (turnSlice : List SessionEntry) (events : List ProcessEvent) : SliceTrace :=
  events.foldl (addEvent host turnRecordId) (turnSlice.foldl (addEntry host) empty)

/-- Whether there is nothing to trace. -/
def isEmpty (t : SliceTrace) : Bool :=
  t.assistant.text.isEmpty && t.assistant.thinking.isEmpty && t.toolCalls.isEmpty && t.usage.isNone &&
    t.promptParts.isEmpty && t.traceItems.isEmpty

def finish (host : Host) (sorter : Sorter) (t : SliceTrace) : TraceSnapshot :=
  { assistant := t.assistant
    toolCalls := t.toolCalls
    traceItems := ensureSortedTraceItems host sorter t.traceItems
    usage := t.usage
    piInput := buildTurnPiInputSnapshot t.promptParts }

end SliceTrace

/-- `buildTurnTraceFromSlice`. -/
def buildTurnTraceFromSlice (host : Host) (sorter : Sorter) (turnRecordId : JsString) (turnSlice : List SessionEntry)
    (events : List ProcessEvent) : Option TraceSnapshot :=
  let t := SliceTrace.collect host turnRecordId turnSlice events
  if t.isEmpty then none else some (t.finish host sorter)

namespace Turn

/-- The slice of the session that belongs to the turn. -/
def slice (host : Host) (turn : Turn) : List SessionEntry :=
  buildSessionSlice host (turn.entries.map traceSessionEntry) turn.turnRecord

/-- The events that name the turn. -/
def turnEvents (turn : Turn) : List ProcessEvent :=
  turn.events.filter fun event => eventTurnRecordId event = some turn.turnRecord.id

/-- `buildTurnTraceFromSession`. -/
def buildTurnTraceFromSession (host : Host) (sorter : Sorter) (turn : Turn) : Option TraceSnapshot :=
  if turn.turnRecord.turnType ≠ .llm then none
  else buildTurnTraceFromSlice host sorter turn.turnRecord.id (turn.slice host) turn.events

end Turn

/-! ## The committed trace -/

/-- `hasAdditionalRecordedActivity`. -/
def hasAdditionalRecordedActivity (recorded session : TraceSnapshot) : Bool :=
  if ¬ recorded.assistant.text <:+: session.assistant.text ∨ ¬ recorded.assistant.thinking <:+: session.assistant.thinking then
    true
  else
    recorded.toolCalls.any fun tool =>
      match session.toolCalls.reverse.find? (·.toolCallId = tool.toolCallId) with
      | none => true
      | some saved =>
        (tool.status = .completed && saved.status ≠ .completed) ||
          tool.shown.resultText.any fun text => !saved.shown.resultText.any fun savedText => decide (text <:+: savedText)

/-- The recorded trace with what it lacks of the one of the session. -/
def mergeSession (host : Host) (sorter : Sorter) (trace : TraceSnapshot) (sessionTrace : Option TraceSnapshot) : TraceSnapshot :=
  let sessionItems := sessionTrace.elim [] fun session => operationalItems session.traceItems
  let traceItems := sessionItems.foldl (fun items item => appendOperationalTraceItem items (some item)) trace.traceItems
  { trace with
    usage := trace.usage.or (sessionTrace.bind (·.usage))
    traceItems := ensureSortedTraceItems host sorter traceItems }

/-- `buildCommittedTurnTrace`. -/
def buildCommittedTurnTrace (host : Host) (sorter : Sorter) (turn : Turn) : TraceSnapshot :=
  let sessionTrace := turn.buildTurnTraceFromSession host sorter
  let trace := (createLiveTurnProjection host turn.turnEvents).snapshot host
    (some (sessionTrace.elim .null (·.piInput)))
  match sessionTrace with
  | some session =>
    if hasAdditionalRecordedActivity trace session then mergeSession host sorter trace (some session) else session
  | none => mergeSession host sorter trace none

end Leitwerk.TurnTrace
