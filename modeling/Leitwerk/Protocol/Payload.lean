import Leitwerk.Lib.JsString
import Leitwerk.Lib.Table
import Mathlib.Data.List.Infix
/-!
# Payloads of live turn events

The readers of `ws-event-payloads.ts`, `usage-snapshot.ts` and
`tool-result-truncation.ts` over JSON values. A number is an IEEE double. What
the host language computes from text (numbers, dates, collation, JSON) is a
parameter, `Host`, of which nothing is assumed.
-/

namespace Leitwerk.Protocol

open JsString (lit)

/-- A JSON value. A field that is absent is `undefined`. -/
inductive Value where
  | null
  | bool (b : Bool)
  | num (x : Float)
  | str (s : JsString)
  | arr (xs : List Value)
  | obj (fields : List (String × Value))

/-- `WsEventPayloadRecord`. -/
abbrev Payload := List (String × Value)

/-- `{ ...data, [key]: value }`. -/
def Payload.set (data : Payload) (key : String) (value : Value) : Payload :=
  if key ∈ data.map Prod.fst then data.map fun f => if f.1 = key then (f.1, value) else f
  else data ++ [(key, value)]

/-- What the host computes from strings and values. -/
structure Host where
  /-- `Number(s)`. -/
  number : JsString → Float
  /-- `` `${x}` `` of a number. -/
  numberText : Float → JsString
  /-- `JSON.stringify(value, null, 2)`. -/
  stringify : Value → JsString
  /-- `Date.parse`, when it is finite. -/
  dateParse : JsString → Option Int
  localeCompare : JsString → JsString → Int
  toLowerCase : JsString → JsString

/-! ## Readers -/

/-- `asUnknownRecord`. -/
def asUnknownRecord : Option Value → Option Payload
  | some (.obj fields) => some fields
  | _ => none

/-- `asWsEventPayloadRecord`. -/
def asWsEventPayloadRecord (value : Option Value) : Payload := (asUnknownRecord value).getD []

/-- `readWsEventNonEmptyString`, which is `trimToNull`. -/
def readNonEmptyString : Option Value → Option JsString
  | some (.str s) => if s.trim = [] then none else some s.trim
  | _ => none

/-- `readNonBlankString`. -/
def readNonBlankString : Option Value → Option JsString
  | some (.str s) => if s.trim = [] then none else some s
  | _ => none

/-- `readWsEventTimestamp`. -/
def readTimestamp (data : Payload) (fallbackTimestamp : JsString) : JsString :=
  (readNonEmptyString (data.lookup "timestamp")).getD fallbackTimestamp

/-- `readWsEventStreamText`. -/
def readStreamText (data : Payload) : Option JsString :=
  match data.lookup "text", data.lookup "delta", data.lookup "chunk" with
  | some (.str s), _, _ => some s
  | _, some (.str s), _ => some s
  | _, _, some (.str s) => some s
  | _, _, _ => none

/-- `readWsEventToolName`. -/
def readToolName (data : Payload) : JsString :=
  (readNonEmptyString (data.lookup "name")).getD ((readNonEmptyString (data.lookup "toolName")).getD (lit "tool"))

/-- `value ?? other` of fields. -/
def orElseNullish (value other : Option Value) : Option Value :=
  match value with
  | none | some .null => other
  | _ => value

/-- `readWsEventToolArguments`. -/
def readToolArguments (data : Payload) : Option Payload :=
  asUnknownRecord (orElseNullish (data.lookup "arguments") (data.lookup "args"))

/-- `readWsEventToolCallId`. -/
def readToolCallId (data : Payload) : Option JsString := readNonEmptyString (data.lookup "toolCallId")

/-- The identity `resolveWsEventToolCallId` makes up for a call without one. -/
def fallbackToolCallId (toolName timestamp : JsString) (ordinal : Nat) : JsString :=
  toolName ++ lit ":" ++ timestamp ++ if ordinal = 0 then [] else lit ":" ++ JsString.digits 10 ordinal

def isTrue : Option Value → Bool
  | some (.bool b) => b
  | _ => false

/-! ## Usage -/

/-- `UsageCostSnapshot`. -/
structure UsageCost where
  input : Float
  output : Float
  cacheRead : Float
  cacheWrite : Float
  total : Float

/-- `UsageSnapshot`. -/
structure Usage where
  input : Float
  output : Float
  reasoning : Option Float
  cacheRead : Float
  cacheWrite : Float
  totalTokens : Float
  cost : Option UsageCost
  requestCount : Option Float
  maxInputTokens : Option Float

/-- `readFiniteNumber` of `usage-snapshot.ts`. -/
def readUsageNumber : Option Value → Option Float
  | some (.num x) => if x.isFinite then some x else none
  | _ => none

/-- `normalizeUsageCostSnapshot`. -/
def normalizeUsageCost (value : Option Value) : Option UsageCost := do
  let record ← asUnknownRecord value
  let read key := (readUsageNumber (record.lookup key)).getD 0
  let input := read "input"
  let output := read "output"
  let cacheRead := read "cacheRead"
  let cacheWrite := read "cacheWrite"
  return {
    input, output, cacheRead, cacheWrite
    total := (readUsageNumber (record.lookup "total")).getD (input + output + cacheRead + cacheWrite) }

/-- `normalizeUsageSnapshot`. -/
def normalizeUsage (record : Payload) : Option Usage :=
  let read key := readUsageNumber (record.lookup key)
  let input := (read "input").getD 0
  let output := (read "output").getD 0
  let cacheRead := (read "cacheRead").getD 0
  let cacheWrite := (read "cacheWrite").getD 0
  let cost := normalizeUsageCost (record.lookup "cost")
  let hasExplicitUsageTelemetry :=
    (["input", "output", "reasoning", "cacheRead", "cacheWrite", "totalTokens"].any fun key => (read key).isSome) ||
      cost.isSome
  if hasExplicitUsageTelemetry then
    some {
      input, output, cacheRead, cacheWrite, cost
      reasoning := read "reasoning"
      totalTokens := (read "totalTokens").getD (input + output + cacheRead + cacheWrite)
      requestCount := some (max 0 ((read "requestCount").getD 1).floor)
      maxInputTokens := some ((read "maxInputTokens").elim input (max 0)) }
  else none

/-- `mergeUsageSnapshots`. -/
def mergeUsage : Option Usage → Option Usage → Option Usage
  | total, none => total
  | none, usage => usage
  | some total, some usage =>
    let hasRequestMetrics := total.requestCount.isSome || usage.requestCount.isSome ||
      total.maxInputTokens.isSome || usage.maxInputTokens.isSome
    some {
      input := total.input + usage.input
      output := total.output + usage.output
      reasoning :=
        if total.reasoning.isSome || usage.reasoning.isSome then
          some (total.reasoning.getD 0 + usage.reasoning.getD 0)
        else none
      cacheRead := total.cacheRead + usage.cacheRead
      cacheWrite := total.cacheWrite + usage.cacheWrite
      totalTokens := total.totalTokens + usage.totalTokens
      cost := match total.cost, usage.cost with
        | some a, some b => some {
            input := a.input + b.input
            output := a.output + b.output
            cacheRead := a.cacheRead + b.cacheRead
            cacheWrite := a.cacheWrite + b.cacheWrite
            total := a.total + b.total }
        | _, _ => none
      requestCount :=
        if hasRequestMetrics then some (total.requestCount.getD 1 + usage.requestCount.getD 1) else none
      maxInputTokens :=
        if hasRequestMetrics then
          some (max (total.maxInputTokens.getD total.input) (usage.maxInputTokens.getD usage.input))
        else none }

/-! ## Operational events -/

/-- `readFiniteNumber` of the domain package. -/
def readFiniteNumber (host : Host) : Option Value → Option Float
  | some (.num x) => if x.isFinite then some x else none
  | some (.str s) => if s.trim ≠ [] ∧ (host.number s).isFinite then some (host.number s) else none
  | _ => none

/-- `text.replace(/[_-]+/g, " ")`. -/
def spaceSeparators : JsString → JsString
  | [] => []
  | [u] => if u = 0x5f ∨ u = 0x2d then lit " " else [u]
  | u :: v :: rest =>
    if u = 0x5f ∨ u = 0x2d then
      if v = 0x5f ∨ v = 0x2d then spaceSeparators (v :: rest) else lit " " ++ spaceSeparators (v :: rest)
    else u :: spaceSeparators (v :: rest)

/-- `formatReason`. -/
def formatReason (value : Option Value) : Option JsString := (readNonBlankString value).map spaceSeparators

/-- `firstMessage`. -/
def firstMessage (data : Payload) (keys : List String) : Option JsString :=
  keys.findSome? fun key => readNonBlankString (data.lookup key)

/-- `retryStartFallbackMessage`. -/
def retryStartFallbackMessage (host : Host) (data : Payload) : JsString :=
  let attemptLabel := match readFiniteNumber host (data.lookup "attempt"), readFiniteNumber host (data.lookup "maxAttempts") with
    | some attempt, some maxAttempts => lit " " ++ host.numberText attempt ++ lit "/" ++ host.numberText maxAttempts
    | _, _ => []
  let delayLabel := match readFiniteNumber host (data.lookup "delayMs") with
    | some delayMs => if 0 < delayMs then lit " in " ++ host.numberText delayMs ++ lit "ms" else []
    | none => []
  lit "Retry" ++ attemptLabel ++ lit " scheduled" ++ delayLabel ++ lit "."

/-- `retryEndFallbackMessage`. -/
def retryEndFallbackMessage (host : Host) (data : Payload) : JsString :=
  let verb := if isTrue (data.lookup "success") then lit "Retry sequence succeeded" else lit "Retry sequence ended"
  match readFiniteNumber host (data.lookup "attempt") with
  | some attempt =>
    verb ++ lit " after " ++ host.numberText attempt ++ lit " " ++
      (if attempt == 1 then lit "retry" else lit "retries") ++ lit "."
  | none => verb ++ lit "."

inductive Severity where
  | error | warning | success | info
  deriving DecidableEq

/-- `PrimaryPathOperationalTraceItemSnapshot`. -/
structure OperationalItem where
  eventType : String
  timestamp : JsString
  severity : Severity
  title : JsString
  message : JsString
  deriving DecidableEq

/-- What an operational event is presented as. -/
def operationalPresentation (host : Host) (eventType : String) (data : Payload) :
    Option (Severity × JsString × JsString) :=
  match eventType with
  | "pi.error" =>
    some (.error, lit "Pi request failed",
      (firstMessage data ["message", "errorMessage", "finalError"]).getD (lit "Pi reported an error."))
  | "pi.retry.start" =>
    some (.warning, lit "Retry scheduled",
      (firstMessage data ["message", "errorMessage"]).getD (retryStartFallbackMessage host data))
  | "pi.retry.end" =>
    let success := isTrue (data.lookup "success")
    some (if success then .success else .error, lit (if success then "Retry succeeded" else "Retry exhausted"),
      (firstMessage data ["message", "finalError", "errorMessage"]).getD (retryEndFallbackMessage host data))
  | "pi.compaction.start" =>
    some (.info, lit "Context compaction started",
      match formatReason (data.lookup "reason") with
      | some reason => lit "Pi started compacting context (" ++ reason ++ lit ")."
      | none => lit "Pi started compacting context.")
  | "pi.compaction.end" =>
    let reason := formatReason (data.lookup "reason")
    let errorMessage := firstMessage data ["errorMessage", "message"]
    let aborted := isTrue (data.lookup "aborted")
    some (if errorMessage.isSome then .error else if aborted then .warning else .success,
      lit (if errorMessage.isSome then "Context compaction failed"
        else if aborted then "Context compaction cancelled" else "Context compacted"),
      errorMessage.getD
        (if aborted then lit "Context compaction was cancelled."
         else lit "Pi compacted context" ++ (reason.elim [] fun r => lit " (" ++ r ++ lit ")") ++ lit "." ++
           if isTrue (data.lookup "willRetry") then lit " Pi will continue automatically." else []))
  | _ => none

/-- `buildPrimaryPathOperationalTraceItem`. -/
def buildOperationalItem (host : Host) (eventType : String) (data : Payload) (fallbackTimestamp : JsString) :
    Option OperationalItem :=
  (operationalPresentation host eventType data).map fun (severity, title, message) =>
    { eventType, timestamp := readTimestamp data fallbackTimestamp, severity, title, message }

/-! ## Tool results -/

/-- `TOOL_TRUNCATION_BOOLEAN_KEYS`. -/
def truncationKeys : List String :=
  ["truncated", "isTruncated", "wasTruncated", "outputTruncated", "resultTruncated"]

/-- `TOOL_TRUNCATION_TEXT_MARKERS`. -/
def truncationMarkers : List String :=
  ["output truncated", "result truncated", "response was too big", "too large to display", "truncated after",
    "truncated to last", "truncated since"]

/-- `readTruncationPayload`. -/
def readTruncationPayload (value : Option Value) : Option Value := do
  let record ← asUnknownRecord value
  (record.lookup "truncation").or (truncationKeys.findSome? fun key => record.lookup key)

/-- `isExplicitFalseTruncationString`. -/
def isExplicitFalseTruncationString (host : Host) (s : JsString) : Bool :=
  (["", "false", "none", "null", "no", "0"].map lit).contains (host.toLowerCase s.trim)

/-- `isTruthyTruncationValue`. -/
def isTruthyTruncationValue (host : Host) : Value → Bool
  | .null => false
  | .bool b => b
  | .num x => x.isFinite && 0 < x
  | .str s => !isExplicitFalseTruncationString host s
  | .arr xs => !xs.isEmpty
  | .obj fields => truncationKeys.any (fun key => isTrue (fields.lookup key)) || truthyFields fields
where
  /-- `Object.keys(record).some(...)` over the fields that are no truncation flags. -/
  truthyFields : List (String × Value) → Bool
    | [] => false
    | (key, value) :: rest => (!truncationKeys.contains key && isTruthyTruncationValue host value) || truthyFields rest

/-- `isToolResultTruncated`. -/
def isToolResultTruncated (host : Host) (resultText : Option JsString) (resultDetails resultValue : Option Value) : Bool :=
  let normalizedText := resultText.elim [] host.toLowerCase
  truncationMarkers.any (fun marker => decide (lit marker <:+: normalizedText)) ||
    (readTruncationPayload resultDetails).any (isTruthyTruncationValue host) ||
    (readTruncationPayload resultValue).any (isTruthyTruncationValue host)

/-- `extractPiSessionMessageText`. -/
def extractPiSessionMessageText : Value → JsString
  | .str s => s
  | .arr blocks => blocks.flatMap fun
    | .obj fields => match fields.lookup "type", fields.lookup "text" with
      | some (.str kind), some (.str text) => if kind = lit "text" then text else []
      | _, _ => []
    | _ => []
  | _ => []

/-- The displayed text of a tool result. -/
def toolResultText (host : Host) : Value → Option JsString
  | .null => none
  | .str s => some s
  | .obj fields => match fields.lookup "content" with
    | some content => some (extractPiSessionMessageText content)
    | none => some (host.stringify (.obj fields))
  | value => some (host.stringify value)

/-! ## Fields that are set -/

theorem lookup_set (data : Payload) (key other : String) (value : Value) :
    (data.set key value).lookup other = if other = key then some value else data.lookup other := by
  unfold Payload.set
  split
  · rename_i hmem
    rw [Table.lookup_modify data key other fun _ => value]
    split
    · rename_i heq
      subst heq
      cases hrow : data.lookup other with
      | none => exact absurd hmem (Table.lookup_eq_none_iff.1 hrow)
      | some _ => rfl
    · rfl
  · rename_i hmem
    rw [Table.lookup_append]
    split
    · rename_i heq
      subst heq
      rw [Table.lookup_eq_none_iff.2 hmem]
      simp
    · rename_i hne
      simp [List.lookup_cons, beq_eq_false_iff_ne.2 hne]

theorem lookup_set_ne (data : Payload) {key other : String} (value : Value) (h : other ≠ key) :
    (data.set key value).lookup other = data.lookup other := by
  rw [lookup_set, if_neg h]

/-- The call a payload names once an identity that needs no trimming is set. -/
theorem readToolCallId_set (data : Payload) {id : JsString} (h : id.Trimmed) :
    readToolCallId (data.set "toolCallId" (.str id)) = some id := by
  unfold readToolCallId
  rw [lookup_set, if_pos rfl]
  simp [readNonEmptyString, h.2, h.1]

/-- A text that was read is trimmed. -/
theorem readNonEmptyString_trimmed {value : Option Value} {s : JsString} (h : readNonEmptyString value = some s) :
    s.Trimmed := by
  unfold readNonEmptyString at h
  split at h
  · split at h
    · cases h
    · rename_i hne
      cases h
      exact ⟨hne, JsString.trim_trim _⟩
  · cases h

end Leitwerk.Protocol
