import Leitwerk.Protocol.LiveTurnRestore
import Leitwerk.Protocol.PreviewTail
/-!
# The compact summary of a turn

`applyEventToCompactTurnSummary` folds the events of a turn into counts and
previews, by rules of its own. `Agrees` is what the summary and the projection
of the same events should have in common; an event keeps it unless it meets one
of the rules in which the two folds differ (`Faithful`).
-/

namespace Leitwerk.Protocol.LiveTurn

open JsString (lit)

inductive TraceKind where
  | thinking | toolCall | operationalEvent
  deriving DecidableEq

def TraceItem.kind : TraceItem → TraceKind
  | .thinking _ => .thinking
  | .toolCall _ => .toolCall
  | .operational _ => .operationalEvent

/-- The tool call a summary shows. -/
structure CurrentTool where
  toolCallId : JsString
  toolName : JsString
  status : CallStatus
  isError : Bool

/-- `CompactTurnSummary`. -/
structure CompactTurnSummary where
  assistant : Assistant
  currentTool : Option CurrentTool
  usage : Option Usage
  toolCallCount : Nat
  traceItemCount : Nat
  throughEventSequence : Nat
  lastTraceKind : Option TraceKind

/-- An event as it is summarized. -/
structure SummaryEvent where
  eventType : String
  data : Payload
  createdAt : JsString
  eventSequence : Nat

/-- The event that the projection takes in. -/
def SummaryEvent.toEvent (e : SummaryEvent) : Event := ⟨e.eventType, e.data, e.createdAt⟩

/-- `emptyCompactTurnSummary`. -/
def emptyCompactTurnSummary : CompactTurnSummary := ⟨⟨[], [], none⟩, none, none, 0, 0, 0, none⟩

/-- `data.streamType === "thinking"`. -/
def isThinking (data : Payload) : Bool :=
  match data.lookup "streamType" with
  | some (.str s) => s = lit "thinking"
  | _ => false

/-- `PRIMARY_PATH_OPERATIONAL_PI_EVENT_TYPES`. -/
def operationalEventTypes : List String :=
  ["pi.error", "pi.retry.start", "pi.retry.end", "pi.compaction.start", "pi.compaction.end"]

/-- A delta. A missing text is concatenated as the word `null`. -/
def CompactTurnSummary.applyDelta (next : CompactTurnSummary) (data : Payload) (createdAt : JsString) : CompactTurnSummary :=
  let text := readStreamText data
  let suffix := text.getD (lit "null")
  let thinking := isThinking data
  let assistant :=
    { text := if thinking then next.assistant.text else reasoningPreviewTail (next.assistant.text ++ suffix)
      thinking := if thinking then reasoningPreviewTail (next.assistant.thinking ++ suffix) else next.assistant.thinking
      lastUpdatedAt :=
        if text.getD [] ≠ [] then some (readTimestamp data createdAt) else next.assistant.lastUpdatedAt }
  if thinking ∧ text.getD [] ≠ [] then
    { next with
      assistant
      traceItemCount := if next.lastTraceKind = some .thinking then next.traceItemCount else next.traceItemCount + 1
      lastTraceKind := some .thinking }
  else { next with assistant }

/-- A tool call or its result. -/
def CompactTurnSummary.applyTool (next : CompactTurnSummary) (isResult : Bool) (data : Payload) (eventSequence : Nat) :
    CompactTurnSummary :=
  let toolCallId := ((readToolCallId data).getD (lit "tool-" ++ JsString.digits 10 eventSequence)).take 256
  let counted :=
    if isResult then next
    else { next with
      toolCallCount := next.toolCallCount + 1
      traceItemCount := next.traceItemCount + 1
      lastTraceKind := some .toolCall }
  if isResult = false ∨ counted.currentTool.isNone ∨ counted.currentTool.map (·.toolCallId) = some toolCallId then
    { counted with
      currentTool := some {
        toolCallId := toolCallId.take 256
        toolName := (readToolName data).take 256
        status := if isResult then .completed else .running
        isError := isTrue (data.lookup "isError") } }
  else counted

/-- `applyEventToCompactTurnSummary`. -/
def applyEventToCompactTurnSummary (previous : CompactTurnSummary) (e : SummaryEvent) : CompactTurnSummary :=
  if e.eventSequence ≤ previous.throughEventSequence then previous
  else
    let next := { previous with throughEventSequence := e.eventSequence }
    if e.eventType = "pi.stream.delta" then next.applyDelta e.data e.createdAt
    else if isToolEvent e.eventType then next.applyTool (e.eventType = "pi.tool.result") e.data e.eventSequence
    else if e.eventType = "pi.usage" then { next with usage := mergeUsage next.usage (normalizeUsage e.data) }
    else if operationalEventTypes.contains e.eventType then
      { next with traceItemCount := next.traceItemCount + 1, lastTraceKind := some .operationalEvent }
    else next

/-- The summary of the events of a turn. -/
def summarize (events : List SummaryEvent) : CompactTurnSummary :=
  events.foldl applyEventToCompactTurnSummary emptyCompactTurnSummary

/-- The projection of the same events. -/
def project (host : Host) (events : List SummaryEvent) : State := State.empty.run host (events.map SummaryEvent.toEvent)

/-! ## Agreement -/

/-- What a summary and a projection of the same events have in common. -/
structure Agrees (summary : CompactTurnSummary) (s : State) : Prop where
  toolCallCount : summary.toolCallCount = s.toolCalls.length
  traceItemCount : summary.traceItemCount = s.traceItems.length
  lastTraceKind : summary.lastTraceKind = s.traceItems.getLast?.map TraceItem.kind
  usage : summary.usage = s.usage
  lastUpdatedAt : summary.assistant.lastUpdatedAt = s.assistant.lastUpdatedAt
  text : summary.assistant.text = reasoningPreviewTail s.assistant.text
  thinking : summary.assistant.thinking = reasoningPreviewTail s.assistant.thinking

/-- The two folds treat an event alike: its number is positive, a delta carries a
text, names its kind without blanks around it and finds what it needs in the
preview (`Kept`), a call is new, and a result belongs to a call. -/
def Faithful (s : State) (e : SummaryEvent) : Prop :=
  0 < e.eventSequence ∧
  if e.eventType = "pi.stream.delta" then
    ∃ text, readStreamText e.data = some text ∧
      (text ≠ [] → readNonEmptyString (e.data.lookup "streamType") = some (lit "thinking") → isThinking e.data) ∧
      Kept (if isThinking e.data then s.assistant.thinking else s.assistant.text) text
  else if e.eventType = "pi.tool.call" then ∀ id, readToolCallId e.data = some id → id ∉ s.ids
  else if e.eventType = "pi.tool.result" then
    match readToolCallId e.data with
    | some id => id ∈ s.ids
    | none => (s.openCall (readToolName e.data)).isSome
  else True

/-- Every event of a turn is treated alike in the state it arrives in. -/
def AllFaithful (host : Host) : State → List SummaryEvent → Prop
  | _, [] => True
  | s, e :: events => Faithful s e ∧ AllFaithful host (s.next host e.toEvent) events

theorem readNonEmpty_of_isThinking {data : Payload} (h : isThinking data) :
    readNonEmptyString (data.lookup "streamType") = some (lit "thinking") := by
  unfold isThinking at h
  split at h
  · rename_i s hs
    rw [hs, of_decide_eq_true h]
    decide
  · cases h

theorem thinking_items (items : List TraceItem) {text : JsString} (h : text ≠ []) :
    (appendThinkingTraceText items text).length =
        (if items.getLast?.map TraceItem.kind = some .thinking then items.length else items.length + 1) ∧
      (appendThinkingTraceText items text).getLast?.map TraceItem.kind = some .thinking := by
  unfold appendThinkingTraceText
  rw [if_neg h]
  split
  · rename_i last hlast
    obtain ⟨front, rfl⟩ := List.getLast?_eq_some_iff.1 hlast
    simp [TraceItem.kind]
  · rename_i hlast
    have hne : items.getLast?.map TraceItem.kind ≠ some .thinking := by
      intro hkind
      obtain ⟨item, hitem, hk⟩ := Option.map_eq_some_iff.1 hkind
      cases item <;> simp [TraceItem.kind] at hk
      exact hlast _ hitem
    rw [if_neg hne]
    simp [TraceItem.kind]

theorem Agrees.delta {summary : CompactTurnSummary} {s : State} (h : Agrees summary s) {e : SummaryEvent} {text : JsString}
    (htext : readStreamText e.data = some text)
    (hkind : text ≠ [] → readNonEmptyString (e.data.lookup "streamType") = some (lit "thinking") → isThinking e.data)
    (hkept : Kept (if isThinking e.data then s.assistant.thinking else s.assistant.text) text) :
    Agrees (summary.applyDelta e.data e.createdAt) (s.recordDelta e.data (readTimestamp e.data e.createdAt)) := by
  have htail := reasoningPreviewTail_append hkept
  unfold CompactTurnSummary.applyDelta State.recordDelta
  simp only [htext, Option.getD_some]
  rcases text with _ | ⟨u, rest⟩
  · simp only [ne_eq, not_true_eq_false, and_false, if_false, List.append_nil] at htail ⊢
    refine ⟨h.toolCallCount, h.traceItemCount, h.lastTraceKind, h.usage, h.lastUpdatedAt, ?_, ?_⟩
    · split
      · exact h.text
      · rename_i hth
        simp only [hth, if_false, Bool.false_eq_true] at htail
        show reasoningPreviewTail summary.assistant.text = _
        rw [h.text, htail]
    · split
      · rename_i hth
        simp only [hth, if_true] at htail
        show reasoningPreviewTail summary.assistant.thinking = _
        rw [h.thinking, htail]
      · exact h.thinking
  · have hiff : isThinking e.data ↔ readNonEmptyString (e.data.lookup "streamType") = some (lit "thinking") :=
      ⟨readNonEmpty_of_isThinking, hkind (by simp)⟩
    by_cases hth : isThinking e.data
    · simp only [hth, if_true] at htail ⊢
      rw [if_pos (hiff.1 hth), if_pos (by simp)]
      obtain ⟨hlen, hlast⟩ := thinking_items s.traceItems (List.cons_ne_nil u rest)
      refine ⟨h.toolCallCount, ?_, hlast.symm, h.usage, by simp, h.text, ?_⟩
      · rw [hlen, ← h.lastTraceKind, ← h.traceItemCount]
      · show reasoningPreviewTail (summary.assistant.thinking ++ u :: rest) = _
        rw [h.thinking, htail]
    · simp only [hth, if_false, Bool.false_eq_true, false_and] at htail ⊢
      rw [if_neg (fun hc => hth (hiff.2 hc))]
      refine ⟨h.toolCallCount, h.traceItemCount, h.lastTraceKind, h.usage, by simp, ?_, h.thinking⟩
      show reasoningPreviewTail (summary.assistant.text ++ u :: rest) = _
      rw [h.text, htail]

/-- A call that is new, or a result of a call that is there. -/
theorem Agrees.tool {summary : CompactTurnSummary} {s : State} (h : Agrees summary s) (hs : s.WellFormed) (isResult : Bool)
    {id : JsString} (hid : id ∈ s.ids ↔ isResult) (toolName timestamp : JsString) (data data' : Payload) (seq : Nat) :
    Agrees (summary.applyTool isResult data seq) (s.recordTool isResult id toolName timestamp data') := by
  have hitem : TraceItem.toolCall id ∈ s.traceItems ↔ isResult := by
    rw [← mem_toolItemIds, hs.items, hid]
  cases isResult with
  | false =>
    have hnew : id ∉ s.ids := by simp [hid]
    have hnot : TraceItem.toolCall id ∉ s.traceItems := by simp [hitem]
    unfold CompactTurnSummary.applyTool State.recordTool ensureToolTraceItem
    simp only [hnew, hnot, if_false, Bool.false_eq_true, true_or, if_true]
    refine ⟨?_, ?_, ?_, h.usage, h.lastUpdatedAt, h.text, h.thinking⟩
    · simp [h.toolCallCount]
    · simp [h.traceItemCount]
    · simp [TraceItem.kind]
  | true =>
    have hold : id ∈ s.ids := by simp [hid]
    have hthere : TraceItem.toolCall id ∈ s.traceItems := by simp [hitem]
    unfold CompactTurnSummary.applyTool State.recordTool ensureToolTraceItem
    simp only [hold, hthere, if_true]
    split
    all_goals exact ⟨by simp [h.toolCallCount], h.traceItemCount, h.lastTraceKind, h.usage, h.lastUpdatedAt, h.text, h.thinking⟩

theorem buildOperationalItem_isSome (host : Host) (eventType : String) (data : Payload) (fallback : JsString) :
    (buildOperationalItem host eventType data fallback).isSome = operationalEventTypes.contains eventType := by
  unfold buildOperationalItem
  rw [Option.isSome_map]
  unfold operationalPresentation
  split
  all_goals first
    | rfl
    | simp_all [operationalEventTypes]

/-- The call of an event that is treated alike is there exactly when it is a result. -/
theorem faithful_target {s : State} {e : SummaryEvent} (hf : Faithful s e) (he : isToolEvent e.eventType) :
    (s.target e.toEvent).1 ∈ s.ids ↔ decide (e.eventType = "pi.tool.result") := by
  have hdelta : e.eventType ≠ "pi.stream.delta" := by
    intro heq
    rw [heq] at he
    exact absurd he (by decide)
  obtain ⟨-, hf⟩ := hf
  rw [if_neg hdelta] at hf
  by_cases hcall : e.eventType = "pi.tool.call"
  · rw [if_pos hcall] at hf
    have hresult : e.eventType ≠ "pi.tool.result" := by
      rw [hcall]
      decide
    simp only [hresult, decide_false, Bool.false_eq_true, iff_false]
    rcases target_cases s (e := e.toEvent) he with ⟨hid, -⟩ | ⟨_, -, hres, -⟩ | ⟨hnone, hopen, -⟩
    · exact hf _ hid
    · exact absurd hres hresult
    · exact (target_generated hnone hopen).2
  · have hresult : e.eventType = "pi.tool.result" := by
      simpa [isToolEvent, hcall] using he
    rw [if_neg hcall, if_pos hresult] at hf
    simp only [hresult, decide_true, iff_true]
    rcases target_cases s (e := e.toEvent) he with ⟨hid, -⟩ | ⟨tool, -, -, hopen, htarget, -⟩ | ⟨hnone, hopen, -⟩
    · rw [show readToolCallId e.data = some _ from hid] at hf
      exact hf
    · rw [htarget]
      exact List.mem_map_of_mem (openCall_some hopen).1
    · rw [show readToolCallId e.data = none from hnone] at hf
      have hno : s.openCall (readToolName e.data) = none := hopen hresult
      simp [hno] at hf

/-- The step: an event that both treat alike keeps the agreement. -/
theorem Agrees.next {summary : CompactTurnSummary} {s : State} (h : Agrees summary s) (hs : s.WellFormed) (host : Host)
    {e : SummaryEvent} (hseq : summary.throughEventSequence < e.eventSequence) (hf : Faithful s e) :
    Agrees (applyEventToCompactTurnSummary summary e) (s.next host e.toEvent) := by
  have hthrough : Agrees { summary with throughEventSequence := e.eventSequence } s :=
    ⟨h.toolCallCount, h.traceItemCount, h.lastTraceKind, h.usage, h.lastUpdatedAt, h.text, h.thinking⟩
  have htarget : s.next host e.toEvent = s.next host ⟨e.eventType, e.data, e.createdAt⟩ := rfl
  rw [htarget]
  unfold applyEventToCompactTurnSummary State.next
  rw [if_neg (by omega)]
  dsimp only
  by_cases hdelta : e.eventType = "pi.stream.delta"
  · rw [if_pos hdelta, if_pos hdelta]
    have hf' := hf.2
    rw [if_pos hdelta] at hf'
    obtain ⟨text, htext, hkind, hkept⟩ := hf'
    exact hthrough.delta htext hkind hkept
  · rw [if_neg hdelta, if_neg hdelta]
    by_cases htool : isToolEvent e.eventType
    · rw [if_pos htool, if_pos htool]
      have hcounted : { s with nextFallbackOrdinal := (s.target e.toEvent).2 }.WellFormed :=
        ⟨hs.unique, hs.items, hs.trimmed, (hs.target (e := e.toEvent) htool).2⟩
      have hagrees : Agrees { summary with throughEventSequence := e.eventSequence }
          { s with nextFallbackOrdinal := (s.target e.toEvent).2 } :=
        ⟨h.toolCallCount, h.traceItemCount, h.lastTraceKind, h.usage, h.lastUpdatedAt, h.text, h.thinking⟩
      have hid : (s.target e.toEvent).1 ∈ { s with nextFallbackOrdinal := (s.target e.toEvent).2 }.ids ↔
          decide (e.eventType = "pi.tool.result") := faithful_target hf htool
      exact hagrees.tool hcounted _ hid _ _ _ _ _
    · rw [if_neg htool, if_neg htool]
      by_cases husage : e.eventType = "pi.usage"
      · rw [if_pos husage, if_pos husage]
        exact ⟨h.toolCallCount, h.traceItemCount, h.lastTraceKind, by simp only [h.usage], h.lastUpdatedAt, h.text,
          h.thinking⟩
      · rw [if_neg husage, if_neg husage]
        have hsome := buildOperationalItem_isSome host e.eventType e.data e.createdAt
        cases hitem : buildOperationalItem host e.eventType e.data e.createdAt with
        | none =>
          rw [hitem] at hsome
          rw [if_neg (by rw [← hsome]; decide)]
          exact hthrough
        | some item =>
          rw [hitem] at hsome
          rw [if_pos (by rw [← hsome]; rfl)]
          exact ⟨h.toolCallCount, by simp [h.traceItemCount], by simp [TraceItem.kind], h.usage, h.lastUpdatedAt, h.text,
            h.thinking⟩

theorem through_next (summary : CompactTurnSummary) (e : SummaryEvent) :
    (applyEventToCompactTurnSummary summary e).throughEventSequence = max summary.throughEventSequence e.eventSequence := by
  unfold applyEventToCompactTurnSummary
  split
  · omega
  · unfold CompactTurnSummary.applyDelta CompactTurnSummary.applyTool
    dsimp only
    split
    · split <;> dsimp only <;> omega
    · split
      · split <;> split <;> dsimp only <;> omega
      · split
        · dsimp only
          omega
        · split <;> dsimp only <;> omega

theorem Agrees.run {summary : CompactTurnSummary} {s : State} (h : Agrees summary s) (hs : s.WellFormed) (host : Host)
    {events : List SummaryEvent} (hseq : events.Pairwise (·.eventSequence < ·.eventSequence))
    (hthrough : ∀ e ∈ events, summary.throughEventSequence < e.eventSequence) (hf : AllFaithful host s events) :
    Agrees (events.foldl applyEventToCompactTurnSummary summary) (s.run host (events.map SummaryEvent.toEvent)) := by
  induction events generalizing summary s with
  | nil => exact h
  | cons e events ih =>
    rw [List.pairwise_cons] at hseq
    have he := hthrough e List.mem_cons_self
    refine ih (h.next hs host he hf.1) (hs.next host _) hseq.2 ?_ hf.2
    intro e' he'
    rw [through_next]
    have := hseq.1 e' he'
    have := hthrough e' (List.mem_cons_of_mem _ he')
    omega

theorem AllFaithful.take {host : Host} {s : State} {events : List SummaryEvent} (h : AllFaithful host s events) (n : Nat) :
    AllFaithful host s (events.take n) := by
  induction events generalizing s n with
  | nil => simpa using h
  | cons e events ih =>
    cases n with
    | zero => trivial
    | succ n => exact ⟨h.1, ih h.2 n⟩

theorem AllFaithful.positive {host : Host} {s : State} {events : List SummaryEvent} (h : AllFaithful host s events) :
    ∀ e ∈ events, 0 < e.eventSequence := by
  induction events generalizing s with
  | nil => simp
  | cons e events ih =>
    intro e' he'
    rcases List.mem_cons.1 he' with rfl | he'
    · exact h.1.1
    · exact ih h.2 e' he'

/-- The summary agrees with the projection after every one of the events, where
both treat them alike, and an event that is not above the last one it took in
changes nothing. -/
theorem compact_summary_agrees (host : Host) (events : List SummaryEvent)
    (hseq : events.Pairwise (·.eventSequence < ·.eventSequence)) (hfaithful : AllFaithful host .empty events) :
    (∀ n, Agrees (summarize (events.take n)) (project host (events.take n))) ∧
      ∀ (summary : CompactTurnSummary) (e : SummaryEvent), e.eventSequence ≤ summary.throughEventSequence →
        applyEventToCompactTurnSummary summary e = summary := by
  constructor
  · intro n
    have hempty : Agrees emptyCompactTurnSummary .empty :=
      ⟨rfl, rfl, rfl, rfl, rfl, by decide +kernel, by decide +kernel⟩
    have htake := hfaithful.take n
    exact hempty.run .empty host (hseq.sublist (List.take_sublist n events)) htake.positive htake
  · intro summary e he
    unfold applyEventToCompactTurnSummary
    rw [if_pos he]

/-! ## Events the two folds treat differently -/

def deltaEvent (eventSequence : Nat) (text : Option String) : SummaryEvent :=
  { eventType := "pi.stream.delta"
    data := text.elim [] fun s => [("text", .str (lit s))]
    createdAt := lit "t"
    eventSequence }

/-- The blanks that begin a line are dropped with the chunk that ends in them. -/
def indented : List SummaryEvent := [deltaEvent 1 (some "a\n  "), deltaEvent 2 (some "b")]

/-- The preview of indented text loses the indentation, and a delta without text
leaves the word `null`. -/
theorem compact_summary_differs :
    indented.Pairwise (·.eventSequence < ·.eventSequence) ∧
      (summarize indented).assistant.text = lit "a\nb" ∧
      reasoningPreviewTail (project plainHost indented).assistant.text = lit "a\n  b" ∧
      (summarize [deltaEvent 1 none]).assistant.text = lit "null" ∧
      reasoningPreviewTail (project plainHost [deltaEvent 1 none]).assistant.text = [] := by
  decide +kernel

/-- Paragraphs that arrive line by line agree. -/
theorem compact_summary_agrees_lines :
    Agrees (summarize [deltaEvent 1 (some "a\n\n"), deltaEvent 2 (some "b")])
      (project plainHost [deltaEvent 1 (some "a\n\n"), deltaEvent 2 (some "b")]) := by
  refine (compact_summary_agrees plainHost [deltaEvent 1 (some "a\n\n"), deltaEvent 2 (some "b")] (by decide) ?_).1 2
  refine ⟨⟨by decide, lit "a\n\n", by decide, fun _ h => absurd h (by decide), ?_⟩,
    ⟨by decide, lit "b", by decide, fun _ h => absurd h (by decide), ?_⟩, trivial⟩
  · exact ⟨.inl fun h => absurd h.2 (by decide +kernel), fun h => absurd h (by decide +kernel)⟩
  · exact ⟨.inl fun h => absurd h.2 (by decide +kernel), fun h => absurd h (by decide +kernel)⟩

end Leitwerk.Protocol.LiveTurn
