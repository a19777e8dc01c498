import Leitwerk.Protocol.LiveTurn
import Mathlib.Data.List.Forall2
import Mathlib.Data.List.Nodup
/-!
# Replaying and restoring a live turn

Two projections that stand for the same turn are compared call by call, in the
order of the calls. `Alike` says what they share; one event keeps it as long as
it is recorded under calls at the same place (`Alike.recordTool`). The canonical
data of an event names its call outright, so a replay follows the original
(`canonical_target`). An event as it arrived finds the same running call, or
makes up an identity in both, which the ordinal makes different.
-/

namespace Leitwerk.Protocol.LiveTurn

/-! ## Reachable states -/

def TraceItem.toolId? : TraceItem → Option JsString
  | .toolCall toolCallId => some toolCallId
  | _ => none

/-- The calls the trace names, in order. -/
def toolItemIds (items : List TraceItem) : List JsString := items.filterMap TraceItem.toolId?

/-- The identities are distinct and the trace names the calls in their order. -/
structure State.WellFormed (s : State) : Prop where
  unique : s.ids.Nodup
  items : toolItemIds s.traceItems = s.ids
  trimmed : ∀ id ∈ s.ids, id.Trimmed
  ordinal : 0 < s.nextFallbackOrdinal

theorem State.WellFormed.empty : State.empty.WellFormed :=
  ⟨List.nodup_nil, rfl, by simp [State.ids, State.empty], Nat.one_pos⟩

theorem mem_toolItemIds {items : List TraceItem} {id : JsString} : id ∈ toolItemIds items ↔ .toolCall id ∈ items := by
  unfold toolItemIds
  rw [List.mem_filterMap]
  constructor
  · rintro ⟨item, hmem, hid⟩
    cases item <;> simp_all [TraceItem.toolId?]
  · intro h
    exact ⟨_, h, rfl⟩

theorem toolItemIds_thinking (items : List TraceItem) (text : JsString) :
    toolItemIds (appendThinkingTraceText items text) = toolItemIds items := by
  unfold appendThinkingTraceText toolItemIds
  split
  · rfl
  · split
    · rename_i last hlast
      obtain ⟨front, rfl⟩ := List.getLast?_eq_some_iff.1 hlast
      rw [List.dropLast_concat, List.filterMap_append, List.filterMap_append]
      rfl
    · simp [List.filterMap_append, TraceItem.toolId?]

theorem toolItemIds_ensure (items : List TraceItem) (id : JsString) :
    toolItemIds (ensureToolTraceItem items id) = if id ∈ toolItemIds items then toolItemIds items else toolItemIds items ++ [id] := by
  unfold ensureToolTraceItem
  by_cases h : TraceItem.toolCall id ∈ items
  · rw [if_pos h, if_pos (mem_toolItemIds.2 h)]
  · rw [if_neg h, if_neg (fun hid => h (mem_toolItemIds.1 hid))]
    simp [toolItemIds, List.filterMap_append, TraceItem.toolId?]

@[simp] theorem ToolCall.complete_id (tool : ToolCall) (data : Payload) (timestamp : JsString) :
    (tool.complete data timestamp).toolCallId = tool.toolCallId := rfl

/-- A recorded call is added at the end unless it is there. -/
theorem recordTool_ids (s : State) (isResult : Bool) (id toolName timestamp : JsString) (data : Payload) :
    (s.recordTool isResult id toolName timestamp data).ids = if id ∈ s.ids then s.ids else s.ids ++ [id] := by
  have hmap : ∀ calls : List ToolCall,
      (calls.map fun tool => if tool.toolCallId = id then tool.complete data timestamp else tool).map (·.toolCallId) =
        calls.map (·.toolCallId) := by
    intro calls
    rw [List.map_map]
    apply List.map_congr_left
    intro tool _
    simp only [Function.comp]
    split <;> rfl
  unfold State.recordTool State.ids
  simp only
  split
  · rw [hmap]
    split
    · rfl
    · simp [ToolCall.started]
  · split
    · rfl
    · simp [ToolCall.started]

theorem State.WellFormed.recordTool {s : State} (h : s.WellFormed) (isResult : Bool) {id : JsString}
    (toolName timestamp : JsString) (data : Payload) (hid : id.Trimmed) :
    (s.recordTool isResult id toolName timestamp data).WellFormed := by
  refine ⟨?_, ?_, ?_, h.ordinal⟩
  · rw [recordTool_ids]
    split
    · exact h.unique
    · rename_i hnew
      rw [List.nodup_append]
      refine ⟨h.unique, List.nodup_singleton id, ?_⟩
      intro a ha b hb
      rw [List.mem_singleton.1 hb]
      rintro rfl
      exact hnew ha
  · rw [recordTool_ids]
    show toolItemIds (ensureToolTraceItem s.traceItems id) = _
    rw [toolItemIds_ensure, h.items]
  · intro other hother
    rw [recordTool_ids] at hother
    split at hother
    · exact h.trimmed other hother
    · rcases List.mem_append.1 hother with hmem | hmem
      · exact h.trimmed other hmem
      · rwa [List.mem_singleton.1 hmem]

/-! ## The call of an event -/

theorem openCall_some {s : State} {toolName : JsString} {tool : ToolCall} (h : s.openCall toolName = some tool) :
    tool ∈ s.toolCalls ∧ tool.status = .running ∧ tool.toolName = toolName := by
  have hfound := List.find?_some h
  exact ⟨List.mem_reverse.1 (List.mem_of_find?_eq_some h), by simpa using hfound⟩

/-- The identity that is made up for an event, if it is. -/
def State.madeUp (s : State) (e : Event) : Option JsString :=
  if isToolEvent e.eventType ∧ readToolCallId e.data = none ∧
      (e.eventType = "pi.tool.result" → (s.openCall (readToolName e.data)).isNone) then
    some (s.target e).1
  else none

theorem target_generated {s : State} {e : Event} (hexplicit : readToolCallId e.data = none)
    (hopen : e.eventType = "pi.tool.result" → s.openCall (readToolName e.data) = none) :
    (∃ n, s.nextFallbackOrdinal ≤ n ∧
      (s.target e).1 = fallbackToolCallId (readToolName e.data) (readTimestamp e.data e.fallbackTimestamp) n ∧
      (s.target e).2 = n + 1) ∧ (s.target e).1 ∉ s.ids := by
  let toolName := readToolName e.data
  let timestamp := readTimestamp e.data e.fallbackTimestamp
  have htarget : s.target e =
      (fallbackToolCallId toolName timestamp (s.freeOrdinal toolName timestamp), s.freeOrdinal toolName timestamp + 1) := by
    by_cases hresult : e.eventType = "pi.tool.result"
    · simp [State.target, canonicalizeToolCallId, hexplicit, hresult, hopen hresult, toolName, timestamp]
    · simp [State.target, canonicalizeToolCallId, hexplicit, hresult, toolName, timestamp]
  rw [htarget]
  exact ⟨⟨_, Nat.le_add_right _ _, rfl, rfl⟩, free_not_mem s _ _⟩

/-- The call of an event: the one it names, the one that runs, or a new one. -/
theorem target_cases (s : State) {e : Event} (he : isToolEvent e.eventType) :
    (readToolCallId e.data = some (s.target e).1 ∧ (s.target e).2 = s.nextFallbackOrdinal ∧ s.madeUp e = none) ∨
    (∃ tool, readToolCallId e.data = none ∧ e.eventType = "pi.tool.result" ∧
      s.openCall (readToolName e.data) = some tool ∧ (s.target e).1 = tool.toolCallId ∧
      (s.target e).2 = s.nextFallbackOrdinal ∧ s.madeUp e = none) ∨
    (readToolCallId e.data = none ∧ (e.eventType = "pi.tool.result" → s.openCall (readToolName e.data) = none) ∧
      s.madeUp e = some (s.target e).1) := by
  cases hexplicit : readToolCallId e.data with
  | some id =>
    left
    simp [State.target, canonicalizeToolCallId, State.madeUp, hexplicit]
  | none =>
    right
    by_cases hresult : e.eventType = "pi.tool.result"
    · cases hopen : s.openCall (readToolName e.data) with
      | some tool =>
        left
        exact ⟨tool, by simp [State.target, canonicalizeToolCallId, State.madeUp, hexplicit, hresult, hopen]⟩
      | none =>
        right
        exact ⟨rfl, fun _ => rfl, by simp [State.madeUp, he, hexplicit, hopen]⟩
    · right
      exact ⟨rfl, fun h => absurd h hresult, by simp [State.madeUp, he, hexplicit, hresult]⟩

theorem State.WellFormed.target {s : State} (h : s.WellFormed) {e : Event} (he : isToolEvent e.eventType) :
    (s.target e).1.Trimmed ∧ 0 < (s.target e).2 := by
  have hord := h.ordinal
  rcases target_cases s he with ⟨hid, hnext, -⟩ | ⟨tool, -, -, hopen, hid, hnext, -⟩ | ⟨hnone, hopen, -⟩
  · exact ⟨readNonEmptyString_trimmed hid, by omega⟩
  · rw [hid]
    exact ⟨h.trimmed _ (List.mem_map_of_mem (openCall_some hopen).1), by omega⟩
  · obtain ⟨⟨n, hn, hid, hnext⟩, -⟩ := target_generated hnone hopen
    rw [hid]
    exact ⟨fallback_trimmed (readToolName_trimmed _) (by omega), by omega⟩

theorem State.WellFormed.recordDelta {s : State} (h : s.WellFormed) (data : Payload) (timestamp : JsString) :
    (s.recordDelta data timestamp).WellFormed := by
  unfold State.recordDelta
  split
  · exact h
  · exact h
  · split
    · exact ⟨h.unique, by rw [toolItemIds_thinking]; exact h.items, h.trimmed, h.ordinal⟩
    · exact ⟨h.unique, h.items, h.trimmed, h.ordinal⟩

theorem State.WellFormed.next {s : State} (h : s.WellFormed) (host : Host) (e : Event) : (s.next host e).WellFormed := by
  unfold State.next
  split
  · exact h.recordDelta _ _
  · split
    · rename_i he
      obtain ⟨hid, hord⟩ := h.target he
      have hcounted : { s with nextFallbackOrdinal := (s.target e).2 }.WellFormed := ⟨h.unique, h.items, h.trimmed, hord⟩
      exact hcounted.recordTool _ _ _ _ hid
    · split
      · exact ⟨h.unique, h.items, h.trimmed, h.ordinal⟩
      · split
        · refine ⟨h.unique, ?_, h.trimmed, h.ordinal⟩
          show toolItemIds (s.traceItems ++ _) = s.ids
          rw [← h.items]
          simp [toolItemIds, List.filterMap_append, TraceItem.toolId?]
        · exact h

theorem State.WellFormed.run {s : State} (h : s.WellFormed) (host : Host) (events : List Event) :
    (s.run host events).WellFormed := by
  induction events generalizing s with
  | nil => exact h
  | cons e events ih => exact ih (h.next host e)

/-- Calls of distinct identities are put into the map one after another. -/
theorem setCall_fold (calls done : List ToolCall) (h : ((done ++ calls).map (·.toolCallId)).Nodup) :
    calls.foldl setCall done = done ++ calls := by
  induction calls generalizing done with
  | nil => simp
  | cons tool calls ih =>
    have hnew : tool.toolCallId ∉ done.map (·.toolCallId) := by
      intro hmem
      rw [List.map_append, List.nodup_append] at h
      exact h.2.2 _ hmem _ (by simp) rfl
    rw [List.foldl_cons, setCall, if_neg hnew, ih _ (by simpa using h)]
    simp

/-- The calls of the projection restored from a snapshot. -/
theorem restored_calls (host : Host) (p : Projection) (piInput : Option Value) (h : p.state.ids.Nodup) :
    (restoreTurnTraceProjection (p.snapshot host piInput)).state.toolCalls =
      p.state.toolCalls.map fun tool => (tool.trace host).restore := by
  have hids : ((p.snapshot host piInput).toolCalls.map TraceToolCall.restore).map (·.toolCallId) = p.state.ids := by
    simp only [Projection.snapshot, State.ids, List.map_map]
    rfl
  show List.foldl setCall [] _ = _
  rw [setCall_fold _ [] (by rw [List.nil_append, hids]; exact h)]
  simp [Projection.snapshot]

theorem restored_ids (host : Host) (p : Projection) (piInput : Option Value) (h : p.state.ids.Nodup) :
    (restoreTurnTraceProjection (p.snapshot host piInput)).state.ids = p.state.ids := by
  unfold State.ids
  rw [restored_calls host p piInput h, List.map_map]
  rfl

theorem State.WellFormed.restored {p : Projection} (h : p.state.WellFormed) (host : Host) (piInput : Option Value) :
    (restoreTurnTraceProjection (p.snapshot host piInput)).state.WellFormed := by
  have hids := restored_ids host p piInput h.unique
  refine ⟨by rw [hids]; exact h.unique, by rw [hids]; exact h.items, by rw [hids]; exact h.trimmed, Nat.one_pos⟩

/-- Every state that is reached is well formed. -/
theorem reach_wellFormed (host : Host) (steps : List Step) : (Projection.reach host steps).state.WellFormed := by
  have hstep : ∀ (p : Projection), p.state.WellFormed → (steps.foldl (Projection.step host) p).state.WellFormed := by
    induction steps with
    | nil => exact fun p h => h
    | cons step steps ih =>
      intro p h
      apply ih
      cases step with
      | apply e => exact h.run host [e]
      | restore piInput => exact h.restored host piInput
  exact hstep _ .empty

/-! ## Projections of one turn -/

def ToolCall.unnamed (tool : ToolCall) : ToolCall := { tool with toolCallId := [] }

def TraceItem.unnamed : TraceItem → TraceItem
  | .toolCall _ => .toolCall []
  | item => item

/-- What is compared of two calls besides their identities. It tells the name
and the status, and a result that arrives does not set two calls apart. -/
structure Presentation (α : Type) where
  of : ToolCall → α
  correlates : ∀ {a b}, of a = of b → a.toolName = b.toolName ∧ a.status = b.status
  complete : ∀ {a b} (data : Payload) (timestamp : JsString),
    of a = of b → of (a.complete data timestamp) = of (b.complete data timestamp)
  started : ∀ id id' toolName timestamp arguments,
    of (.started id toolName timestamp arguments) = of (.started id' toolName timestamp arguments)

/-- Calls with the same recorded result. -/
def recorded : Presentation ToolCall where
  of := ToolCall.unnamed
  correlates := by
    intro a b h
    have hname : a.unnamed.toolName = b.unnamed.toolName := by rw [h]
    have hstatus : a.unnamed.status = b.unnamed.status := by rw [h]
    exact ⟨hname, hstatus⟩
  complete := by
    intro a b data timestamp h
    show a.unnamed.complete data timestamp = b.unnamed.complete data timestamp
    rw [h]
  started := fun _ _ _ _ _ => rfl

/-- Calls with the same displayed result. -/
def displayed (host : Host) : Presentation TraceToolCall where
  of := fun tool => tool.unnamed.trace host
  correlates := by
    intro a b h
    exact ⟨congrArg (fun c : TraceToolCall => c.toolName) h, congrArg (fun c : TraceToolCall => c.status) h⟩
  complete := by
    intro a b data timestamp h
    have hname := congrArg (fun c : TraceToolCall => c.toolName) h
    have hstart := congrArg (fun c : TraceToolCall => c.startedAt) h
    have hargs := congrArg (fun c : TraceToolCall => c.arguments) h
    simp only [ToolCall.trace, ToolCall.unnamed] at hname hstart hargs
    simp [ToolCall.trace, ToolCall.unnamed, ToolCall.complete, hname, hstart, hargs]
  started := fun _ _ _ _ _ => rfl

variable {α : Type} {P : Presentation α} {M : JsString → JsString → Prop}

/-- Two projections of one turn: call for call they show the same, under
identities that `M` matches, and their traces differ in identities only. -/
structure Alike (P : Presentation α) (M : JsString → JsString → Prop) (s t : State) : Prop where
  assistant : s.assistant = t.assistant
  usage : s.usage = t.usage
  calls : List.Forall₂ (fun a b => P.of a = P.of b ∧ M a.toolCallId b.toolCallId) s.toolCalls t.toolCalls
  items : s.traceItems.map TraceItem.unnamed = t.traceItems.map TraceItem.unnamed

/-- `i` and `j` are the identities of calls at the same place, or of none. -/
def SamePlace (i j : JsString) (s t : State) : Prop :=
  List.Forall₂ (fun a b : ToolCall => a.toolCallId = i ↔ b.toolCallId = j) s.toolCalls t.toolCalls

theorem SamePlace.mem_iff {i j : JsString} {s t : State} (h : SamePlace i j s t) : i ∈ s.ids ↔ j ∈ t.ids := by
  unfold SamePlace at h
  unfold State.ids
  revert h
  generalize s.toolCalls = calls, t.toolCalls = calls'
  intro h
  induction h with
  | nil => simp
  | cons hab _ ih => simp only [List.map_cons, List.mem_cons, ih, eq_comm (a := i), eq_comm (a := j), hab]

theorem Alike.mono {N : JsString → JsString → Prop} {s t : State} (h : Alike P M s t) (hMN : ∀ x y, M x y → N x y) :
    Alike P N s t :=
  ⟨h.assistant, h.usage, h.calls.imp fun _ _ hab => ⟨hab.1, hMN _ _ hab.2⟩, h.items⟩

/-- Recording under calls at the same place keeps two projections alike. -/
theorem Alike.recordTool {s t : State} (h : Alike P M s t) (hs : s.WellFormed) (ht : t.WellFormed) (isResult : Bool)
    {i j : JsString} (hplace : SamePlace i j s t) (hM : M i j) (toolName timestamp : JsString) {data data' : Payload}
    (hargs : readToolArguments data = readToolArguments data') (hresult : data.lookup "result" = data'.lookup "result")
    (herror : data.lookup "isError" = data'.lookup "isError") :
    Alike P M (s.recordTool isResult i toolName timestamp data) (t.recordTool isResult j toolName timestamp data') := by
  have hboth := List.Forall₂.mp (fun _ _ => And.intro) h.calls hplace
  have hcomplete : ∀ tool : ToolCall, tool.complete data timestamp = tool.complete data' timestamp := by
    intro tool
    unfold ToolCall.complete
    rw [hresult, herror]
  have hgrown : List.Forall₂
      (fun a b : ToolCall => (P.of a = P.of b ∧ M a.toolCallId b.toolCallId) ∧ (a.toolCallId = i ↔ b.toolCallId = j))
      (if i ∈ s.ids then s.toolCalls
        else s.toolCalls ++ [.started i toolName timestamp (if isResult then none else readToolArguments data)])
      (if j ∈ t.ids then t.toolCalls
        else t.toolCalls ++ [.started j toolName timestamp (if isResult then none else readToolArguments data')]) := by
    by_cases hmem : i ∈ s.ids
    · rw [if_pos hmem, if_pos (hplace.mem_iff.1 hmem)]
      exact hboth
    · rw [if_neg hmem, if_neg (fun hj => hmem (hplace.mem_iff.2 hj)), hargs]
      apply List.rel_append hboth
      exact .cons ⟨⟨P.started _ _ _ _ _, hM⟩, by simp [ToolCall.started]⟩ .nil
  refine ⟨h.assistant, h.usage, ?_, ?_⟩
  · unfold State.recordTool
    by_cases hres : isResult
    · simp only [hres, if_true] at hgrown ⊢
      rw [List.forall₂_map_left_iff, List.forall₂_map_right_iff]
      apply hgrown.imp
      rintro a b ⟨⟨hP, hid⟩, hiff⟩
      by_cases ha : a.toolCallId = i
      · rw [if_pos ha, if_pos (hiff.1 ha), hcomplete]
        exact ⟨P.complete data' timestamp hP, hid⟩
      · rw [if_neg ha, if_neg (fun hb => ha (hiff.2 hb))]
        exact ⟨hP, hid⟩
    · simp only [hres] at hgrown ⊢
      exact hgrown.imp fun _ _ hab => hab.1
  · show (ensureToolTraceItem s.traceItems i).map _ = (ensureToolTraceItem t.traceItems j).map _
    have hi : TraceItem.toolCall i ∈ s.traceItems ↔ i ∈ s.ids := by rw [← mem_toolItemIds, hs.items]
    have hj : TraceItem.toolCall j ∈ t.traceItems ↔ j ∈ t.ids := by rw [← mem_toolItemIds, ht.items]
    unfold ensureToolTraceItem
    by_cases hmem : i ∈ s.ids
    · rw [if_pos (hi.2 hmem), if_pos (hj.2 (hplace.mem_iff.1 hmem)), h.items]
    · rw [if_neg (fun hc => hmem (hi.1 hc)), if_neg (fun hc => hmem (hplace.mem_iff.2 (hj.1 hc))), List.map_append,
        List.map_append, h.items]
      rfl

theorem unnamed_thinking (items : List TraceItem) (text : JsString) :
    (appendThinkingTraceText items text).map TraceItem.unnamed = appendThinkingTraceText (items.map TraceItem.unnamed) text := by
  unfold appendThinkingTraceText
  split
  · rfl
  · rw [List.getLast?_map]
    rcases hlast : items.getLast? with _ | item
    · simp [TraceItem.unnamed]
    · cases item <;> simp [TraceItem.unnamed, List.map_dropLast]

theorem Alike.recordDelta {s t : State} (h : Alike P M s t) (data : Payload) (timestamp : JsString) :
    Alike P M (s.recordDelta data timestamp) (t.recordDelta data timestamp) := by
  unfold State.recordDelta
  split
  · exact h
  · exact h
  · split
    · exact ⟨by simp only [h.assistant], h.usage, h.calls, by simp only [unnamed_thinking, h.items]⟩
    · exact ⟨by simp only [h.assistant], h.usage, h.calls, h.items⟩

end Leitwerk.Protocol.LiveTurn
