import Leitwerk.Protocol.LiveTurnReplay
import Leitwerk.TurnTrace.Building
/-!
# What a trace collects

A step of `buildTurnTraceFromSlice` adds one operational item at most, which is
dropped where the trace shows it already, and puts every call it adds into the
trace. So the items of the whole trace are those of its entries and events,
each once (`foldl_keys`). The projection adds the item of every event.
-/

namespace Leitwerk.TurnTrace

open Protocol LiveTurn Comparison

/-! ## Operational items -/

/-- The keys of the operational items of a trace. -/
def traceKeys (items : List TraceItem) : List ItemKey := (operationalItems items).map itemKey

@[simp] theorem operationalItems_append (items items' : List TraceItem) :
    operationalItems (items ++ items') = operationalItems items ++ operationalItems items' := List.filterMap_append

theorem toolItemIds_concat (items : List TraceItem) (item : TraceItem) :
    toolItemIds (items ++ [item]) = toolItemIds items ++ item.toolId?.toList := by
  unfold toolItemIds
  rw [List.filterMap_append]
  cases item <;> rfl

theorem toolItemIds_cons (item : TraceItem) (items : List TraceItem) :
    toolItemIds (item :: items) = item.toolId?.toList ++ toolItemIds items := by
  cases item <;> rfl

theorem any_same_iff (items : List OperationalItem) (item : OperationalItem) :
    (items.any fun existing =>
        existing.eventType = item.eventType && existing.message = item.message && existing.timestamp = item.timestamp) = true ↔
      itemKey item ∈ items.map itemKey := by
  rw [List.any_eq_true, List.mem_map]
  apply exists_congr
  intro existing
  simp [itemKey, and_assoc]

/-- An item is added unless there is one with its key. -/
theorem operationalItems_appendItem (items : List TraceItem) (item : OperationalItem) :
    operationalItems (appendOperationalTraceItem items (some item)) =
      if itemKey item ∈ traceKeys items then operationalItems items else operationalItems items ++ [item] := by
  unfold appendOperationalTraceItem
  simp only [any_same_iff]
  unfold traceKeys
  split
  · rfl
  · simp [operationalItems, operational?]

/-- One more item, on the keys. -/
theorem appendItem_keys (items : List TraceItem) (item : Option OperationalItem) :
    ((traceKeys items).Nodup → (traceKeys (appendOperationalTraceItem items item)).Nodup) ∧
      traceKeys items <+: traceKeys (appendOperationalTraceItem items item) ∧
      ∀ key, key ∈ traceKeys (appendOperationalTraceItem items item) ↔
        key ∈ traceKeys items ∨ item.map itemKey = some key := by
  cases item with
  | none => exact ⟨id, List.prefix_refl _, fun key => by simp [appendOperationalTraceItem]⟩
  | some item =>
    have hkeys : traceKeys (appendOperationalTraceItem items (some item)) =
        if itemKey item ∈ traceKeys items then traceKeys items else traceKeys items ++ [itemKey item] := by
      rw [traceKeys, operationalItems_appendItem]
      split
      · rfl
      · exact List.map_append
    rw [hkeys]
    split
    · rename_i hmem
      refine ⟨id, List.prefix_refl _, fun key => ⟨.inl, ?_⟩⟩
      rintro (h | h)
      · exact h
      · rw [Option.map_some, Option.some_inj] at h
        rwa [← h]
    · rename_i hnew
      refine ⟨fun h => ?_, List.prefix_append _ _, fun key => ?_⟩
      · rw [List.nodup_append]
        refine ⟨h, List.nodup_singleton _, ?_⟩
        intro a ha b hb hab
        rw [List.mem_singleton] at hb
        exact hnew (by rwa [← hb, ← hab])
      · rw [List.mem_append, List.mem_singleton, Option.map_some, Option.some_inj, eq_comm]

/-- A loop whose steps add one operational item at most: no item occurs twice, those
that were there come first, and the others are those of the steps. -/
theorem foldl_keys {σ α : Type} (items : σ → List TraceItem) (step : σ → α → σ) (item : α → Option OperationalItem)
    (hstep : ∀ s a, operationalItems (items (step s a)) = operationalItems (appendOperationalTraceItem (items s) (item a)))
    (l : List α) (s : σ) :
    ((traceKeys (items s)).Nodup → (traceKeys (items (l.foldl step s))).Nodup) ∧
      traceKeys (items s) <+: traceKeys (items (l.foldl step s)) ∧
      ∀ key, key ∈ traceKeys (items (l.foldl step s)) ↔ key ∈ traceKeys (items s) ∨ key ∈ (l.filterMap item).map itemKey := by
  induction l generalizing s with
  | nil => exact ⟨id, List.prefix_refl _, fun key => by simp⟩
  | cons a l ih =>
    have hkeys : traceKeys (items (step s a)) = traceKeys (appendOperationalTraceItem (items s) (item a)) := by
      unfold traceKeys
      rw [hstep]
    obtain ⟨hnodup, hprefix, hmem⟩ := ih (step s a)
    obtain ⟨hnodup', hprefix', hmem'⟩ := appendItem_keys (items s) (item a)
    rw [← hkeys] at hnodup' hprefix' hmem'
    refine ⟨fun h => hnodup (hnodup' h), hprefix'.trans hprefix, fun key => ?_⟩
    rw [List.foldl_cons, hmem, hmem', List.filterMap_cons, or_assoc]
    cases item a with
    | none => simp
    | some item => simp [eq_comm]

/-! ## Sorting -/

theorem operationalItems_replace {items : List TraceItem} {sorted : List OperationalItem}
    (h : sorted.length = (operationalItems items).length) : operationalItems (replaceOperational items sorted) = sorted := by
  induction items generalizing sorted with
  | nil =>
    rw [List.length_eq_zero_iff.1 h]
    rfl
  | cons item items ih =>
    cases item with
    | operational item =>
      cases sorted with
      | nil => simp [operationalItems, operational?] at h
      | cons next sorted =>
        have hlen : sorted.length = (operationalItems items).length := by
          simpa [operationalItems, operational?] using h
        show next :: operationalItems (replaceOperational items sorted) = _
        rw [ih hlen]
    | thinking text =>
      have hlen : sorted.length = (operationalItems items).length := h
      rw [replaceOperational]
      · exact ih hlen
      · nofun
    | toolCall id =>
      have hlen : sorted.length = (operationalItems items).length := h
      rw [replaceOperational]
      · exact ih hlen
      · nofun

theorem toolItemIds_replace (items : List TraceItem) (sorted : List OperationalItem) :
    toolItemIds (replaceOperational items sorted) = toolItemIds items := by
  fun_induction replaceOperational items sorted with
  | case1 item items next sorted ih => exact ih
  | case2 item items sorted _ ih => rw [toolItemIds_cons, toolItemIds_cons, ih]
  | case3 => rfl

section
variable {sorter : Sorter} (host : Host) (items : List TraceItem)

theorem operationalItems_sorted (h : Sorts sorter) : operationalItems (ensureSortedTraceItems host sorter items) =
    sorter (compareOperationalTraceItems host) (operationalItems items) :=
  operationalItems_replace (h.perm _ _).length_eq

theorem traceKeys_sorted (h : Sorts sorter) : (traceKeys (ensureSortedTraceItems host sorter items)).Perm (traceKeys items) := by
  unfold traceKeys
  rw [operationalItems_sorted host items h]
  exact (h.perm _ _).map itemKey

theorem toolItemIds_sorted : toolItemIds (ensureSortedTraceItems host sorter items) = toolItemIds items :=
  toolItemIds_replace _ _

end

/-! ## The calls of a slice -/

theorem toolItemIds_appendItem (items : List TraceItem) (item : Option OperationalItem) :
    toolItemIds (appendOperationalTraceItem items item) = toolItemIds items := by
  unfold appendOperationalTraceItem
  cases item with
  | none => rfl
  | some item =>
    dsimp only
    split
    · rfl
    · simp [toolItemIds, TraceItem.toolId?]

namespace SliceTrace

/-- The identities are distinct and the trace names the calls in their order. -/
structure WellFormed (t : SliceTrace) : Prop where
  unique : t.ids.Nodup
  items : toolItemIds t.traceItems = t.ids

/-- What the steps that add calls, texts and usage leave. -/
structure Frame (t t' : SliceTrace) : Prop where
  operational : operationalItems t'.traceItems = operationalItems t.traceItems
  wellFormed : t.WellFormed → t'.WellFormed

theorem Frame.refl (t : SliceTrace) : Frame t t := ⟨rfl, id⟩

theorem Frame.trans {t t' t'' : SliceTrace} (h : Frame t t') (h' : Frame t' t'') : Frame t t'' :=
  ⟨h'.operational.trans h.operational, fun hw => h'.wellFormed (h.wellFormed hw)⟩

theorem updateCall_ids {t : SliceTrace} (id : JsString) {f : TraceToolCall → TraceToolCall}
    (hf : ∀ tool, (f tool).toolCallId = tool.toolCallId) : (t.updateCall id f).ids = t.ids := by
  unfold updateCall ids
  rw [List.map_map]
  apply List.map_congr_left
  intro tool _
  simp only [Function.comp]
  split
  · exact hf tool
  · rfl

theorem frame_updateCall (t : SliceTrace) (id : JsString) {f : TraceToolCall → TraceToolCall}
    (hf : ∀ tool, (f tool).toolCallId = tool.toolCallId) : Frame t (t.updateCall id f) := by
  refine ⟨rfl, fun h => ⟨?_, ?_⟩⟩
  · rw [updateCall_ids id hf]
    exact h.unique
  · rw [updateCall_ids id hf]
    exact h.items

theorem frame_ensureToolCall (t : SliceTrace) (id toolName startedAt : JsString) (arguments : Option Payload) :
    Frame t (t.ensureToolCall id toolName startedAt arguments) := by
  unfold ensureToolCall
  split
  · exact frame_updateCall t id fun _ => rfl
  · rename_i hnew
    refine ⟨by simp [operationalItems, operational?], fun h => ⟨?_, ?_⟩⟩
    · rw [ids, List.map_append, List.nodup_append]
      refine ⟨h.unique, List.nodup_singleton _, ?_⟩
      intro a ha b hb hab
      have hb : b = id := List.mem_singleton.1 hb
      exact hnew (by rwa [← hb, ← hab])
    · rw [toolItemIds_concat, h.items]
      simp [ids, TraceItem.toolId?]

theorem frame_addBlock (timestamp : JsString) (t : SliceTrace) (block : Payload) : Frame t (addBlock timestamp t block) := by
  unfold addBlock
  split
  · split
    · split
      · exact .refl t
      · refine ⟨by simp [operationalItems, operational?], fun h => ⟨h.unique, ?_⟩⟩
        rw [toolItemIds_concat, h.items]
        exact List.append_nil _
    · exact .refl t
  · split
    · split
      · exact frame_ensureToolCall t _ _ _ _
      · exact .refl t
    · split
      · split
        · exact ⟨rfl, fun h => ⟨h.unique, h.items⟩⟩
        · exact .refl t
      · exact .refl t

theorem frame_addBlocks (timestamp : JsString) (t : SliceTrace) (blocks : List Payload) :
    Frame t (blocks.foldl (addBlock timestamp) t) := by
  induction blocks generalizing t with
  | nil => exact .refl t
  | cons block blocks ih => exact (frame_addBlock timestamp t block).trans (ih _)

theorem frame_addMessage (host : Host) (t : SliceTrace) (timestamp : JsString) (message : Payload) :
    Frame t (t.addMessage host timestamp message) := by
  unfold addMessage
  dsimp only
  split
  · unfold addPrompt
    dsimp only
    split
    · exact .refl t
    · exact ⟨rfl, fun h => ⟨h.unique, h.items⟩⟩
  · split
    · have hblocks := frame_addBlocks timestamp t (normalizeContentBlocks (message.lookup "content"))
      exact ⟨hblocks.operational, fun h => ⟨(hblocks.wellFormed h).unique, (hblocks.wellFormed h).items⟩⟩
    · split
      · unfold addToolResult
        split
        · exact .refl t
        · exact (frame_ensureToolCall t _ _ _ _).trans (frame_updateCall _ _ fun _ => rfl)
      · exact .refl t

theorem WellFormed.appendOperational {t : SliceTrace} (h : t.WellFormed) (item : Option OperationalItem) :
    (t.appendOperational item).WellFormed := ⟨h.unique, (toolItemIds_appendItem _ _).trans h.items⟩

theorem WellFormed.addEntry {t : SliceTrace} (h : t.WellFormed) (host : Host) (entry : SessionEntry) :
    (t.addEntry host entry).WellFormed := by
  unfold SliceTrace.addEntry
  split
  · exact h.appendOperational _
  · exact (frame_addMessage host _ _ _).wellFormed (h.appendOperational _)

theorem WellFormed.addEvent {t : SliceTrace} (h : t.WellFormed) (host : Host) (turnRecordId : JsString)
    (event : ProcessEvent) : (addEvent host turnRecordId t event).WellFormed := by
  unfold SliceTrace.addEvent
  split
  · exact h.appendOperational _
  · exact h

theorem collect_wellFormed (host : Host) (turnRecordId : JsString) (turnSlice : List SessionEntry)
    (events : List ProcessEvent) : (collect host turnRecordId turnSlice events).WellFormed := by
  unfold collect
  apply List.foldlRecOn events
  · apply List.foldlRecOn turnSlice
    · exact ⟨List.nodup_nil, rfl⟩
    · exact fun t ht entry _ => ht.addEntry host entry
  · exact fun t ht event _ => ht.addEvent host turnRecordId event

/-! ## The operational items of a slice -/

theorem addEntry_items (host : Host) (t : SliceTrace) (entry : SessionEntry) :
    operationalItems (t.addEntry host entry).traceItems =
      operationalItems (appendOperationalTraceItem t.traceItems (entryItem host entry)) := by
  unfold addEntry entryItem
  split
  · rfl
  · exact (frame_addMessage host _ _ _).operational

theorem addEvent_items (host : Host) (turnRecordId : JsString) (t : SliceTrace) (event : ProcessEvent) :
    operationalItems (addEvent host turnRecordId t event).traceItems =
      operationalItems (appendOperationalTraceItem t.traceItems
        (if eventTurnRecordId event = some turnRecordId then eventItem host event else none)) := by
  unfold addEvent
  split
  · rfl
  · rfl

/-- The items of the entries and of the events of the turn, each once. -/
theorem collect_keys (host : Host) (turnRecordId : JsString) (turnSlice : List SessionEntry) (events : List ProcessEvent) :
    (traceKeys (collect host turnRecordId turnSlice events).traceItems).Nodup ∧
      ∀ key, key ∈ traceKeys (collect host turnRecordId turnSlice events).traceItems ↔
        key ∈ (turnSlice.filterMap (entryItem host)).map itemKey ∨
          key ∈ (((events.filter fun event => eventTurnRecordId event = some turnRecordId).filterMap
            (eventItem host)).map itemKey) := by
  obtain ⟨hnodup, -, hmem⟩ := foldl_keys SliceTrace.traceItems _ _ (addEntry_items host) turnSlice empty
  obtain ⟨hnodup', -, hmem'⟩ := foldl_keys SliceTrace.traceItems _ _ (addEvent_items host turnRecordId) events
    (turnSlice.foldl (addEntry host) empty)
  refine ⟨hnodup' (hnodup List.nodup_nil), fun key => ?_⟩
  unfold collect
  rw [hmem', hmem, List.filterMap_filter]
  simp [traceKeys, operationalItems, empty]

/-! ## The usage of a slice -/

/-- The usage that the message of an entry reports. -/
def entryUsage (entry : SessionEntry) : Option Usage :=
  entry.message?.bind fun message =>
    if readNonEmptyString (message.lookup "role") = some (JsString.lit "assistant") then
      (asUnknownRecord (message.lookup "usage")).bind normalizeUsage
    else none

theorem mergeUsage_isSome (total usage : Option Usage) :
    (mergeUsage total usage).isSome ↔ total.isSome ∨ usage.isSome := by
  cases total <;> cases usage <;> simp [mergeUsage]

theorem ensureToolCall_usage (t : SliceTrace) (id toolName startedAt : JsString) (arguments : Option Payload) :
    (t.ensureToolCall id toolName startedAt arguments).usage = t.usage := by
  unfold ensureToolCall
  split <;> rfl

theorem addBlock_usage (timestamp : JsString) (t : SliceTrace) (block : Payload) :
    (addBlock timestamp t block).usage = t.usage := by
  unfold addBlock
  split
  · split
    · split <;> rfl
    · rfl
  · split
    · split
      · exact ensureToolCall_usage t _ _ _ _
      · rfl
    · split
      · split <;> rfl
      · rfl

theorem addBlocks_usage (timestamp : JsString) (t : SliceTrace) (blocks : List Payload) :
    (blocks.foldl (addBlock timestamp) t).usage = t.usage := by
  induction blocks generalizing t with
  | nil => rfl
  | cons block blocks ih => exact (ih _).trans (addBlock_usage timestamp t block)

theorem addMessage_usage (host : Host) (t : SliceTrace) (timestamp : JsString) (message : Payload) :
    (t.addMessage host timestamp message).usage =
      if readNonEmptyString (message.lookup "role") = some (JsString.lit "assistant") then
        mergeUsage t.usage ((asUnknownRecord (message.lookup "usage")).bind normalizeUsage)
      else t.usage := by
  unfold addMessage
  dsimp only
  split
  · rename_i huser
    rw [if_neg (by rw [huser]; decide)]
    unfold addPrompt
    dsimp only
    split <;> rfl
  · split
    · unfold addAssistant
      dsimp only
      rw [addBlocks_usage]
    · split
      · unfold addToolResult
        split
        · rfl
        · exact ensureToolCall_usage t _ _ _ _
      · rfl

theorem addEntry_usage (host : Host) (t : SliceTrace) (entry : SessionEntry) :
    (t.addEntry host entry).usage.isSome ↔ t.usage.isSome ∨ (entryUsage entry).isSome := by
  unfold addEntry entryUsage
  cases entry.message? with
  | none => simp [appendOperational]
  | some message =>
    dsimp only
    rw [addMessage_usage, Option.bind_some]
    split
    · exact mergeUsage_isSome _ _
    · simp [appendOperational]

theorem addEvents_usage (host : Host) (turnRecordId : JsString) (events : List ProcessEvent) (t : SliceTrace) :
    (events.foldl (addEvent host turnRecordId) t).usage = t.usage := by
  induction events generalizing t with
  | nil => rfl
  | cons event events ih =>
    rw [List.foldl_cons, ih]
    unfold addEvent
    split <;> rfl

/-- There is usage when a message of the assistant reports some. -/
theorem collect_usage (host : Host) (turnRecordId : JsString) (turnSlice : List SessionEntry) (events : List ProcessEvent) :
    (collect host turnRecordId turnSlice events).usage.isSome ↔ ∃ entry ∈ turnSlice, (entryUsage entry).isSome := by
  have hfold : ∀ t : SliceTrace, (turnSlice.foldl (addEntry host) t).usage.isSome ↔
      t.usage.isSome ∨ ∃ entry ∈ turnSlice, (entryUsage entry).isSome := by
    induction turnSlice with
    | nil => simp
    | cons entry turnSlice ih =>
      intro t
      rw [List.foldl_cons, ih, addEntry_usage, or_assoc]
      simp
  unfold collect
  rw [addEvents_usage, hfold]
  simp [empty]

end SliceTrace

/-! ## The replay of the events -/

/-- The event as the projection takes it in. -/
def projected (event : ProcessEvent) : Event :=
  { eventType := event.eventType
    data := asWsEventPayloadRecord event.data
    fallbackTimestamp := event.createdAt }

theorem operationalItems_thinking (items : List TraceItem) (text : JsString) :
    operationalItems (appendThinkingTraceText items text) = operationalItems items := by
  unfold appendThinkingTraceText
  split
  · rfl
  · split
    · rename_i last hlast
      obtain ⟨front, rfl⟩ := List.getLast?_eq_some_iff.1 hlast
      rw [List.dropLast_concat, operationalItems_append, operationalItems_append]
      rfl
    · rw [operationalItems_append]
      exact List.append_nil _

theorem operationalItems_ensure (items : List TraceItem) (id : JsString) :
    operationalItems (ensureToolTraceItem items id) = operationalItems items := by
  unfold ensureToolTraceItem
  split
  · rfl
  · rw [operationalItems_append]
    exact List.append_nil _

theorem buildOperationalItem_none {host : Host} {eventType : String} (data : Payload) (fallbackTimestamp : JsString)
    (h : eventType = "pi.stream.delta" ∨ isToolEvent eventType = true ∨ eventType = "pi.usage") :
    buildOperationalItem host eventType data fallbackTimestamp = none := by
  simp only [isToolEvent, Bool.or_eq_true, decide_eq_true_eq] at h
  rcases h with rfl | (rfl | rfl) | rfl <;> rfl

/-- An event adds its operational item, whatever the trace shows. -/
theorem operationalItems_next (host : Host) (s : State) (e : Event) : operationalItems (s.next host e).traceItems =
    operationalItems s.traceItems ++ (buildOperationalItem host e.eventType e.data e.fallbackTimestamp).toList := by
  unfold State.next
  dsimp only
  split
  · rename_i hdelta
    rw [buildOperationalItem_none _ _ (.inl hdelta), Option.toList_none, List.append_nil]
    unfold State.recordDelta
    split
    · rfl
    · rfl
    · split
      · exact operationalItems_thinking _ _
      · rfl
  · split
    · rename_i htool
      rw [buildOperationalItem_none _ _ (.inr (.inl htool)), Option.toList_none, List.append_nil]
      exact operationalItems_ensure _ _
    · split
      · rename_i husage
        rw [buildOperationalItem_none _ _ (.inr (.inr husage)), Option.toList_none, List.append_nil]
      · split
        · rename_i item hitem
          rw [hitem, operationalItems_append]
          rfl
        · rename_i hnone
          rw [hnone, Option.toList_none, List.append_nil]

theorem operationalItems_run (host : Host) (s : State) (events : List ProcessEvent) :
    operationalItems (s.run host (events.map projected)).traceItems =
      operationalItems s.traceItems ++ events.filterMap (eventItem host) := by
  induction events generalizing s with
  | nil => simp [State.run]
  | cons event events ih =>
    have hnext := operationalItems_next host s (projected event)
    show operationalItems ((s.next host (projected event)).run host (events.map projected)).traceItems = _
    rw [ih, hnext, List.filterMap_cons, List.append_assoc]
    show _ ++ ((eventItem host event).toList ++ _) = _
    cases eventItem host event <;> rfl

theorem usage_next (host : Host) (s : State) (e : Event) : (s.next host e).usage =
    if e.eventType = "pi.usage" then mergeUsage s.usage (normalizeUsage e.data) else s.usage := by
  unfold State.next
  dsimp only
  split
  · rename_i hdelta
    rw [if_neg (by rw [hdelta]; decide)]
    unfold State.recordDelta
    split
    · rfl
    · rfl
    · split <;> rfl
  · split
    · rename_i htool
      rw [if_neg]
      · rfl
      · intro husage
        rw [husage] at htool
        cases htool
    · split
      · rfl
      · split <;> rfl

/-- An event that reports usage. -/
def RecordsUsage (event : ProcessEvent) : Prop :=
  event.eventType = "pi.usage" ∧ (normalizeUsage (asWsEventPayloadRecord event.data)).isSome

theorem usage_run (host : Host) (s : State) (events : List ProcessEvent) :
    (s.run host (events.map projected)).usage.isSome ↔ s.usage.isSome ∨ ∃ event ∈ events, RecordsUsage event := by
  induction events generalizing s with
  | nil => simp [State.run]
  | cons event events ih =>
    have hnext : (s.next host (projected event)).usage.isSome ↔ s.usage.isSome ∨ RecordsUsage event := by
      rw [usage_next]
      show Option.isSome (if event.eventType = "pi.usage" then _ else _) ↔ _
      by_cases husage : event.eventType = "pi.usage"
      · rw [if_pos husage, SliceTrace.mergeUsage_isSome, RecordsUsage, and_iff_right husage]
        rfl
      · rw [if_neg husage, RecordsUsage, iff_self_or]
        exact fun h => absurd h.1 husage
    show ((s.next host (projected event)).run host (events.map projected)).usage.isSome ↔ _
    rw [ih, hnext, or_assoc]
    simp

end Leitwerk.TurnTrace
