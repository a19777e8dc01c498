import Leitwerk.TurnTrace.Collecting
/-!
# What a committed trace keeps

The trace of the session is committed where the recorded events show no more
text and no more of any call; `hasAdditionalRecordedActivity` compares neither
usage nor the items of the two traces. Otherwise the replay of the events is
committed, which shows an event as often as it was recorded.
`buildCommittedTurnTrace_keeps_iff` says when nothing is lost.
-/

namespace Leitwerk.TurnTrace

open JsString (lit)
open Protocol LiveTurn Comparison

variable (host : Host)

namespace Turn

variable (turn : Turn)

/-- The activity that was recorded: the replay of the events of the turn. -/
def recorded : TraceSnapshot := (createLiveTurnProjection host turn.turnEvents).snapshot host none

/-- The operational items of the events. -/
def recordedItems : List OperationalItem := turn.turnEvents.filterMap (eventItem host)

/-- The operational items of the session and of the events. -/
def items : List OperationalItem :=
  (if turn.turnRecord.turnType = .llm then (turn.slice host).filterMap (entryItem host) else []) ++ turn.recordedItems host

/-- The trace of the session is there, and the recorded one shows no more. -/
def SessionKept : Prop :=
  ∃ session, turn.buildTurnTraceFromSession host sort = some session ∧
    hasAdditionalRecordedActivity (turn.recorded host) session = false

/-- What `buildTurnTraceFromSlice` collects for the turn. -/
def collected : SliceTrace := .collect host turn.turnRecord.id (turn.slice host) turn.events

end Turn

/-- A trace holds all recorded activity, in order and without repetition. -/
structure KeepsRecorded (turn : Turn) (trace : TraceSnapshot) : Prop where
  text : (turn.recorded host).assistant.text <:+: trace.assistant.text
  thinking : (turn.recorded host).assistant.thinking <:+: trace.assistant.thinking
  tools : ∀ tool ∈ (turn.recorded host).toolCalls, ∃ kept ∈ trace.toolCalls,
    kept.toolCallId = tool.toolCallId ∧ (tool.status = .completed → kept.status = .completed) ∧
      ∀ text, tool.shown.resultText = some text → ∃ keptText, kept.shown.resultText = some keptText ∧ text <:+: keptText
  operational : ∀ item ∈ turn.recordedItems host, ∃ kept ∈ operationalItems trace.traceItems, itemKey kept = itemKey item
  usage : (∃ event ∈ turn.turnEvents, RecordsUsage event) → trace.usage.isSome
  ordered : (operationalItems trace.traceItems).Pairwise fun left right =>
    compareTimestampStrings host left.timestamp right.timestamp ≤ 0
  distinct : ((operationalItems trace.traceItems).map itemKey).Nodup
  toolItems : ∀ tool ∈ trace.toolCalls, trace.traceItems.count (.toolCall tool.toolCallId) = 1

/-- When it does. A trace of the session that is kept has to have usage where some
was recorded; a replay must not repeat an item; and the times of the items can
be put in order. -/
structure Keepable (turn : Turn) : Prop where
  usage : turn.SessionKept host → (∃ event ∈ turn.turnEvents, RecordsUsage event) →
    ∃ entry ∈ turn.slice host, (SliceTrace.entryUsage entry).isSome
  distinct : ¬ turn.SessionKept host → ((turn.recordedItems host).map itemKey).Nodup
  consistent : Consistent (compareOperationalTraceItems host) (turn.items host)

/-! ## The recorded activity -/

variable {host} {turn : Turn} {sorter : Sorter}

theorem recorded_state (host : Host) (turn : Turn) : ∃ events : List ProcessEvent, events.Perm turn.turnEvents ∧
    (createLiveTurnProjection host turn.turnEvents).state = State.empty.run host (events.map projected) :=
  ⟨_, sort_perm (compareProcessEventsChronologically host) _, rfl⟩

theorem recorded_keys (host : Host) (turn : Turn) :
    (traceKeys (turn.recorded host).traceItems).Perm ((turn.recordedItems host).map itemKey) := by
  obtain ⟨events, hperm, hstate⟩ := recorded_state host turn
  show (traceKeys (createLiveTurnProjection host turn.turnEvents).state.traceItems).Perm _
  rw [hstate, traceKeys, operationalItems_run]
  exact (hperm.filterMap _).map _

theorem recorded_usage (host : Host) (turn : Turn) :
    (turn.recorded host).usage.isSome ↔ ∃ event ∈ turn.turnEvents, RecordsUsage event := by
  obtain ⟨events, hperm, hstate⟩ := recorded_state host turn
  show (createLiveTurnProjection host turn.turnEvents).state.usage.isSome ↔ _
  rw [hstate, usage_run]
  simp [State.empty, hperm.mem_iff]

theorem recorded_calls (host : Host) (turn : Turn) : ((turn.recorded host).toolCalls.map (·.toolCallId)).Nodup ∧
    toolItemIds (turn.recorded host).traceItems = (turn.recorded host).toolCalls.map (·.toolCallId) := by
  obtain ⟨events, -, hstate⟩ := recorded_state host turn
  have hwf := State.WellFormed.empty.run host (events.map projected)
  rw [← hstate] at hwf
  have hids : (turn.recorded host).toolCalls.map (·.toolCallId) = (createLiveTurnProjection host turn.turnEvents).state.ids :=
    List.map_map
  rw [hids]
  exact ⟨hwf.unique, hwf.items⟩

/-! ## The trace of the session -/

theorem fromSession_eq (sorter : Sorter) (turn : Turn) : turn.buildTurnTraceFromSession host sorter =
    if turn.turnRecord.turnType = .llm ∧ (turn.collected host).isEmpty = false then
      some ((turn.collected host).finish host sorter)
    else none := by
  have hsource : turn.buildTurnTraceFromSession host sorter =
      if turn.turnRecord.turnType ≠ .llm then none
      else if (turn.collected host).isEmpty then none
      else some ((turn.collected host).finish host sorter) := rfl
  rw [hsource]
  by_cases hllm : turn.turnRecord.turnType = .llm
  · cases hempty : (turn.collected host).isEmpty <;> simp [hllm]
  · simp [hllm]

/-- Which trace is kept does not depend on how it is sorted. -/
theorem sessionKept_iff (sorter : Sorter) : turn.SessionKept host ↔
    (turn.turnRecord.turnType = .llm ∧ (turn.collected host).isEmpty = false) ∧
      hasAdditionalRecordedActivity (turn.recorded host) ((turn.collected host).finish host sorter) = false := by
  unfold Turn.SessionKept
  rw [fromSession_eq]
  split
  · rename_i h
    simp only [Option.some_inj, exists_eq_left', and_iff_right h]
    rfl
  · rename_i h
    simp [h]

/-- The keys of what the session traces, where there is a trace of it. -/
theorem session_keys (host : Host) (sorter : Sorter) (hs : Sorts sorter) (turn : Turn) (key : ItemKey) :
    (key ∈ (turn.recordedItems host).map itemKey ∨
        key ∈ ((turn.buildTurnTraceFromSession host sorter).elim [] fun session => traceKeys session.traceItems)) ↔
      key ∈ (turn.items host).map itemKey := by
  have hcollect := (SliceTrace.collect_keys host turn.turnRecord.id (turn.slice host) turn.events).2 key
  rw [fromSession_eq, Turn.items, List.map_append, List.mem_append]
  by_cases hllm : turn.turnRecord.turnType = .llm
  · rw [if_pos hllm]
    by_cases hempty : (turn.collected host).isEmpty = false
    · have hkeys : key ∈ traceKeys ((turn.collected host).finish host sorter).traceItems ↔
          key ∈ traceKeys (turn.collected host).traceItems := (traceKeys_sorted host _ hs).mem_iff
      rw [if_pos ⟨hllm, hempty⟩, Option.elim_some, hkeys, Turn.collected, hcollect]
      tauto
    · -- nothing is collected, so the slice has no items
      have hnil : (turn.collected host).traceItems = [] := by
        simp only [SliceTrace.isEmpty, Bool.not_eq_false, Bool.and_eq_true, List.isEmpty_iff] at hempty
        exact hempty.2
      rw [Turn.collected] at hnil
      rw [hnil] at hcollect
      rw [if_neg (fun h => hempty h.2)]
      simp only [traceKeys, operationalItems, List.filterMap_nil, List.map_nil, List.not_mem_nil, false_iff,
        not_or] at hcollect
      simp [hcollect.1]
  · rw [if_neg hllm, if_neg (fun h => hllm h.1)]
    simp

/-! ## The two branches -/

/-- The prompt that is handed on makes no difference. -/
theorem additional_snapshot (turn : Turn) (piInput : Option Value) (session : TraceSnapshot) :
    hasAdditionalRecordedActivity ((createLiveTurnProjection host turn.turnEvents).snapshot host piInput) session =
      hasAdditionalRecordedActivity (turn.recorded host) session := rfl

theorem committed_kept (h : turn.SessionKept host) (sorter : Sorter) :
    buildCommittedTurnTrace host sorter turn = (turn.collected host).finish host sorter := by
  obtain ⟨hsession, hadd⟩ := (sessionKept_iff sorter).1 h
  unfold buildCommittedTurnTrace
  rw [fromSession_eq, if_pos hsession]
  dsimp only
  rw [additional_snapshot, hadd]
  rfl

theorem committed_merged (h : ¬ turn.SessionKept host) (sorter : Sorter) : ∃ piInput,
    buildCommittedTurnTrace host sorter turn =
      mergeSession host sorter { turn.recorded host with piInput } (turn.buildTurnTraceFromSession host sorter) := by
  rw [sessionKept_iff sorter] at h
  unfold buildCommittedTurnTrace
  rw [fromSession_eq]
  split
  · rename_i hsession
    dsimp only
    rw [additional_snapshot, if_pos (by simpa [hsession] using h)]
    exact ⟨_, rfl⟩
  · exact ⟨_, rfl⟩

/-! ## What is sorted last -/

/-- The trace before its items are sorted. -/
structure Unsorted (host : Host) (sorter : Sorter) (turn : Turn) (items : List TraceItem) : Prop where
  sorted : (buildCommittedTurnTrace host sorter turn).traceItems = ensureSortedTraceItems host sorter items
  keys : ∀ key, key ∈ traceKeys items ↔ key ∈ (turn.items host).map itemKey
  calls : toolItemIds items = (buildCommittedTurnTrace host sorter turn).toolCalls.map (·.toolCallId)
  unique : ((buildCommittedTurnTrace host sorter turn).toolCalls.map (·.toolCallId)).Nodup
  distinct : (traceKeys items).Nodup ↔ turn.SessionKept host ∨ ((turn.recordedItems host).map itemKey).Nodup

theorem unsorted_kept (h : turn.SessionKept host) (sorter : Sorter) :
    Unsorted host sorter turn (turn.collected host).traceItems := by
  have hwf : (turn.collected host).WellFormed := SliceTrace.collect_wellFormed _ _ _ _
  obtain ⟨hnodup, hmem⟩ := SliceTrace.collect_keys host turn.turnRecord.id (turn.slice host) turn.events
  have hllm := ((sessionKept_iff sorter).1 h).1.1
  refine ⟨by rw [committed_kept h]; rfl, fun key => ?_, ?_, ?_, ?_⟩
  · rw [Turn.collected, hmem, Turn.items, if_pos hllm, List.map_append, List.mem_append]
    rfl
  · rw [committed_kept h]
    exact hwf.items
  · rw [committed_kept h]
    exact hwf.unique
  · exact ⟨fun _ => .inl h, fun _ => hnodup⟩

theorem toolItemIds_appendItems (items : List TraceItem) (added : List OperationalItem) :
    toolItemIds (added.foldl (fun items item => appendOperationalTraceItem items (some item)) items) = toolItemIds items := by
  induction added generalizing items with
  | nil => rfl
  | cons item added ih => exact (ih _).trans (toolItemIds_appendItem items (some item))

theorem unsorted_merged (h : ¬ turn.SessionKept host) (hs : Sorts sorter) : ∃ items, Unsorted host sorter turn items := by
  obtain ⟨piInput, hcommitted⟩ := committed_merged h sorter
  obtain ⟨hunique, hcalls⟩ := recorded_calls host turn
  let added := (turn.buildTurnTraceFromSession host sorter).elim [] fun session => operationalItems session.traceItems
  obtain ⟨hnodup, hprefix, hmem⟩ := foldl_keys id (fun items item => appendOperationalTraceItem items (some item)) some
    (fun _ _ => rfl) added (turn.recorded host).traceItems
  refine ⟨_, by rw [hcommitted]; rfl, fun key => ?_, ?_, ?_, ?_⟩
  · have hsession := session_keys host sorter hs turn key
    have hadded : (added.filterMap some).map itemKey =
        (turn.buildTurnTraceFromSession host sorter).elim [] fun session => traceKeys session.traceItems := by
      rw [List.filterMap_some]
      simp only [added]
      cases turn.buildTurnTraceFromSession host sorter <;> rfl
    rw [← hsession, ← hadded, ← (recorded_keys host turn).mem_iff]
    exact hmem key
  · rw [hcommitted]
    exact (toolItemIds_appendItems _ added).trans hcalls
  · rw [hcommitted]
    exact hunique
  · rw [← (recorded_keys host turn).nodup_iff, or_iff_right h]
    exact ⟨fun hall => hall.sublist hprefix.sublist, hnodup⟩

theorem exists_unsorted (host : Host) (hs : Sorts sorter) (turn : Turn) : ∃ items, Unsorted host sorter turn items := by
  by_cases h : turn.SessionKept host
  · exact ⟨_, unsorted_kept h sorter⟩
  · exact unsorted_merged h hs

/-! ## The order of the items -/

theorem compareOperationalTraceItems_eq (host : Host) (left right : OperationalItem) :
    compareOperationalTraceItems host left right =
      if compareTimestampStrings host left.timestamp right.timestamp ≠ 0 then
        compareTimestampStrings host left.timestamp right.timestamp
      else if host.localeCompare (lit left.eventType) (lit right.eventType) ≠ 0 then
        host.localeCompare (lit left.eventType) (lit right.eventType)
      else host.localeCompare left.message right.message := rfl

theorem compareKeys_antisymm (hc : host.Collates) : Antisymmetric (compareOperationalTraceItems host) := by
  intro left right
  have := compareTimestampStrings_antisymm hc left.timestamp right.timestamp
  have := compareTimestampStrings_antisymm hc right.timestamp left.timestamp
  have := hc.antisymmetric (lit left.eventType) (lit right.eventType)
  have := hc.antisymmetric (lit right.eventType) (lit left.eventType)
  have := hc.antisymmetric left.message right.message
  rw [compareOperationalTraceItems_eq, compareOperationalTraceItems_eq]
  split <;> split <;> try split
  all_goals try split
  all_goals omega

/-- Items that come in order come in the order of their times. -/
theorem timestamp_le {left right : OperationalItem} (h : compareOperationalTraceItems host left right ≤ 0) :
    compareTimestampStrings host left.timestamp right.timestamp ≤ 0 := by
  rw [compareOperationalTraceItems_eq] at h
  split at h
  · exact h
  · omega

/-- Items of one time are in the order of their types and messages. -/
theorem consistent_of_one_time (hc : host.Collates) {l : List OperationalItem}
    (h : ∀ a ∈ l, ∀ b ∈ l, compareTimestampStrings host a.timestamp b.timestamp = 0) :
    Consistent (compareOperationalTraceItems host) l := by
  have htypes : Preorder fun a b : OperationalItem => host.localeCompare (lit a.eventType) (lit b.eventType) :=
    ⟨fun _ _ => hc.antisymmetric _ _, fun _ _ _ => hc.trans _ _ _⟩
  have hmessages : Preorder fun a b : OperationalItem => host.localeCompare a.message b.message :=
    ⟨fun _ _ => hc.antisymmetric _ _, fun _ _ _ => hc.trans _ _ _⟩
  have hlex := htypes.lex hmessages
  have heq : ∀ a ∈ l, ∀ b ∈ l, compareOperationalTraceItems host a b =
      if host.localeCompare (lit a.eventType) (lit b.eventType) ≠ 0 then
        host.localeCompare (lit a.eventType) (lit b.eventType)
      else host.localeCompare a.message b.message := by
    intro a ha b hb
    rw [compareOperationalTraceItems_eq, if_neg (not_not.2 (h a ha b hb))]
  refine ⟨fun a _ b _ => compareKeys_antisymm hc a b, fun a ha b hb c hc' => ?_⟩
  rw [heq a ha b hb, heq b hb c hc', heq a ha c hc']
  exact hlex.trans a b c

/-- Where the items are in no order, an implementation may put them into a wrong one. -/
theorem exists_disorder (hc : host.Collates) (l : List OperationalItem) : ∃ l' : List OperationalItem, l'.Perm l ∧
    (¬ Consistent (compareOperationalTraceItems host) l →
      ¬ l'.Pairwise fun a b => compareTimestampStrings host a.timestamp b.timestamp ≤ 0) := by
  by_cases hex : ∃ a ∈ l, ∃ b ∈ l, 0 < compareTimestampStrings host a.timestamp b.timestamp
  · obtain ⟨a, ha, b, hb, hlt⟩ := hex
    refine ⟨a :: l.erase a, (List.perm_cons_erase ha).symm, fun _ hpair => ?_⟩
    have hne : b ≠ a := by
      rintro rfl
      have := (compareTimestampStrings_antisymm hc).self b.timestamp
      omega
    have hle := (List.pairwise_cons.1 hpair).1 b ((List.mem_erase_of_ne hne).2 hb)
    omega
  · refine ⟨l, .refl l, fun hnot => absurd (consistent_of_one_time hc fun a ha b hb => ?_) hnot⟩
    push Not at hex
    have := hex a ha b hb
    have := hex b hb a ha
    have := compareTimestampStrings_antisymm hc a.timestamp b.timestamp
    omega

theorem Unsorted.consistent_iff {items : List TraceItem} (h : Unsorted host sorter turn items) :
    Consistent (compareOperationalTraceItems host) (operationalItems items) ↔
      Consistent (compareOperationalTraceItems host) (turn.items host) := by
  have hkeys : ∀ a b, compareOperationalTraceItems host a b = compareKeys host (itemKey a) (itemKey b) := fun _ _ => rfl
  rw [consistent_map _ hkeys, consistent_map _ hkeys]
  exact ⟨fun hcon => hcon.mono fun key hkey => (h.keys key).2 hkey, fun hcon => hcon.mono fun key hkey => (h.keys key).1 hkey⟩

/-! ## What is kept -/

theorem count_toolCall (items : List TraceItem) (id : JsString) :
    items.count (.toolCall id) = (toolItemIds items).count id := by
  induction items with
  | nil => rfl
  | cons item items ih =>
    rw [toolItemIds_cons, List.count_append, List.count_cons, ih]
    cases item <;> simp [TraceItem.toolId?, List.count_singleton, Nat.add_comm]

/-- A trace that is kept has the texts and the calls of the other one. -/
theorem activity_of_not_additional {recorded session : TraceSnapshot}
    (h : hasAdditionalRecordedActivity recorded session = false) :
    (recorded.assistant.text <:+: session.assistant.text ∧ recorded.assistant.thinking <:+: session.assistant.thinking) ∧
      ∀ tool ∈ recorded.toolCalls, ∃ kept ∈ session.toolCalls,
        kept.toolCallId = tool.toolCallId ∧ (tool.status = .completed → kept.status = .completed) ∧
          ∀ text, tool.shown.resultText = some text →
            ∃ keptText, kept.shown.resultText = some keptText ∧ text <:+: keptText := by
  unfold hasAdditionalRecordedActivity at h
  split at h
  · cases h
  · rename_i htexts
    refine ⟨by tauto, fun tool htool => ?_⟩
    have hno := List.any_eq_false.1 h tool htool
    split at hno
    · exact absurd rfl hno
    · rename_i saved hsaved
      have hid := List.find?_some hsaved
      simp only [Bool.or_eq_true, not_or, Bool.and_eq_true, decide_eq_true_eq, not_and, not_not] at hno
      refine ⟨saved, List.mem_reverse.1 (List.mem_of_find?_eq_some hsaved), by simpa using hid, hno.1, fun text htext => ?_⟩
      have hincluded := hno.2
      rw [htext, Option.any_some, Bool.not_eq_true', Bool.not_eq_false, Option.any_eq_true] at hincluded
      obtain ⟨keptText, hkept, hinfix⟩ := hincluded
      exact ⟨keptText, hkept, by simpa using hinfix⟩

/-- Texts and calls are never lost. -/
theorem committed_activity (host : Host) (sorter : Sorter) (turn : Turn) :
    ((turn.recorded host).assistant.text <:+: (buildCommittedTurnTrace host sorter turn).assistant.text ∧
        (turn.recorded host).assistant.thinking <:+: (buildCommittedTurnTrace host sorter turn).assistant.thinking) ∧
      ∀ tool ∈ (turn.recorded host).toolCalls, ∃ kept ∈ (buildCommittedTurnTrace host sorter turn).toolCalls,
        kept.toolCallId = tool.toolCallId ∧ (tool.status = .completed → kept.status = .completed) ∧
          ∀ text, tool.shown.resultText = some text →
            ∃ keptText, kept.shown.resultText = some keptText ∧ text <:+: keptText := by
  by_cases h : turn.SessionKept host
  · rw [committed_kept h]
    exact activity_of_not_additional ((sessionKept_iff sorter).1 h).2
  · obtain ⟨piInput, hcommitted⟩ := committed_merged h sorter
    rw [hcommitted]
    refine ⟨⟨List.infix_rfl, List.infix_rfl⟩, fun tool htool => ⟨tool, htool, rfl, id, fun text htext => ?_⟩⟩
    exact ⟨text, htext, List.infix_rfl⟩

/-- There is usage unless the trace of the session is kept and has none. -/
theorem committed_usage (sorter : Sorter) (turn : Turn) :
    ((∃ event ∈ turn.turnEvents, RecordsUsage event) → (buildCommittedTurnTrace host sorter turn).usage.isSome) ↔
      (turn.SessionKept host → (∃ event ∈ turn.turnEvents, RecordsUsage event) →
        ∃ entry ∈ turn.slice host, (SliceTrace.entryUsage entry).isSome) := by
  by_cases h : turn.SessionKept host
  · have hcollected := SliceTrace.collect_usage host turn.turnRecord.id (turn.slice host) turn.events
    rw [committed_kept h, ← hcollected, forall_prop_of_true h]
    rfl
  · obtain ⟨piInput, hcommitted⟩ := committed_merged h sorter
    rw [hcommitted, ← recorded_usage host]
    refine ⟨fun _ hkept => absurd hkept h, fun _ hrecorded => ?_⟩
    show Option.isSome ((turn.recorded host).usage.or _) = true
    rw [Option.isSome_or, hrecorded, Bool.true_or]

theorem keeps_of_keepable (h : Keepable host turn) (hs : Sorts sorter) :
    KeepsRecorded host turn (buildCommittedTurnTrace host sorter turn) := by
  obtain ⟨items, hitems⟩ := exists_unsorted host hs turn
  obtain ⟨⟨htext, hthinking⟩, htools⟩ := committed_activity host sorter turn
  have hkeys := traceKeys_sorted host items hs
  have husage := (committed_usage sorter turn).2 h.usage
  refine ⟨htext, hthinking, htools, fun item hitem => ?_, husage, ?_, ?_, fun tool htool => ?_⟩
  · have hmem : itemKey item ∈ traceKeys items := by
      rw [hitems.keys, Turn.items, List.map_append]
      exact List.mem_append_right _ (List.mem_map_of_mem hitem)
    rw [hitems.sorted]
    exact List.mem_map.1 (hkeys.mem_iff.2 hmem)
  · have hconsistent := hitems.consistent_iff.2 h.consistent
    rw [hitems.sorted, operationalItems_sorted host items hs, hs.stable _ _ hconsistent]
    exact hconsistent.pairwise_sort.imp timestamp_le
  · rw [hitems.sorted]
    refine hkeys.nodup_iff.2 (hitems.distinct.2 ?_)
    by_cases hkept : turn.SessionKept host
    · exact .inl hkept
    · exact .inr (h.distinct hkept)
  · rw [hitems.sorted, count_toolCall, toolItemIds_sorted, hitems.calls]
    exact List.count_eq_one_of_mem hitems.unique (List.mem_map_of_mem htool)

theorem keepable_of_keeps (hc : host.Collates)
    (h : ∀ sorter, Sorts sorter → KeepsRecorded host turn (buildCommittedTurnTrace host sorter turn)) : Keepable host turn := by
  have hsort := h sort sorts_sort
  refine ⟨(committed_usage sort turn).1 hsort.usage, fun hkept => ?_, ?_⟩
  · obtain ⟨items, hitems⟩ := exists_unsorted host sorts_sort turn
    have hdistinct : (traceKeys items).Nodup := by
      rw [← (traceKeys_sorted host items sorts_sort).nodup_iff, ← hitems.sorted]
      exact hsort.distinct
    exact (hitems.distinct.1 hdistinct).resolve_left hkept
  · by_contra hnot
    choose disorder hperm hbad using exists_disorder hc
    obtain ⟨sorter, hs, hsorter⟩ := exists_sorter disorder hperm
    obtain ⟨items, hitems⟩ := exists_unsorted host hs turn
    have hitemsNot := mt hitems.consistent_iff.1 hnot
    have hordered := (h sorter hs).ordered
    rw [hitems.sorted, operationalItems_sorted host items hs, hsorter _ _ hitemsNot] at hordered
    exact hbad _ hitemsNot hordered

/-- A committed trace keeps what was recorded, however the implementation sorts,
exactly where the conditions of `Keepable` hold. -/
theorem buildCommittedTurnTrace_keeps_iff (host : Host) (hc : host.Collates) (turn : Turn) :
    (∀ sorter, Sorts sorter → KeepsRecorded host turn (buildCommittedTurnTrace host sorter turn)) ↔ Keepable host turn :=
  ⟨keepable_of_keeps hc, fun h _ hs => keeps_of_keepable h hs⟩

/-! ## Activity that is lost -/

/-- An event that names the turn. -/
def recordedEvent (eventSequence : Int) (id eventType : String) (fields : Payload) : ProcessEvent :=
  { eventSequence := some eventSequence
    id := lit id
    eventType
    data := .obj (("turnRecordId", .str (lit "turn")) :: fields)
    createdAt := lit "1970-01-01T00:00:00.002Z" }

/-- A turn whose session holds the prompt. -/
def promptedTurn (events : List ProcessEvent) : Turn where
  entries := [{
    id := "prompt"
    parentId := none
    timestamp := "1970-01-01T00:00:00.001Z"
    type := "message"
    fields := [("message", .obj [("role", .str (lit "user")), ("content", .str (lit "Go"))])] }]
  turnRecord := { id := lit "turn", turnType := .llm }
  events

/-- Usage is recorded, and nothing else. -/
def usageOnly : Turn := promptedTurn [recordedEvent 1 "a" "pi.usage" [("cost", .obj [])]]

/-- One error is recorded twice, after a text that the session lacks. -/
def errorTwice : Turn :=
  promptedTurn [recordedEvent 1 "a" "pi.stream.delta" [("text", .str (lit "Hm"))],
    recordedEvent 2 "b" "pi.error" [("message", .str (lit "Overloaded"))],
    recordedEvent 3 "c" "pi.error" [("message", .str (lit "Overloaded"))]]

/-- A text that the session lacks, and one error. -/
def errorOnce : Turn :=
  promptedTurn [recordedEvent 1 "a" "pi.stream.delta" [("text", .str (lit "Hm"))],
    recordedEvent 2 "b" "pi.error" [("message", .str (lit "Overloaded"))]]

theorem buildCommittedTurnTrace_keeps_errorOnce :
    KeepsRecorded clockHost errorOnce (buildCommittedTurnTrace clockHost sort errorOnce) := by
  refine (buildCommittedTurnTrace_keeps_iff clockHost clockHost_collates errorOnce).2 ⟨?_, ?_, ?_⟩ sort sorts_sort
  · rintro - ⟨event, hevent, husage, -⟩
    have htypes : ∀ event ∈ errorOnce.turnEvents, event.eventType ≠ "pi.usage" := by decide +kernel
    exact absurd husage (htypes event hevent)
  · exact fun _ => by decide +kernel
  · exact consistent_of_one_time clockHost_collates (by decide +kernel)

/-- The usage is dropped with the trace it is in, and the replay shows the error twice. -/
theorem buildCommittedTurnTrace_loses :
    (¬ KeepsRecorded clockHost usageOnly (buildCommittedTurnTrace clockHost sort usageOnly)) ∧
      ¬ KeepsRecorded clockHost errorTwice (buildCommittedTurnTrace clockHost sort errorTwice) := by
  refine ⟨fun h => ?_, fun h => ?_⟩
  · have hnone : (buildCommittedTurnTrace clockHost sort usageOnly).usage.isSome = false := by decide +kernel
    have hsome := h.usage ⟨_, List.mem_cons_self, rfl, by decide +kernel⟩
    rw [hnone] at hsome
    cases hsome
  · exact absurd h.distinct (by decide +kernel)

end Leitwerk.TurnTrace
