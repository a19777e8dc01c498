import Leitwerk.Engine.Waits
/-!
# Mapped turns

`mapped-turns.ts`. Entering a mapped turn freezes its items and reserves a start
for the first; an empty run collects and routes at once, possibly into the next
mapped turn. An item's outcome reserves the next item's start and, after the
last, collects all results and routes once.
-/

namespace Leitwerk.Engine

variable (d : ProcessDefinition)

/-- `MAX_EMPTY_MAPPED_ENTRIES`. -/
def maxEmptyMappedEntries : Nat := 16

/-- `getMappedTurnSpec`. -/
def getMappedTurnSpec (turnId : TurnId) : Option MappedLlmTurnSpec :=
  match d.turns turnId with
  | some turn => if turn.turnType = .llm then turn.forEach else none
  | none => none

/-- `collectAndRoute`. -/
def collectAndRoute (p : Process) (spec : MappedLlmTurnSpec) (resultJsons : List Json) (ids : FreshIds) :
    Except Rejection Writes := do
  let collected ← spec.collectResults p resultJsons
  buildServerTransitionWrites d p
    { turnId := some collected.nextTurnId
      lifecycleStatus := collected.lifecycleStatus.map TerminalStatus.toLifecycle
      trigger := some collected.trigger, state := some collected.state } ids

/-- A created start that enters a mapped turn: an LLM start of the selected turn, not an item's. -/
def entersTurn (selectedTurnId : Option TurnId) (s : TurnStartInput) : Bool :=
  s.turnType == .llm && s.startKind == .selectedTurn && s.iteration.isNone && some s.turnId == selectedTurnId

/-- The mapped turn the writes enter, if any. -/
def mappedEntry (candidate : Process) (w : Writes) : Option (TurnStartInput × MappedLlmTurnSpec) :=
  (w.creates.find? (entersTurn candidate.selectedTurnId)).bind fun s =>
    (getMappedTurnSpec d s.turnId).map fun spec => (s, spec)

/-- Gives the entering start its item. -/
def Writes.setIteration (w : Writes) (selectedTurnId : Option TurnId) (item : MappedTurnItemRef) : Writes :=
  w.replaceCreate fun s => if entersTurn selectedTurnId s then some { s with iteration := some item } else none

/-- Aborts the active run when the writes leave its turn. -/
def leaveActiveRun (candidate : Process) (active : Option MappedRun) (activeAborted : Bool) (w : Writes) : Writes :=
  match active with
  | some run =>
    let completes := w.mappedRunWrites.any fun
      | .completeItem .. => true
      | _ => false
    if activeAborted = false ∧ completes = false ∧
        (candidate.selectedTurnId ≠ some run.turnId ∨ candidate.lifecycleStatus = .completed ∨
          candidate.lifecycleStatus = .aborted) then
      { w with mappedRunWrites := w.mappedRunWrites ++ [.abortActive] }
    else w
  | none => w

/-- Records the frozen run in the writes; an empty one is complete at once. -/
def freezeRun (active : Option MappedRun) (activeAborted : Bool) (candidate : Process) (turnId : TurnId) (runId : String)
    (frozen : MappedFreezeResult) (w : Writes) : Writes :=
  let w := if active.isSome ∧ activeAborted = false then
    { w with mappedRunWrites := w.mappedRunWrites ++ [.abortActive] } else w
  let run : MappedRun :=
    { turnId, status := if frozen.items.isEmpty then .completed else .active, nextIndex := 0, items := frozen.items }
  let w := { w with mappedRunWrites := w.mappedRunWrites ++ [.create runId run] }
  match frozen.state with
  | some state => applyProcessPatchField w candidate .stateJson (some state)
  | none => w

/-- The loop of `planMappedTurnEntries`, with the entries still allowed. -/
def planMappedEntries (ctx : Context) (p : Process) (active : Option MappedRun) :
    Nat → Bool → Writes → Except Rejection Writes
  | left, activeAborted, w =>
    let w := deferTurnWaitStarts d p none ctx.waitId w
    let candidate := w.candidate p
    match mappedEntry d candidate w, left with
    | none, _ => .ok (leaveActiveRun candidate active activeAborted w)
    | some _, 0 => reject "mapped_turn_loop" "Too many consecutive empty mapped turns"
    | some (start, spec), left + 1 => do
      let frozen ← spec.freezeItems candidate
      let entry := maxEmptyMappedEntries - (left + 1)
      let w := freezeRun active activeAborted candidate start.turnId (ctx.runId entry) frozen w
      match frozen.items with
      | first :: _ =>
        return w.setIteration candidate.selectedTurnId
          { runId := ctx.runId entry, itemKey := first.itemKey, itemIndex := 0 }
      | [] =>
        let w := w.removeCreate (entersTurn candidate.selectedTurnId)
        let routed ← collectAndRoute d (w.candidate p) spec [] (ctx.fresh (2 + entry))
        planMappedEntries ctx p active left true (mergeWrites w routed)

/-- `planMappedTurnEntries`. -/
def planMappedTurnEntries (ctx : Context) (st : Store) (w : Writes) : Except Rejection Writes :=
  planMappedEntries d ctx st.process st.activeMappedRun maxEmptyMappedEntries false w

/-- The item of `buildMappedItemOutcomeWrites`, when it is the run's current one. -/
def currentMappedItem (st : Store) (turnId : TurnId) (iteration : MappedTurnItemRef) :
    Option (MappedRun × MappedItem) := do
  let run ← st.mappedRuns.get? iteration.runId
  let item ← run.items[iteration.itemIndex]?
  if run.status = .active ∧ run.turnId = turnId ∧ run.nextIndex = iteration.itemIndex ∧
      item.itemKey = iteration.itemKey ∧ item.resultJson = none then
    some (run, item)
  else none

/-- `buildMappedItemOutcomeWrites`. -/
def buildMappedItemOutcomeWrites (ctx : Context) (st : Store) (p : Process) (payload : TurnOutcomePayload)
    (spec : MappedLlmTurnSpec) (iteration : Option MappedTurnItemRef) : Except Rejection Writes :=
  match iteration with
  | none => reject "mapped_item_missing" s!"Turn '{payload.turnId}' has no active mapped item"
  | some iteration =>
    match currentMappedItem st payload.turnId iteration with
    | none => reject "stale_mapped_item" s!"Mapped item '{iteration.itemKey}' is no longer the current item"
    | some (run, item) => do
      let resultJson ← spec.yieldResult p item payload
      let w : Writes :=
        { mappedRunWrites :=
            [.completeItem iteration.runId iteration.itemIndex payload.outcome resultJson payload.turnRecordId] }
      let nextIndex := iteration.itemIndex + 1
      match run.items[nextIndex]? with
      | some next =>
        return { reserveSelectedTurnStart p w payload.turnId .llm (ctx.fresh 0)
          (some { runId := iteration.runId, itemKey := next.itemKey, itemIndex := nextIndex }) with
          workerIntent := some .reconcile }
      | none =>
        let resultJsons := (run.items.modify iteration.itemIndex fun item =>
          { item with resultJson := some resultJson }).map (·.resultJson)
        if resultJsons.any (·.isNone) then
          reject "stale_mapped_item" s!"Mapped run '{iteration.runId}' is missing item results"
        else
          let routed ← collectAndRoute d p spec (resultJsons.filterMap id) (ctx.fresh 0)
          return mergeWrites w routed

end Leitwerk.Engine
