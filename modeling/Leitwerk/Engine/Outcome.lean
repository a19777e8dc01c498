import Leitwerk.Engine.Operations
/-!
# Turn outcomes

`ops/turn-outcome.ts` and `writes/build-turn-outcome-writes.ts`: a worker's
outcome settles its turn record, clears the execution and moves the process on,
by what the definition's handlers ask for or else by the transition declared for
the outcome.
-/

namespace Leitwerk.Engine

variable (d : ProcessDefinition) (ctx : Context) (st : Store)

/-! ## Checks -/

/-- `validateTurnOutcomeCorrelation`. -/
def validateTurnOutcomeCorrelation (payload : TurnOutcomePayload) (expected : Option String) : Except Rejection Unit :=
  if nonBlank payload.turnRecordId = false then
    reject "missing_turn_record_id" "turnRecordId is required for turn outcomes"
  else if expected ≠ some payload.turnRecordId then
    reject "stale_turn_record" s!"Ignoring turn outcome for stale turnRecordId '{payload.turnRecordId}'"
  else .ok ()

/-- Whether the text is there and not blank. -/
def present (text : Option String) : Bool := text.any nonBlank

/-- `resolveEffectiveOutcomePayload`. -/
def resolveEffectiveOutcomePayload (payload : TurnOutcomePayload) (publication : OutcomePublication) :
    TurnOutcomePayload :=
  let turnResultMarkdown :=
    if present payload.turnResultMarkdown = false ∧ present publication.markdownParameter = true then
      publication.markdownParameter
    else payload.turnResultMarkdown
  let resultPiEntryId := match publication.productName with
    | some productName =>
      if present payload.resultPiEntryId = false ∧ payload.turnType = .automatic then
        some s!"automatic:{payload.turnRecordId}:{productName}"
      else payload.resultPiEntryId
    | none => payload.resultPiEntryId
  { payload with turnResultMarkdown, resultPiEntryId }

/-- The receipt, markdown and product checks of an outcome. -/
def checkOutcomePublication (p : Process) (payload : TurnOutcomePayload) (publication : OutcomePublication) :
    Except Rejection Unit :=
  if p.metadata.requiresExternalReceipt = true ∧ (p.externalId.isNone ∨ p.externalUrl.isNone) then
    reject "ticket_receipt_missing"
      "Ticket creation cannot complete until a valid ticket receipt has been recorded"
  else if publication.markdownRequired = true ∧ present payload.turnResultMarkdown = false then
    reject "turn_result_markdown_missing" s!"Turn '{payload.turnId}' requires non-empty turn-result markdown"
  else match publication.productName with
    | some productName =>
      if present payload.resultPiEntryId = false then
        reject "published_product_result_entry_missing"
          s!"Turn '{payload.turnId}' publishes product '{productName}' but did not report a result entry"
      else if present payload.turnResultMarkdown = false then
        reject "published_product_markdown_missing"
          s!"Turn '{payload.turnId}' publishes product '{productName}' without non-empty turn-result markdown"
      else .ok ()
    | none => .ok ()

/-- `checkTurnOutcomeAvailability` and `validateTurnOutcome`. -/
def checkOutcome (p : Process) (payload : TurnOutcomePayload) : Except Rejection Unit :=
  if (d.turns payload.turnId).isNone then
    reject "turn_not_in_definition" s!"'{payload.turnId}' is not available for process '{d.id}'"
  else if p.selectedTurnId ≠ some payload.turnId then
    reject "turn_unavailable_for_selected_turn" s!"'{payload.turnId}' is not the currently selected turn"
  else match ctx.outcomeContract p payload with
    | some why => .error why
    | none => .ok ()

/-! ## Where the outcome leads -/

/-- The route of an outcome no handler routed: the transition declared for it, while its turn
is still selected and the process active. -/
def declaredTransition (p : Process) (payload : TurnOutcomePayload) (ids : FreshIds) : Except Rejection Writes := do
  if p.selectedTurnId = some payload.turnId ∧ p.lifecycleStatus = .active then
    match ← findOutcomeTransition d payload.turnId payload.outcome with
    | some transition =>
      buildTurnSelectionWrites d p
        { fromTurnId := some p.selectedTurnId, toTurnId := transition.nextTurnId
          lifecycleStatus := transition.lifecycleStatus.map TerminalStatus.toLifecycle } ids
    | none => return {}
  else return {}

/-- `hasExplicitTurnSelectionChange`. -/
def hasExplicitTurnSelectionChange (p : Process) (w : Writes) : Bool :=
  w.processPatch.selectedTurnId.any (· != p.selectedTurnId)

/-- The outcome of a turn that is not mapped: its handlers, then the declared transition. -/
def buildUnmappedOutcomeWrites (p : Process) (payload : TurnOutcomePayload) (stateWrites : Writes) :
    Except Rejection Writes := do
  let plan ← ctx.outcomeHandlers (stateWrites.candidate p) payload
  let effectWrites ← planWrites d (stateWrites.candidate p) plan (ctx.fresh 0)
  let writes := mergeWrites stateWrites effectWrites
  if hasExplicitTurnSelectionChange p effectWrites then return writes
  else
    let transitionWrites ← declaredTransition d (writes.candidate p) payload (ctx.fresh 1)
    return mergeWrites writes transitionWrites

/-- `buildTurnOutcomeWrites`. -/
def buildTurnOutcomeWrites (p : Process) (payload : TurnOutcomePayload) (iteration : Option MappedTurnItemRef) :
    Except Rejection Writes := do
  checkOutcome d ctx p payload
  let stateWrites := stateWrites p payload.state
  match getMappedTurnSpec d payload.turnId with
  | some spec =>
    let mappedWrites ← buildMappedItemOutcomeWrites d ctx st (stateWrites.candidate p) payload spec iteration
    return mergeWrites stateWrites mappedWrites
  | none => buildUnmappedOutcomeWrites d ctx p payload stateWrites

/-! ## The operation -/

/-- The completion of the turn record: created when the store lost it, else updated. Columns
the completion does not name keep their values. -/
def completionWrite (payload : TurnOutcomePayload) : TurnRecordWrite :=
  match st.turnRecords.get? payload.turnRecordId with
  | some _ => .update payload.turnRecordId
      { turnType := some payload.turnType
        status := some .succeeded
        resultPiEntryId := some payload.resultPiEntryId
        turnResultMarkdown := some payload.turnResultMarkdown
        endedAt := some (some ctx.now) }
  | none => .create
      { id := payload.turnRecordId, turnId := payload.turnId, turnType := payload.turnType, status := .succeeded
        pathType := payload.pathType, forkPiEntryId := payload.forkPiEntryId
        resultPiEntryId := payload.resultPiEntryId, turnResultMarkdown := payload.turnResultMarkdown
        startedAt := ctx.now, endedAt := some ctx.now }

/-- The writes every outcome makes before it is routed. -/
def outcomeBaseWrites (payload : TurnOutcomePayload) : Writes :=
  let w : Writes := { turnRecordWrites := [completionWrite ctx st payload] }
  let w := applyProcessPatchField w st.process .currentExecution none
  if st.process.lifecycleStatus = .error then applyProcessPatchField w st.process .lifecycleStatus .active else w

/-- The state with the references the outcome adds. -/
def withEntryRefs (payload : TurnOutcomePayload) (w : Writes) : Writes :=
  let p := { st.process with stateJson := w.processPatch.stateJson.getD st.process.stateJson }
  match ctx.entryRefState p.stateJson payload with
  | some state => applyProcessPatchField w p .stateJson (some state)
  | none => w

/-- `TurnOutcome`. -/
def decideTurnOutcome (reported : TurnOutcomePayload) : Except Rejection Decision := do
  let publication := ctx.outcomePublication reported
  let payload := resolveEffectiveOutcomePayload reported publication
  validateTurnOutcomeCorrelation payload st.currentTurnRecordId
  checkOutcomePublication st.process payload publication
  let base := outcomeBaseWrites ctx st payload
  let outcomeWrites ← buildTurnOutcomeWrites d ctx st (base.candidate st.process) payload
    (st.currentStart.bind (·.iteration))
  return { writes := withEntryRefs ctx st payload (mergeWrites base outcomeWrites) }

end Leitwerk.Engine
