import Leitwerk.Engine.Writes
/-!
# A process definition and what an operation is given

The graph of one process (`process-graph.ts`, `process-state-machine.ts`), the
code its definition brings (outcome handlers, actions, mapped turns) as the
plans that code returned, and the values an operation reads from outside the
store: the clock, fresh ids and the verdicts of model selection and preflight.
-/

namespace Leitwerk.Engine

/-! ## The graph -/

/-- `ProcessTurnTerminalLifecycleStatus`. -/
inductive TerminalStatus where
  | completed | aborted
  deriving DecidableEq

def TerminalStatus.toLifecycle : TerminalStatus → LifecycleStatus
  | .completed => .completed
  | .aborted => .aborted

/-- `ProcessTurnTransition`. -/
structure TurnTransition where
  nextTurnId : Option TurnId := none
  lifecycleStatus : Option TerminalStatus := none
  outcome : Option String := none
  trigger : Option String := none
  deriving DecidableEq

/-- `TurnOutcomePayload` of the domain package. -/
structure TurnOutcomePayload where
  turnRecordId : String
  turnId : TurnId
  turnType : TurnType
  outcome : String
  params : Json := "{}"
  pathType : PathType := .primary
  forkPiEntryId : Option String := none
  resultPiEntryId : Option String := none
  turnResultMarkdown : Option String := none
  state : Option Json := none
  deriving DecidableEq

/-- `TurnFailedPayload` of the domain package. -/
structure TurnFailedPayload where
  turnRecordId : String
  turnId : TurnId
  turnType : TurnType
  pathType : PathType := .primary
  forkPiEntryId : Option String := none
  resultPiEntryId : Option String := none
  errorSummary : String
  errorClass : Option ErrorClass := none
  failureCode : Option TurnFailureCode := none
  recoveryContext : Option FailedTurnRecoveryContext := none
  deriving DecidableEq

/-- `MappedFreezeResult`. -/
structure MappedFreezeResult where
  items : List MappedItem
  state : Option Json := none

/-- `MappedCollectResult`. -/
structure MappedCollectResult where
  trigger : String
  nextTurnId : Option TurnId := none
  lifecycleStatus : Option TerminalStatus := none
  state : Json

/-- `MappedLlmTurnSpec`: the definition's code for freezing, yielding and collecting items. -/
structure MappedLlmTurnSpec where
  freezeItems : Process → Except Rejection MappedFreezeResult
  yieldResult : Process → MappedItem → TurnOutcomePayload → Except Rejection Json
  collectResults : Process → List Json → Except Rejection MappedCollectResult

/-- A turn of the definition. `branchType` and `context` are those of an LLM turn. -/
structure TurnDefinition where
  turnType : TurnType
  waitFor : Bool := false
  branchType : PathType := .primary
  context : String := "inherit"
  forEach : Option MappedLlmTurnSpec := none

/-- One process of the graph registry. -/
structure ProcessDefinition where
  id : String
  turns : TurnId → Option TurnDefinition
  entryTurnIds : List TurnId
  transitions : TurnId → List TurnTransition

/-- `lifecycleStatusForSelectedTurnType`. -/
def lifecycleStatusForSelectedTurnType : TurnType → LifecycleStatus
  | .human | .external => .waiting
  | .llm | .automatic => .active

/-- `deriveLifecycleStatusForSelectedTurn`. -/
def deriveLifecycleStatusForSelectedTurn (d : ProcessDefinition) (turnId : TurnId) : LifecycleStatus :=
  match d.turns turnId with
  | some turn => lifecycleStatusForSelectedTurnType turn.turnType
  | none => .active

/-- The worker-owned type of a declared turn. -/
def ProcessDefinition.workerTurnType (d : ProcessDefinition) (turnId : TurnId) : Option WorkerTurnType :=
  (d.turns turnId).bind fun turn => workerTurnType? turn.turnType

/-- `matchesTrigger`. -/
def matchesTrigger (transitionTrigger requestedTrigger : Option String) : Bool :=
  requestedTrigger.isNone || transitionTrigger == requestedTrigger ||
    (requestedTrigger == some "advance" && transitionTrigger.isNone)

/-- The transitions `tryTransition` picks from. -/
def transitionCandidates (d : ProcessDefinition) (current : TurnId) (trigger : Option String) (target : TurnId) :
    List TurnTransition :=
  (d.transitions current).filter fun t =>
    t.lifecycleStatus.isNone && t.nextTurnId == some target && matchesTrigger t.trigger trigger

/-- `tryTransition` to a given turn. -/
def tryTransition (d : ProcessDefinition) (current : Option TurnId) (trigger : Option String) (target : TurnId)
    (lifecycleStatus : LifecycleStatus) : Except Rejection Unit :=
  match current with
  | none =>
    if lifecycleStatus ≠ .discovered then
      reject "invalid_transition" ("Process '" ++ d.id ++ "' has no selected turn")
    else if target ∉ d.entryTurnIds then
      reject "invalid_transition" ("Turn '" ++ target ++ "' is not a declared entry turn for process '" ++ d.id ++ "'")
    else .ok ()
  | some current =>
    if (d.turns current).isNone then
      reject "turn_unreachable" ("Current turn '" ++ current ++ "' is not declared for process '" ++ d.id ++ "'")
    else if (d.turns target).isNone then
      reject "turn_unreachable" ("Target turn '" ++ target ++ "' is not declared for process '" ++ d.id ++ "'")
    else if (transitionCandidates d current trigger target).isEmpty then
      reject "invalid_transition" ("No turn transition from '" ++ current ++ "' to '" ++ target ++ "'")
    else .ok ()

/-- `findOutcomeTransition`; two matches throw. -/
def findOutcomeTransition (d : ProcessDefinition) (current : TurnId) (outcome : String) :
    Except Rejection (Option TurnTransition) :=
  match (d.transitions current).filter fun t =>
      t.trigger.isNone && (t.outcome.isNone || t.outcome == some outcome) with
  | [] => .ok none
  | [t] => .ok (some t)
  | _ => reject "operation_failed" "Process operation failed unexpectedly"

/-- `canAbort`. -/
def canAbort : LifecycleStatus → Bool
  | .completed | .aborted => false
  | _ => true

/-- `selectedTurnRequiresWorker`; a `turnWait` is that of the metadata it is given. -/
def selectedTurnRequiresWorker (d : ProcessDefinition) (selectedTurnId : Option TurnId)
    (lifecycleStatus : LifecycleStatus) (turnWait : Option PendingTurnWait) : Bool :=
  match selectedTurnId with
  | none => false
  | some turnId =>
    if lifecycleStatus ≠ .active ∨ turnWait.isSome then false
    else match d.turns turnId with
      | some turn => (workerTurnType? turn.turnType).isSome
      | none => true

/-! ## What the definition's code returns -/

/-- The `metadata` of a `ProcessPatchEffect`: any metadata of the extension's own.
It may drop the scheduling state the engine keeps there, never make one up. -/
structure MetadataEffect where
  rewrite : Metadata → Metadata
  scheduling : ∀ m, (rewrite m).turnWait = m.turnWait ∨ (rewrite m).turnWait = none

/-- `ProcessPatchEffect`. -/
structure ProcessPatchEffect where
  lifecycleStatus : Option LifecycleStatus := none
  planRevision : Option Nat := none
  externalId : Option (Option String) := none
  externalUrl : Option (Option String) := none
  metadata : Option MetadataEffect := none

/-- `ServerTransitionRequest["effect"]["runtime"]`. -/
inductive RuntimeEffect where
  | none | reconcile | restartWorker
  deriving DecidableEq

/-- `ServerTransitionRequest`. An absent `turnId` is `none`, a null one `some none`. -/
structure ServerTransitionRequest where
  lifecycleStatus : Option LifecycleStatus := none
  turnId : Option (Option TurnId) := none
  state : Option Json := none
  trigger : Option String := none
  runtime : RuntimeEffect := .none
  deriving DecidableEq

/-- What `createProcessPlanCollector` collected from a handler or an action. -/
structure ProcessPlan where
  transitionRequest : Option ServerTransitionRequest := none
  lifecycleEffects : List ProcessPatchEffect := []

/-- A cleanup handler's result. -/
structure CleanupResult where
  effects : ProcessPatchEffect := {}
  state : Option Json := none

/-- What `planProcessAction` and the checks around it settle about an action: its plan, the
human or external turn it acts for and the markdown a form field published. -/
structure PlannedAction where
  plan : ProcessPlan := {}
  resolvedTurnAction : Option (TurnId × TurnType) := none
  publishedMarkdown : Option String := none
  nextTurnModelProfileId : Option (Option String) := none

/-- `resolveOutcomePublication`, with the markdown the named parameter carries. -/
structure OutcomePublication where
  productName : Option String := none
  markdownRequired : Bool := false
  markdownParameter : Option String := none

/-! ## What an operation is given -/

/-- The ids `generateId` returns for one start and the record it proposes. -/
structure FreshIds where
  startId : String
  turnRecordId : String

/-- What model preflight makes of a created LLM start, with the model selection it evaluated. -/
inductive PreflightVerdict where
  | parkFailure (failure : PreparationFailure) (selection : Option ModelSelection)
  | prepared (start : ResolvedLlmStart) (selection : Option ModelSelection)
  | reject (why : Rejection)

/-- What model selection makes of the selected turn. -/
inductive SelectionVerdict where
  | selected (modelProfileId : Option String) (provenance : Option ModelSelectionProvenance)
  | invalid (why : Rejection)

/-- What `automaticStartupRecovery` says of a failed start: due now, or due or settled later. -/
inductive StartupRecovery where
  | ready
  | later (nextRetryAt : Option String)

/-- The values an operation reads from outside the store. -/
structure Context where
  now : String := ""
  fresh : Nat → FreshIds
  waitId : String := ""
  runId : Nat → String := fun _ => ""
  newTurnBlocked : Bool := false
  outcomePublication : TurnOutcomePayload → OutcomePublication := fun _ => {}
  /-- The checks of the outcome contract: its declarations and the outcome's parameters. -/
  outcomeContract : Process → TurnOutcomePayload → Option Rejection := fun _ _ => none
  outcomeHandlers : Process → TurnOutcomePayload → Except Rejection ProcessPlan := fun _ _ => .ok {}
  /-- The state with the entry and product references of an outcome merged in. -/
  entryRefState : Option Json → TurnOutcomePayload → Option Json := fun _ _ => none
  planProcessAction : Process → Except Rejection PlannedAction := fun _ => .ok {}
  cleanupHandlers : List (Process → Except String (Option CleanupResult)) := []
  /-- The saved progress a continuation resumes from: its entry and the prompt found there. -/
  continuation : Except String (String × Option String × Option String) := .error "Saved progress is unavailable"
  startupRetryState : StartupRetryState := ⟨"", 1, none⟩
  automaticStartupRecovery : TurnStartRecord → StartupRetryState → StartupRecovery := fun _ _ => .ready
  selectModel : Process → Option TurnStartInput → SelectionVerdict := fun _ _ => .selected none none
  /-- `deps.prepareTurnStarts`, absent where the engine is built without it. -/
  preflight : Option (Process → TurnStartInput → PreflightVerdict) := none
  /-- Whether dispatching the reactions of a commit fails. -/
  reactionsFail : Bool := false

end Leitwerk.Engine
