import Leitwerk.Engine.Record
/-!
# Fires of external sources

The armings of a waiting process (`listArmingsForProcess`) and the operations
`FireExternalSource` and `ObserveExternalSource` of `external-source-service.ts`.
An armed transition brings its code: what it resolves to, when it is offered, its
effect and the product it publishes. A fire carries an input and an event of the
provider, which are `Payload`s here.
-/

namespace Leitwerk.External

open Engine

/-! ## What a definition declares -/

/-- The `to`, `complete` and `lifecycleStatus` of an `ExternalTransitionRuntime`. -/
structure ExternalRoute where
  toTurnId : Option TurnId := none
  complete : Bool := false
  lifecycleStatus : Option TerminalStatus := none

/-- `transitionTarget`. -/
def transitionTarget (route : ExternalRoute) (trigger : String) : ServerTransitionRequest :=
  match route.toTurnId with
  | some turnId => { turnId := some (some turnId), trigger := some trigger }
  | none =>
    { turnId := some none
      lifecycleStatus :=
        if route.complete then some .completed else route.lifecycleStatus.map TerminalStatus.toLifecycle
      trigger := some trigger }

/-- The `ProcessEffectPlan` of an effect; `queueInputError` is what the check of the inputs it queues says. -/
structure ExternalEffectPlan where
  state : Option Json := none
  effects : ProcessPatchEffect := {}
  queueInputError : Option String := none

/-- The code and the message a fire fails with. -/
structure FireFailure where
  code : String
  message : String
  deriving DecidableEq

structure PublishedInput where
  productName : String
  markdown : String

/-- The `publishInput` of an external action; `text` reads the string in its input field, or "". -/
structure PublishInputSpec (Payload : Type) where
  productName : String
  inputField : String
  text : Payload → String

/-- An external transition of an external turn or an external action of another one. -/
structure ExternalSpec (Payload : Type) where
  actionId : String
  sourceKind : String
  config : Json
  offered : Process → Json → Bool := fun _ _ => true
  resolve : Process → Json → Option Json := fun _ _ => none
  route : ExternalRoute
  effect : Option (Process → Json → Payload → Payload → Except String ExternalEffectPlan) := none
  publishInput : Option (PublishInputSpec Payload) := none

/-- `ResolvedExternalSourceArming`. -/
structure ExternalArming (Payload : Type) where
  id : String
  turnId : TurnId
  transitionTrigger : String
  spec : ExternalSpec Payload
  resolved : Option Json

variable {Payload : Type}

/-- The external transitions of an external turn, and the external actions of any other. -/
structure ExternalTurns (Payload : Type) where
  transitions : TurnId → List (ExternalSpec Payload) := fun _ => []
  externalActions : TurnId → List (ExternalSpec Payload) := fun _ => []

/-- `isSelectedWaitingTurn`, with the turn. -/
def selectedWaitingTurn (p : Process) : Option TurnId := if p.lifecycleStatus = .waiting then p.selectedTurnId else none

/-- `listArmingsForProcess`. -/
def listArmingsForProcess (d : ProcessDefinition) (x : ExternalTurns Payload) (p : Process) (projects : Json) :
    List (ExternalArming Payload) :=
  match selectedWaitingTurn p with
  | none => []
  | some turnId =>
    match d.turns turnId with
    | none => []
    | some turn =>
      if turn.turnType = .external then
        (x.transitions turnId).mapIdx fun index spec =>
          let id := turnId ++ ":" ++ spec.sourceKind ++ ":" ++ toString index
          { id, turnId, transitionTrigger := id, spec, resolved := spec.resolve p projects }
      else
        ((x.externalActions turnId).filter fun spec => spec.offered p projects).map fun spec =>
          { id := turnId ++ ":" ++ spec.actionId, turnId, transitionTrigger := "external:" ++ spec.actionId, spec
            resolved := spec.resolve p projects }

/-- `resolveArming`. -/
def resolveArming (d : ProcessDefinition) (x : ExternalTurns Payload) (st : Store) (armingId : String) :
    Option (ExternalArming Payload) :=
  (listArmingsForProcess d x st.process st.projects).find? (·.id == armingId)

/-! ## Firing -/

/-- The input of `FireExternalSource`. -/
structure FireInput (Payload : Type) where
  armingId : String
  generation : Option String := none
  input : Payload
  event : Payload
  queuedCount : Option Nat := none
  pendingFireIds : List String := []

/-- What consuming a fire decides: the writes of a consumed one, or the failure it records. -/
inductive FireDecision where
  | failed (why : FireFailure)
  | consumed (writes : Writes) (publishedProduct : Option String)

/-- `buildExternalSourceEffectWrites`. -/
def buildExternalSourceEffectWrites (p : Process) (projects : Json) (arming : ExternalArming Payload) (input event : Payload) :
    Except FireFailure Writes :=
  match arming.spec.effect with
  | none => .ok {}
  | some effect =>
    match effect p projects input event with
    | .error message => .error ⟨"external_source_effect_failed", message⟩
    | .ok plan =>
      match plan.queueInputError with
      | some message => .error ⟨"invalid_process_state", message⟩
      | none => .ok (appendProcessEffects p p.metadata (stateWrites p plan.state) plan.effects)

/-- `readPublishedInput`. -/
def readPublishedInput (arming : ExternalArming Payload) (input : Payload) : Except FireFailure (Option PublishedInput) :=
  match arming.spec.publishInput with
  | none => .ok none
  | some publication =>
    if nonBlank (publication.text input) then .ok (some ⟨publication.productName, trim (publication.text input)⟩)
    else .error ⟨"external_source_input_missing",
      s!"External action '{arming.spec.actionId}' fired without non-empty '{publication.inputField}' input"⟩

/-- Whether the arming leads to a turn a worker runs. -/
def wakesWorker (d : ProcessDefinition) (arming : ExternalArming Payload) : Bool :=
  (arming.spec.route.toTurnId.bind d.workerTurnType).isSome

/-- Whether the turn the arming leads to waits for a condition first. -/
def targetWaits (d : ProcessDefinition) (arming : ExternalArming Payload) : Bool :=
  (arming.spec.route.toTurnId.bind d.turns).any (·.waitFor)

/-- The record of the external turn. An edge that wakes a worker and publishes nothing has none. -/
def fireRecordWrites (d : ProcessDefinition) (ctx : Context) (arming : ExternalArming Payload)
    (published : Option PublishedInput) : List TurnRecordWrite :=
  if wakesWorker d arming ∧ published.isNone then []
  else
    let id := (ctx.fresh 1).turnRecordId
    [.create { id, turnId := arming.turnId, turnType := .external, status := .succeeded
               resultPiEntryId := published.map fun x => s!"external:{id}:{x.productName}"
               turnResultMarkdown := published.map (·.markdown)
               startedAt := ctx.now, endedAt := some ctx.now }]

/-- The state with the reference to the published product merged in; `productRefState` is that merge. -/
def publishWrites (productRefState : Option Json → String → Option Json) (p : Process) (w : Writes)
    (published : Option PublishedInput) : Writes :=
  match published with
  | none => {}
  | some x =>
    let base := w.processPatch.stateJson.getD p.stateJson
    match productRefState base x.productName with
    | some state => applyProcessPatchField {} { p with stateJson := base } .stateJson (some state)
    | none => {}

/-- The writes of `FireExternalSource` once its arming is resolved. -/
def decideFire (d : ProcessDefinition) (ctx : Context) (productRefState : Option Json → String → Option Json) (st : Store)
    (arming : ExternalArming Payload) (fire : FireInput Payload) : Except Rejection FireDecision :=
  let p := st.process
  if p.selectedTurnId ≠ some arming.turnId ∨ p.lifecycleStatus ≠ .waiting then
    reject "external_source_stale"
      ("External source '" ++ fire.armingId ++ "' is stale for selected turn '" ++ p.selectedTurnId.getD "null" ++ "'")
  else if wakesWorker d arming ∧ targetWaits d arming = false then
    reject "external_readiness_required" "External worker targets must declare waitFor"
  else match buildExternalSourceEffectWrites p st.projects arming fire.input fire.event with
    | .error why => .ok (.failed why)
    | .ok effectWrites =>
      match readPublishedInput arming fire.input with
      | .error why => .ok (.failed why)
      | .ok published => do
        let externalWrites : Writes :=
          { publishWrites productRefState p effectWrites published with
            turnRecordWrites := fireRecordWrites d ctx arming published }
        let w := mergeWrites effectWrites externalWrites
        let transitionWrites ← buildServerTransitionWrites d (w.candidate p)
          (transitionTarget arming.spec.route arming.transitionTrigger) (ctx.fresh 0)
        return .consumed (mergeWrites w transitionWrites) (published.map (·.productName))

/-! ## Observing -/

/-- The input of `ObserveExternalSource`; `observation` is the report as normalized, null where
that fails, and `state` what the codec makes of the state it reports. -/
structure ExternalObservationInput where
  armingId : String
  generation : String
  observation : Option (Option Json) := none
  refreshError : Option Json := none
  state : Option (Except Unit Json) := none

/-- The writes of `ObserveExternalSource` once its generation is found current. -/
def decideObservation (p : Process) (input : ExternalObservationInput) : Except Rejection Writes :=
  if input.observation.isNone ∧ input.refreshError.isNone then
    reject "external_observation_invalid" "An observation or refresh error is required"
  else if input.observation = some none then reject "external_observation_invalid" "Invalid observation report"
  else match input.state with
    | none => .ok {}
    | some (.ok state) => .ok (stateWrites p (some state))
    | some (.error _) => reject "invalid_process_state" "Invalid observation state"

/-! ## The operations -/

section
variable (d : ProcessDefinition) (x : ExternalTurns Payload) (generationFor : ExternalArming Payload → String) (st : Store)

/-- The arming a fire is for. A generation that is given must be the arming's. -/
def fireArming (fire : FireInput Payload) : Except Rejection (ExternalArming Payload) :=
  match resolveArming d x st fire.armingId, fire.generation.filter (· ≠ "") with
  | none, some _ => reject "external_source_superseded" "External source subscription was superseded"
  | none, none =>
    reject "external_source_not_armed" s!"External source '{fire.armingId}' is not armed for this process"
  | some arming, some generation =>
    if generationFor arming = generation then .ok arming
    else reject "external_source_superseded" "External source subscription was superseded"
  | some arming, none => .ok arming

/-- `FireExternalSource`. -/
def decideFireExternalSource (ctx : Context) (productRefState : Option Json → String → Option Json)
    (fire : FireInput Payload) : Except Rejection (ExternalArming Payload × FireDecision) := do
  let arming ← fireArming d x generationFor st fire
  let decision ← decideFire d ctx productRefState st arming fire
  return (arming, decision)

/-- `ObserveExternalSource`. -/
def decideObserveExternalSource (input : ExternalObservationInput) : Except Rejection Writes :=
  match resolveArming d x st input.armingId with
  | none => reject "external_observation_stale" "Subscription generation is no longer current"
  | some arming =>
    if generationFor arming = input.generation then decideObservation st.process input
    else reject "external_observation_stale" "Subscription generation is no longer current"

/-- The committed store of a fire; a failed one only records an event. -/
def runFire (ctx : Context) (productRefState : Option Json → String → Option Json) (fire : FireInput Payload) :
    Except Rejection Store := do
  let decision ← decideFireExternalSource d x generationFor st ctx productRefState fire
  match decision.2 with
  | .failed _ => return st
  | .consumed writes _ => record d ctx st { writes }

/-- The committed store of an observation. -/
def runObservation (ctx : Context) (input : ExternalObservationInput) : Except Rejection Store := do
  let writes ← decideObserveExternalSource d x generationFor st input
  record d ctx st { writes }
end

end Leitwerk.External
