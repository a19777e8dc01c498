import Leitwerk.ProcessSdk.Compile
/-!
# What a defined process requests at run time

The transitions that the handlers of a defined process ask for: the branch that
a chooser names is looked up in the routes compiled for it. `Requested` lists
the seven kinds of route.
-/

namespace Leitwerk.ProcessSdk

open Engine (TurnId TerminalStatus TurnTransition)

/-- `ServerTransitionRequest` without its state; no turn is the null turn. -/
structure TransitionRequest where
  turnId : Option TurnId
  lifecycleStatus : Option TerminalStatus := none
  trigger : Option String
  deriving DecidableEq

def buildActionTransitionRequest (route : TurnTransition) : TransitionRequest :=
  match route.nextTurnId with
  | some turnId => { turnId := some turnId, trigger := route.trigger }
  | none => { turnId := none, lifecycleStatus := route.lifecycleStatus, trigger := route.trigger }

/-- The own property of an object. -/
def ownRoute (routes : Routes) (branchId : String) : Option TurnTransition := routes.lookup branchId

/-- The names that every object inherits from `Object.prototype`. -/
def objectPrototypeKeys : List String :=
  ["constructor", "__defineGetter__", "__defineSetter__", "hasOwnProperty", "__lookupGetter__", "__lookupSetter__",
    "isPrototypeOf", "propertyIsEnumerable", "toString", "valueOf", "__proto__", "toLocaleString"]

/-- `routes[branchId]`: what is inherited has no fields of a route. -/
def propertyRoute (routes : Routes) (branchId : String) : Option TurnTransition :=
  (ownRoute routes branchId).or (if branchId ∈ objectPrototypeKeys then some {} else none)

/-- The transition of a turn's outcome whose chooser returned `branchId`. -/
def outcomeRequest (turnId : TurnId) (outcome : String) (routes : Routes) (branchId : String) : Except String TransitionRequest :=
  match propertyRoute routes branchId with
  | some route => .ok (buildActionTransitionRequest route)
  | none => .error ("Turn '" ++ turnId ++ "' outcome '" ++ outcome ++ "' selected unknown branch '" ++ branchId ++ "'")

/-- `resolveActionRouteForExecution`; the chooser of a static action is not asked. -/
def actionRequest (turnId : TurnId) (actionId : String) (routing : CompiledActionRouting) (branchId : String) :
    Except String TransitionRequest :=
  match routing with
  | .static route => .ok (buildActionTransitionRequest route)
  | .branches routes =>
    match ownRoute routes branchId with
    | some route => .ok (buildActionTransitionRequest route)
    | none => .error ("Action '" ++ actionId ++ "' on turn '" ++ turnId ++ "' selected unknown branch '" ++ branchId ++ "'")

/-- The route that `collectMappedResults` resolves, as the request made from it. -/
def mappedRequest (turnId : TurnId) (routing : MappedCollectRouting) (branchId : String) : Except String TransitionRequest :=
  match routing with
  | .static toTurn lifecycleStatus =>
    .ok { turnId := toTurn, lifecycleStatus, trigger := some (mappedCollectTrigger none) }
  | .branches branches =>
    match branches.get? branchId with
    | some toTurn => .ok { turnId := some toTurn, trigger := some (mappedCollectTrigger (some branchId)) }
    | none => .error ("Mapped turn '" ++ turnId ++ "' collection selected unknown branch '" ++ branchId ++ "'")

/-- `transitionTarget` of the external source service. -/
def transitionTarget (target : RouteTarget) (trigger : String) : TransitionRequest :=
  match target.toTurn with
  | some turnId => { turnId := some turnId, trigger := some trigger }
  | none =>
    if target.complete then { turnId := none, lifecycleStatus := some .completed, trigger := some trigger }
    else { turnId := none, lifecycleStatus := target.lifecycleStatus, trigger := some trigger }

def TurnDefinition.externalActions : TurnDefinition → List (String × RouteTarget)
  | .llm _ _ _ externalActions _ | .automatic _ _ externalActions _ | .human _ externalActions => externalActions.rows
  | .external _ => []

/-- The requests that the compiled handlers of a turn can make, each with its own route. -/
inductive Requested (turnId : TurnId) (turn : CompiledTurn) : TransitionRequest → Prop
  | action {actionId : String} {route : TurnTransition} :
      (actionId, .static route) ∈ turn.actions → Requested turnId turn (buildActionTransitionRequest route)
  | actionBranch {actionId branchId : String} {routes : Routes} {route : TurnTransition} :
      (actionId, .branches routes) ∈ turn.actions → ownRoute routes branchId = some route →
      Requested turnId turn (buildActionTransitionRequest route)
  | outcomeBranch {outcome branchId : String} {routes : Routes} {route : TurnTransition} :
      (outcome, routes) ∈ turn.routings → ownRoute routes branchId = some route →
      Requested turnId turn (buildActionTransitionRequest route)
  | externalAction {externalActionId : String} {target : RouteTarget} :
      (externalActionId, target) ∈ turn.definition.externalActions →
      Requested turnId turn (transitionTarget target (getExternalActionTransitionTrigger externalActionId))
  | externalSource {sources : List ExternalSourceTransition} {source : ExternalSourceTransition} {index : Nat} :
      turn.definition = .external sources → (source, index) ∈ sources.zipIdx →
      Requested turnId turn (transitionTarget source.toRouteTarget (getExternalSourceTransitionId turnId source.kind index))
  | collection {outcomes : Table String OutcomeSpec} {turnEnd : Option ProcessTurnEndSpec} {routing : MappedCollectRouting}
      {externalActions : Table String RouteTarget} {waitFor : Bool} {branchId : String} {request : TransitionRequest} :
      turn.definition = .llm outcomes turnEnd (some routing) externalActions waitFor →
      mappedRequest turnId routing branchId = .ok request → Requested turnId turn request

/-! ## The graph the server routes on -/

def TurnDefinition.turnType : TurnDefinition → TurnType
  | .llm .. => .llm
  | .automatic .. => .automatic
  | .human .. => .human
  | .external .. => .external

def TurnDefinition.waitFor : TurnDefinition → Bool
  | .llm _ _ _ _ waitFor | .automatic _ _ _ waitFor => waitFor
  | _ => false

/-- `toProcessGraphView`. -/
def toProcessGraphView (process : ExtensionProcessDefinition) : Engine.ProcessDefinition where
  id := process.id
  turns turnId := (process.turns.get? turnId).map fun turn => { turnType := turn.definition.turnType, waitFor := turn.definition.waitFor }
  entryTurnIds := process.entryTurnId :: process.alternateEntryTurnIds
  transitions turnId := ((process.turns.get? turnId).map CompiledTurn.transitions).getD []

/-- A turn whose outcomes are routed by `findOutcomeTransition`. -/
def TurnDefinition.outcomes? : TurnDefinition → Option (Table String OutcomeSpec × Option ProcessTurnEndSpec)
  | .llm outcomes turnEnd none _ _ | .automatic outcomes turnEnd _ _ => some (outcomes, turnEnd)
  | _ => none

/-- The transition that a route declares: to the turn itself when it declares none. -/
def declaredTarget (turnId : TurnId) (target : RouteTarget) : TurnTransition :=
  if hasDeclaredStaticRouteTarget target then
    { nextTurnId := target.toTurn
      lifecycleStatus := if target.complete then some .completed else target.lifecycleStatus }
  else { nextTurnId := some turnId }

end Leitwerk.ProcessSdk
