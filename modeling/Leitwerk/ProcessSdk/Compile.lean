import Leitwerk.Engine.Definition
import Leitwerk.Engine.ModelPolicy
import Leitwerk.Lib.Effects
/-!
# Compiling a process definition

`compileProcessDefinition` of `define-process.ts` for the routes of a process:
what the author declares on each turn becomes the transitions of that turn and
the routings its handlers keep. What is checked of a declaration apart from its
routes (forms, previews, products, markdown, tools, the happy path's
connections) is a verdict of `Checks`.
-/

namespace Leitwerk.ProcessSdk

open Engine (TurnId TerminalStatus TurnTransition)

/-! ## What an author declares -/

/-- `StaticRouteTarget`; `complete` is `complete === true`. -/
structure RouteTarget where
  toTurn : Option TurnId := none
  complete : Bool := false
  lifecycleStatus : Option TerminalStatus := none

structure BranchRouteSpec extends RouteTarget where
  trigger : Option String := none

/-- `ProcessToolOutcomeSpec`. -/
inductive OutcomeSpec
  | static (target : RouteTarget)
  | branches (branches : Table String BranchRouteSpec)

/-- `ProcessHumanTurnActionSpec`. -/
inductive ActionSpec
  | static (target : RouteTarget) (trigger : Option String)
  | branches (branches : Table String BranchRouteSpec)

structure ProcessTurnEndSpec where
  outcome : String
  target : RouteTarget

/-- `MappedCollectRouting`. -/
inductive MappedCollectRouting
  | static (toTurn : Option TurnId) (lifecycleStatus : Option TerminalStatus)
  | branches (branches : Table String TurnId)

structure ExternalSourceTransition extends RouteTarget where
  /-- `source.kind`. -/
  kind : String

inductive TurnDefinition
  | llm (outcomes : Table String OutcomeSpec) (turnEnd : Option ProcessTurnEndSpec) (forEach : Option MappedCollectRouting)
      (externalActions : Table String RouteTarget) (waitFor : Bool)
  | automatic (outcomes : Table String OutcomeSpec) (turnEnd : Option ProcessTurnEndSpec)
      (externalActions : Table String RouteTarget) (waitFor : Bool)
  | human (actions : Table String ActionSpec) (externalActions : Table String RouteTarget)
  | external (transitions : List ExternalSourceTransition)

/-- `DefinedProcessInput`. -/
structure Declaration where
  id : String
  entry : TurnId
  alternateEntries : List TurnId
  happyPath : Option (List TurnId)
  turns : Table TurnId TurnDefinition

/-! ## Errors -/

/-- An error, or the errors of an `AggregateError`. -/
structure Errors where
  first : String
  rest : List String := []

def Errors.toList (errors : Errors) : List String := errors.first :: errors.rest

def Errors.append (errors others : Errors) : Errors := ⟨errors.first, errors.rest ++ others.toList⟩

/-- A compilation step on a state `σ`, which stays changed when the step throws. -/
abbrev Compile (σ α : Type) := StateAction Errors σ α

section Compile

variable {σ α β : Type}

def fail (message : String) : Compile σ α := throw ⟨message, []⟩

def failIf (c : Prop) [Decidable c] (message : String) : Compile σ Unit := if c then fail message else pure ()

def failWith : Option String → Compile σ Unit
  | some message => fail message
  | none => pure ()

def lift (x : Except Errors α) : Compile σ α := fun s => (x, s)

/-- The results of two declarations, or the errors of both. -/
def both : Except Errors β → Except Errors (List β) → Except Errors (List β)
  | .ok b, .ok bs => .ok (b :: bs)
  | .error e, .ok _ => .error e
  | .ok _, .error e => .error e
  | .error e, .error e' => .error (e.append e')

/-- Every declaration is compiled before the errors are thrown. -/
def compileDeclarations (compile : α → Compile σ β) : List α → Compile σ (List β)
  | [] => pure []
  | entry :: rest => fun s =>
    let first := compile entry s
    let others := compileDeclarations compile rest first.2
    (both first.1 others.1, others.2)

end Compile

/-! ## Routes -/

/-- Whether a target names a turn that is declared. -/
def normalizeStaticRouteTarget (context : String) (target : RouteTarget) (knownTurnIds : List TurnId) :
    Except Errors TurnTransition :=
  match target.toTurn, target.complete, target.lifecycleStatus with
  | some toTurn, false, none =>
    if toTurn ∈ knownTurnIds then .ok { nextTurnId := some toTurn }
    else .error ⟨context ++ " references unknown turn '" ++ toTurn ++ "'", []⟩
  | none, true, none => .ok { lifecycleStatus := some .completed }
  | none, false, some lifecycleStatus => .ok { lifecycleStatus := some lifecycleStatus }
  | _, _, _ => .error ⟨context ++ " must declare exactly one target via 'to', 'complete', or 'lifecycleStatus'", []⟩

def hasDeclaredStaticRouteTarget (target : RouteTarget) : Bool :=
  target.toTurn.isSome || target.complete || target.lifecycleStatus.isSome

/-- The routes of an object of branches by branch id. -/
abbrev Routes := List (String × TurnTransition)

/-- A trigger that no branch before used. -/
def useTrigger (context trigger : String) : Compile (List String) Unit := fun used =>
  if trigger ∈ used then (.error ⟨context ++ " contains duplicate branch trigger '" ++ trigger ++ "'", []⟩, used)
  else (.ok (), trigger :: used)

def compileBranchRoute (knownTurnIds : List TurnId) (context : String) (entry : String × BranchRouteSpec) :
    Compile (List String) (String × TurnTransition) := do
  failIf (trim entry.1 = "") (context ++ " contains an empty branch id")
  let target ← lift (normalizeStaticRouteTarget (context ++ " branch '" ++ entry.1 ++ "'") entry.2.toRouteTarget knownTurnIds)
  useTrigger context (entry.2.trigger.getD entry.1)
  return (entry.1, { target with trigger := some (entry.2.trigger.getD entry.1) })

def compileBranchRoutes (knownTurnIds : List TurnId) (context : String) (branches : Table String BranchRouteSpec) :
    Except Errors Routes :=
  if branches.rows = [] then .error ⟨context ++ " must declare at least one branch", []⟩
  else (compileDeclarations (compileBranchRoute knownTurnIds context) branches.rows []).1

/-! ## Turns -/

/-- What is checked of the declarations apart from their routes. -/
structure Checks where
  /-- `validateTurnDefinition`, which may throw. -/
  turn : TurnId → Except Errors (List String)
  /-- The prompt, the preview and the scheduling of an action, given its transitions. -/
  action : TurnId → String → List TurnTransition → Option String
  /-- An external action and the input it publishes. -/
  externalAction : TurnId → String → Option String
  /-- Actions with different forms. -/
  forms : List String
  /-- Products, and the connections of the happy path. -/
  graph : List (TurnId × List TurnTransition) → List String
  connectivity : List (TurnId × List TurnTransition) → List String

section Turns

variable (checks : Checks) (knownTurnIds : List TurnId) (turnId : TurnId)

structure CompiledOutcome where
  outcome : String
  transitions : List TurnTransition
  /-- The branches of the outcome. -/
  routing : Option Routes

def buildOutcomeTransition (outcome : String) (target : RouteTarget) : Except Errors TurnTransition :=
  if hasDeclaredStaticRouteTarget target then
    normalizeStaticRouteTarget ("Turn '" ++ turnId ++ "' outcome '" ++ outcome ++ "'") target knownTurnIds
  else .ok { nextTurnId := some turnId }

def compileOutcome (entry : String × OutcomeSpec) : Compile Unit CompiledOutcome := do
  failIf (trim entry.1 = "") ("Turn '" ++ turnId ++ "' declares an empty outcome id")
  match entry.2 with
  | .branches branches => do
    let routes ← lift (compileBranchRoutes knownTurnIds ("Turn '" ++ turnId ++ "' outcome '" ++ entry.1 ++ "'") branches)
    return ⟨entry.1, routes.map fun route => { route.2 with outcome := some entry.1 }, some routes⟩
  | .static target => do
    let transition ← lift (buildOutcomeTransition knownTurnIds turnId entry.1 target)
    return ⟨entry.1, [{ transition with outcome := some entry.1 }], none⟩

def compileTurnEnd (turnEnd : ProcessTurnEndSpec) : Except Errors TurnTransition := do
  if trim turnEnd.outcome = "" then .error ⟨"Turn '" ++ turnId ++ "' declares an empty turnEnd outcome id", []⟩
  else
    let transition ← buildOutcomeTransition knownTurnIds turnId turnEnd.outcome turnEnd.target
    return { transition with outcome := some turnEnd.outcome }

/-- The outcomes and the transition at the end of the turn. -/
def compileTurnOutcomeDefinitions (outcomes : Table String OutcomeSpec) (turnEnd : Option ProcessTurnEndSpec) :
    Except Errors (List CompiledOutcome × List TurnTransition) := do
  let compiled ← (compileDeclarations (compileOutcome knownTurnIds turnId) outcomes.rows ()).1
  match turnEnd with
  | none => return (compiled, [])
  | some turnEnd => do
    let transition ← compileTurnEnd knownTurnIds turnId turnEnd
    return (compiled, [transition])

def mappedCollectTrigger : Option String → String
  | none => "collect"
  | some branchId => "collect:" ++ branchId

def compileMappedBranch (entry : String × TurnId) : Compile Unit TurnTransition := do
  failIf (trim entry.1 = "") ("Mapped turn '" ++ turnId ++ "' collection contains an empty branch id")
  let target ← lift (normalizeStaticRouteTarget ("Mapped turn '" ++ turnId ++ "' collection branch '" ++ entry.1 ++ "'")
    { toTurn := some entry.2 } knownTurnIds)
  return { target with trigger := some (mappedCollectTrigger (some entry.1)) }

def compileMappedTurnTransitions : MappedCollectRouting → Except Errors (List TurnTransition)
  | .static toTurn lifecycleStatus => do
    let target ← normalizeStaticRouteTarget ("Mapped turn '" ++ turnId ++ "' collection") { toTurn, lifecycleStatus } knownTurnIds
    return [{ target with trigger := some (mappedCollectTrigger none) }]
  | .branches branches => (compileDeclarations (compileMappedBranch knownTurnIds turnId) branches.rows ()).1

/-- `CompiledActionRouting`. -/
inductive CompiledActionRouting
  | static (route : TurnTransition)
  | branches (routes : Routes)

def CompiledActionRouting.transitions : CompiledActionRouting → List TurnTransition
  | .static route => [route]
  | .branches routes => routes.map Prod.snd

def resolveActionRouting (actionId : String) : ActionSpec → Except Errors CompiledActionRouting
  | .branches branches => do
    let routes ← compileBranchRoutes knownTurnIds ("Action '" ++ actionId ++ "' on turn '" ++ turnId ++ "'") branches
    return .branches routes
  | .static target trigger => do
    let target ← normalizeStaticRouteTarget ("Action '" ++ actionId ++ "' on turn '" ++ turnId ++ "'") target knownTurnIds
    return .static { target with trigger := some (trigger.getD actionId) }

/-- The action or external action of each trigger so far, latest first. -/
abbrev ActionIdByTrigger := List (Option String × String)

/-- Every transition of an action takes its trigger, unless another action has it. -/
def takeTriggers (actionId : String) : List TurnTransition → Compile ActionIdByTrigger Unit
  | [] => pure ()
  | transition :: rest => fun taken =>
    match taken.lookup transition.trigger with
    | some existing =>
      if existing ≠ actionId then
        (.error ⟨"Human turn '" ++ turnId ++ "' contains duplicate action trigger '" ++ transition.trigger.getD "" ++
          "' across actions '" ++ existing ++ "' and '" ++ actionId ++ "'", []⟩, taken)
      else takeTriggers actionId rest ((transition.trigger, actionId) :: taken)
    | none => takeTriggers actionId rest ((transition.trigger, actionId) :: taken)

def deriveHumanTurnAction (entry : String × ActionSpec) : Compile ActionIdByTrigger (String × CompiledActionRouting) := do
  failIf (trim entry.1 = "") ("Human turn '" ++ turnId ++ "' declares an empty action id")
  let routing ← lift (resolveActionRouting knownTurnIds turnId entry.1 entry.2)
  takeTriggers turnId entry.1 routing.transitions
  failWith (checks.action turnId entry.1 routing.transitions)
  return (entry.1, routing)

def getExternalActionTransitionTrigger (externalActionId : String) : String := "external:" ++ externalActionId

/-- The trigger of an external action, which no action may have. -/
def takeExternalTrigger (externalActionId trigger : String) : Compile ActionIdByTrigger Unit := fun taken =>
  match taken.lookup (some trigger) with
  | some existing =>
    (.error ⟨"Human turn '" ++ turnId ++ "' contains duplicate trigger '" ++ trigger ++ "' across action '" ++ existing ++
      "' and external action '" ++ externalActionId ++ "'", []⟩, taken)
  | none => (.ok (), (some trigger, externalActionId) :: taken)

def compileExternalAction (entry : String × RouteTarget) : Compile ActionIdByTrigger TurnTransition := do
  failWith (checks.externalAction turnId entry.1)
  let target ← lift (normalizeStaticRouteTarget ("Human turn '" ++ turnId ++ "' external action '" ++ entry.1 ++ "'")
    entry.2 knownTurnIds)
  takeExternalTrigger turnId entry.1 (getExternalActionTransitionTrigger entry.1)
  return { target with trigger := some (getExternalActionTransitionTrigger entry.1) }

def compileExternalActionTransitions (externalActions : Table String RouteTarget) : Compile ActionIdByTrigger (List TurnTransition) :=
  compileDeclarations (compileExternalAction checks knownTurnIds turnId) externalActions.rows

/-- The actions of a human turn with their transitions. -/
def deriveHumanTurnActions (actions : Table String ActionSpec) (externalActions : Table String RouteTarget) :
    Compile ActionIdByTrigger (List (String × CompiledActionRouting) × List TurnTransition) := do
  let derived ← compileDeclarations (deriveHumanTurnAction checks knownTurnIds turnId) actions.rows
  let external ← compileExternalActionTransitions checks knownTurnIds turnId externalActions
  return (derived, derived.flatMap (fun action => action.2.transitions) ++ external)

def getExternalSourceTransitionId (kind : String) (index : Nat) : String := turnId ++ ":" ++ kind ++ ":" ++ toString index

def compileExternalSourceTransition (entry : ExternalSourceTransition × Nat) : Compile Unit TurnTransition := do
  let target ← lift (normalizeStaticRouteTarget ("External turn '" ++ turnId ++ "' source '" ++ entry.1.kind ++ "'")
    entry.1.toRouteTarget knownTurnIds)
  return { target with trigger := some (getExternalSourceTransitionId turnId entry.1.kind entry.2) }

/-- A turn with its transitions and the routings its handlers keep. -/
structure CompiledTurn where
  definition : TurnDefinition
  transitions : List TurnTransition := []
  actions : List (String × CompiledActionRouting) := []
  routings : List (String × Routes) := []

/-- The routings of the outcomes that have branches. -/
def outcomeRoutings (compiled : List CompiledOutcome) : List (String × Routes) :=
  compiled.filterMap fun outcome => outcome.routing.map fun routes => (outcome.outcome, routes)

def compileTurn (definition : TurnDefinition) : Except Errors CompiledTurn :=
  match definition with
  | .llm _ _ (some routing) externalActions _ => do
    let external ← (compileExternalActionTransitions checks knownTurnIds turnId externalActions []).1
    let collection ← compileMappedTurnTransitions knownTurnIds turnId routing
    return { definition, transitions := collection ++ external }
  | .llm outcomes turnEnd none externalActions _ | .automatic outcomes turnEnd externalActions _ => do
    let external ← (compileExternalActionTransitions checks knownTurnIds turnId externalActions []).1
    let (compiled, ending) ← compileTurnOutcomeDefinitions knownTurnIds turnId outcomes turnEnd
    return {
      definition
      transitions := compiled.flatMap (fun outcome => outcome.transitions) ++ ending ++ external
      routings := outcomeRoutings compiled }
  | .human actions externalActions => do
    let (derived, transitions) ← (deriveHumanTurnActions checks knownTurnIds turnId actions externalActions []).1
    return { definition, transitions, actions := derived }
  | .external sources => do
    let transitions ← (compileDeclarations (compileExternalSourceTransition knownTurnIds turnId) sources.zipIdx ()).1
    return { definition, transitions }

end Turns

/-! ## The process -/

section Process

variable (checks : Checks) (input : Declaration)

def TurnDefinition.externalTargets : TurnDefinition → List RouteTarget
  | .llm _ _ _ externalActions _ | .automatic _ _ externalActions _ | .human _ externalActions => externalActions.values
  | .external sources => sources.map (·.toRouteTarget)

/-- A turn that a worker runs and that does not wait. -/
def TurnDefinition.startsAtOnce : TurnDefinition → Bool
  | .llm _ _ _ _ waitFor | .automatic _ _ _ waitFor => !waitFor
  | _ => false

/-- An external event may lead to a worker's turn only when that turn waits. -/
def waitForErrors (turnId : TurnId) (definition : TurnDefinition) : List String :=
  definition.externalTargets.filterMap fun target =>
    target.toTurn.bind fun toTurn =>
      (input.turns.get? toTurn).bind fun next =>
        if next.startsAtOnce then
          some ("External transition from '" ++ turnId ++ "' to worker turn '" ++ toTurn ++ "' requires .waitFor(...) on the target")
        else none

/-- `validateOutcomeTurnResultContract`. -/
def outcomeContractErrors (turnId : TurnId) (outcomes : Table String OutcomeSpec) (turnEnd : Option ProcessTurnEndSpec) : List String :=
  if outcomes.rows = [] ∧ turnEnd.isNone = true then
    ["turn '" ++ turnId ++ "' must declare at least one outcome tool or a turnEnd result"]
  else if outcomes.rows ≠ [] ∧ turnEnd.isSome = true then ["turn '" ++ turnId ++ "' cannot declare both outcomes and turnEnd"]
  else []

def validateTurnDefinition (turnId : TurnId) (definition : TurnDefinition) : Except Errors (List String) := do
  let errors ← checks.turn turnId
  match definition with
  | .llm outcomes turnEnd _ _ _ | .automatic outcomes turnEnd _ _ => return outcomeContractErrors turnId outcomes turnEnd ++ errors
  | _ => return errors

/-- A turn with the errors found in it; a turn with errors has no transitions. -/
def inspectTurn (turnId : TurnId) (definition : TurnDefinition) : List String × CompiledTurn :=
  match validateTurnDefinition checks turnId definition with
  | .error errors => (errors.toList, { definition })
  | .ok (error :: errors) => (error :: errors, { definition })
  | .ok [] =>
    match compileTurn checks (input.turns.rows.map Prod.fst) turnId definition with
    | .error errors => (waitForErrors input turnId definition ++ errors.toList, { definition })
    | .ok compiled => (waitForErrors input turnId definition, compiled)

/-- Compiled turns by their id. -/
abbrev CompiledTurns := Table TurnId CompiledTurn

def compileTurns : CompiledTurns := input.turns.mapRows fun turnId definition => (inspectTurn checks input turnId definition).2

def turnErrors : List String := input.turns.rows.flatMap fun row => (inspectTurn checks input row.1 row.2).1

/-- The entries that came before, or that no turn has. -/
def entryErrors : List TurnId → List TurnId → List String
  | _, [] => []
  | seen, turnId :: rest =>
    (if turnId ∈ seen then ["declares duplicate entry turn '" ++ turnId ++ "'"] else []) ++
      (if turnId ∉ input.turns.rows.map Prod.fst then ["entry turn '" ++ turnId ++ "' is not declared in turns"] else []) ++
      entryErrors (turnId :: seen) rest

def pathErrors : List TurnId → List TurnId → List String
  | _, [] => []
  | seen, turnId :: rest =>
    (if turnId ∉ input.turns.rows.map Prod.fst then ["happy path references undeclared turn '" ++ turnId ++ "'"] else []) ++
      (if turnId ∈ seen then ["happy path repeats turn '" ++ turnId ++ "'"] else []) ++ pathErrors (turnId :: seen) rest

def happyPathErrors : List String :=
  match input.happyPath with
  | none => []
  | some [] => ["declares an empty happy path"]
  | some (first :: rest) => pathErrors input [] (first :: rest) ++
    if first ≠ input.entry then ["happy path must start at the entry turn '" ++ input.entry ++ "'"] else []

def graphOf (turns : CompiledTurns) : List (TurnId × List TurnTransition) := turns.rows.map fun row => (row.1, row.2.transitions)

/-- The errors of one transition of a graph. -/
def transitionErrors (graph : List (TurnId × List TurnTransition)) (turnId : TurnId) (transition : TurnTransition) : List String :=
  if transition.nextTurnId.isSome = transition.lifecycleStatus.isSome then
    ["Turn transition from '" ++ turnId ++ "' must declare exactly one target: nextTurnId or lifecycleStatus"]
  else
    match transition.nextTurnId with
    | some next =>
      if next ∉ graph.map Prod.fst then
        ["Turn transition from '" ++ turnId ++ "' references undeclared nextTurnId '" ++ next ++ "'"]
      else []
    | none => []

def validateProcessGraphTurnTransitions (graph : List (TurnId × List TurnTransition)) : List String :=
  graph.flatMap fun turn => turn.2.flatMap (transitionErrors graph turn.1)

/-- The errors of a graph; its connections are checked when nothing else is wrong. -/
def graphErrors (connected : Bool) (turns : CompiledTurns) : List String :=
  let graph := graphOf turns
  checks.graph graph ++ validateProcessGraphTurnTransitions graph ++
    if connected && (validateProcessGraphTurnTransitions graph).isEmpty then checks.connectivity graph else []

/-- Whether every turn could be read (`inspectableProducts`). -/
def inspectable : Bool := input.turns.rows.all fun row =>
  match validateTurnDefinition checks row.1 row.2 with
  | .error _ => false
  | .ok _ => true

/-- The errors of a declaration, whose turns may have been compiled before. -/
def compileErrors (retainedTurns : Option CompiledTurns) : List String :=
  let turns := compileTurns checks input
  let connected := (turnErrors checks input).isEmpty && (happyPathErrors input).isEmpty
  let graphs := if inspectable checks input then turns :: retainedTurns.toList else []
  (if input.turns.rows = [] then ["must declare at least one turn"] else []) ++
    entryErrors input [] (input.entry :: input.alternateEntries) ++ happyPathErrors input ++ turnErrors checks input ++
    checks.forms ++ graphs.flatMap (graphErrors checks connected)

end Process

/-- `ExtensionProcessDefinition`. -/
structure ExtensionProcessDefinition where
  id : String
  entryTurnId : TurnId
  alternateEntryTurnIds : List TurnId
  happyPath : Option (List TurnId)
  turns : CompiledTurns

/-- `defineProcess`; what it throws joins the errors. -/
def defineProcess (checks : Checks) (input : Declaration) : Except (List String) ExtensionProcessDefinition :=
  match compileErrors checks input none with
  | [] => .ok {
      id := input.id
      entryTurnId := input.entry
      alternateEntryTurnIds := input.alternateEntries
      happyPath := input.happyPath
      turns := compileTurns checks input }
  | errors => .error errors

/-- The declaration that a definition was made from. -/
def ExtensionProcessDefinition.declaration (process : ExtensionProcessDefinition) : Declaration :=
  { id := process.id
    entry := process.entryTurnId
    alternateEntries := process.alternateEntryTurnIds
    happyPath := process.happyPath
    turns := process.turns.mapRows fun _ turn => turn.definition }

def validateProcessDefinition (checks : Checks) (process : ExtensionProcessDefinition) : List String :=
  compileErrors checks process.declaration (some process.turns)

end Leitwerk.ProcessSdk
