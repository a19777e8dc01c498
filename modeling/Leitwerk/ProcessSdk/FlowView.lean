import Leitwerk.WorkflowGraph.Layout
/-!
# Flow views of process graphs

`process-flow-view.ts`: the spine of a process graph is its shortest successful
path, each other turn is anchored to the spine turn that leads to it first, and
the declared transitions become edges. The drawing reads the result as a flow.
-/

namespace Leitwerk.ProcessSdk.FlowView

open WorkflowGraph

/-! ## Process graphs -/

/-- The declared condition of a branch. -/
structure Condition where
  label : JsString
  description : Option JsString

/-- `ProcessTurnTransition`, with its condition. -/
structure Transition where
  nextTurnId : Option String
  lifecycleStatus : Option TerminalStatus
  outcome : Option JsString
  trigger : Option JsString
  condition : Option Condition

inductive ToolCategory where
  | workspace | integration | question | outcome

/-- `ProcessFlowTool`. -/
structure FlowTool where
  name : JsString
  category : ToolCategory
  description : Option JsString

/-- `ProcessGraphTurnView`, as far as a flow view shows it; products that are not declared are none. -/
structure GraphTurnView where
  turnType : TurnType
  description : JsString
  /-- `repetition` is `"sequential"`. -/
  sequential : Bool
  tools : Option (List FlowTool)
  hasDynamicTools : Bool
  transitions : List Transition
  transitionLabels : Option (Table JsString JsString)
  reviewProduct : Option JsString
  publishedProduct : Option JsString
  publishedProducts : List JsString
  consumedProducts : List JsString
  optionalConsumedProducts : List JsString

/-- `ProcessGraphView`, without its declared happy path. -/
structure ProcessGraphView where
  id : String
  primaryEntryTurnId : String
  entryTurnIds : List String
  entries_nodup : entryTurnIds.Nodup
  turns : Table String GraphTurnView

namespace ProcessGraphView

variable (graph : ProcessGraphView)

/-- The ids of the declared turns. -/
def turnIds : List String := graph.turns.rows.map Prod.fst

/-- `graph.turns.get(id)?.transitions ?? []`. -/
def transitions (id : String) : List Transition := ((graph.turns.get? id).map (·.transitions)).getD []

/-- Where the spine starts. -/
def primaryEntry : Option String :=
  if graph.primaryEntryTurnId ∈ graph.turnIds then some graph.primaryEntryTurnId else graph.turnIds.head?

end ProcessGraphView

/-! ## The spine and what hangs off it -/

/-- What a turn leads to: `none` marks success. -/
def spineOutgoing (graph : ProcessGraphView) (id : String) : List (Option String) :=
  (graph.transitions id).flatMap fun transition =>
    if transition.lifecycleStatus = some .completed then [none]
    else
      match transition.nextTurnId with
      | some next => if next ∈ graph.turnIds then [some next] else []
      | none => []

def deriveSpine (fuel : Nat) (graph : ProcessGraphView) (entry : String) : Option (List String) :=
  shortestSuccessfulTurnPath fuel entry (spineOutgoing graph)

/-- A transition of a turn that the queue has reached: its target joins the queue unless it has its anchor. -/
def anchorNext (graph : ProcessGraphView) (spine : List String) (spineTurnId : String)
    (state : List String × Table String String) (transition : Transition) : List String × Table String String :=
  match transition.nextTurnId with
  | none => state
  | some next =>
    if next ∉ graph.turnIds ∨ next ∈ spine ∨ (state.2.get? next).isSome then state
    else (state.1 ++ [next], state.2.put next spineTurnId)

/-- The loop over the queue, which grows meanwhile; `none` is out of fuel. -/
def anchorFrom (graph : ProcessGraphView) (spine : List String) (spineTurnId : String) :
    Nat → Nat → List String × Table String String → Option (Table String String)
  | 0, _, _ => none
  | fuel + 1, i, (queue, anchorByTurn) =>
    match queue[i]? with
    | none => some anchorByTurn
    | some current =>
      anchorFrom graph spine spineTurnId fuel (i + 1)
        ((graph.transitions current).foldl (anchorNext graph spine spineTurnId) (queue, anchorByTurn))

/-- The loop over the spine. -/
def anchorAll (fuel : Nat) (graph : ProcessGraphView) (spine : List String) :
    List String → Table String String → Option (Table String String)
  | [], anchorByTurn => some anchorByTurn
  | spineTurnId :: rest, anchorByTurn =>
    match anchorFrom graph spine spineTurnId fuel 0 ([spineTurnId], anchorByTurn) with
    | none => none
    | some anchorByTurn => anchorAll fuel graph spine rest anchorByTurn

def deriveBranchAnchors (fuel : Nat) (graph : ProcessGraphView) (spine : List String) : Option (Table String String) :=
  anchorAll fuel graph spine spine Table.empty

/-! ## Labels -/

def trimToNull (text : Option JsString) : Option JsString := (text.map JsString.trim).filter (· ≠ [])

/-- What `\w` matches. -/
def isWord (u : UInt16) : Bool :=
  (48 ≤ u.toNat && u.toNat ≤ 57) || (65 ≤ u.toNat && u.toNat ≤ 90) || (97 ≤ u.toNat && u.toNat ≤ 122) || u.toNat = 95

/-- A run of units becomes one space; `inRun` says that the space is already there. -/
def spaceRuns (p : UInt16 → Bool) : Bool → JsString → JsString
  | _, [] => []
  | inRun, u :: s =>
    if p u then if inRun then spaceRuns p true s else 0x20 :: spaceRuns p true s
    else u :: spaceRuns p false s

/-- The first unit of each word in upper case. -/
def capitalizeWords : Bool → JsString → JsString
  | _, [] => []
  | inWord, u :: s =>
    (if inWord = false ∧ 97 ≤ u.toNat ∧ u.toNat ≤ 122 then (u.toNat - 32).toUInt16 else u) :: capitalizeWords (isWord u) s

def humanizeProcessLabel (identifier : JsString) : JsString :=
  JsString.trim (capitalizeWords false (spaceRuns JsString.isSpace false
    (spaceRuns (fun u => u.toNat = 95 || u.toNat = 45) false (JsString.trim identifier))))

/-- A string that counts as a condition. -/
def truthy (text : Option JsString) : Option JsString := text.filter (· ≠ [])

def transitionLabel (transition : Transition) (labels : Option (Table JsString JsString)) : Option JsString :=
  match truthy ((truthy transition.trigger).bind fun trigger => labels.bind fun labels => labels.get? trigger) with
  | some label => some label
  | none => ((trimToNull transition.outcome).or (trimToNull transition.trigger)).map humanizeProcessLabel

/-! ## The view -/

inductive FlowNodeRole where
  | spine | branch
  deriving DecidableEq

/-- `ProcessFlowNode`. -/
structure ProcessFlowNode extends FlowNode where
  role : FlowNodeRole
  spineIndex : Option ℕ
  anchorTurnId : Option String
  isEntry : Bool
  tools : Option (List FlowTool)
  hasDynamicTools : Bool
  inputProducts : List JsString
  outputProducts : List JsString

/-- `ProcessFlowEdge`. -/
structure ProcessFlowEdge extends FlowEdge where
  condition : Option Condition

structure ProcessFlowView where
  processId : String
  entryTurnIds : List String
  spine : List String
  nodes : List ProcessFlowNode
  edges : List ProcessFlowEdge
  endStates : List FlowEndState

/-- `spineIndexByTurn.get(id)`: of two indices of one id the map has the later one. -/
def spineIndexByTurn (spine : List String) (id : String) : Option ℕ := (spine.zipIdx.reverse.find? (·.1 = id)).map (·.2)

def flowNode (graph : ProcessGraphView) (spine : List String) (anchorByTurn : Table String String) (turnId : String)
    (turn : GraphTurnView) : ProcessFlowNode where
  turnId
  description := (trimToNull (some turn.description)).getD (JsString.lit turnId)
  turnType := turn.turnType
  sequential := turn.sequential
  role := if (spineIndexByTurn spine turnId).isNone then .branch else .spine
  spineIndex := spineIndexByTurn spine turnId
  anchorTurnId := if (spineIndexByTurn spine turnId).isNone then anchorByTurn.get? turnId else none
  isEntry := turnId ∈ graph.entryTurnIds.filter (· ∈ graph.turnIds)
  tools := turn.tools
  hasDynamicTools := turn.hasDynamicTools
  inputProducts := (turn.consumedProducts ++ turn.optionalConsumedProducts ++ (truthy turn.reviewProduct).toList).eraseDups
  outputProducts := (turn.publishedProducts ++ (truthy turn.publishedProduct).toList).eraseDups

def edgeKind (spine : List String) (source : String) (next : Option String) (lifecycleStatus : Option TerminalStatus) : EdgeKind :=
  if lifecycleStatus.isSome then .terminal
  else
    match spineIndexByTurn spine source, next.bind (spineIndexByTurn spine) with
    | some fromIndex, some toIndex => if toIndex > fromIndex then .forward else .loopback
    | _, _ => .branch

/-- The edge of a transition; one without a target has none. -/
def flowEdge (spine : List String) (turnId : String) (turn : GraphTurnView) (transition : Transition) : Option ProcessFlowEdge :=
  let lifecycleStatus := transition.lifecycleStatus
  let next := if lifecycleStatus.isNone then transition.nextTurnId else none
  if lifecycleStatus.isNone ∧ next.isNone then none
  else
    some {
      source := turnId
      target := next
      lifecycleStatus
      kind := edgeKind spine turnId next lifecycleStatus
      label := transitionLabel transition turn.transitionLabels
      condition := transition.condition }

/-- The end states in the order of their names. -/
def flowEndStates (terminalStatuses : List TerminalStatus) : List FlowEndState :=
  let endStates := (terminalStatuses ++ [TerminalStatus.aborted]).eraseDups.map fun lifecycleStatus =>
    FlowEndState.mk lifecycleStatus (lifecycleStatus ∉ terminalStatuses)
  endStates.mergeSort fun left right => left.lifecycleStatus = .aborted ∨ right.lifecycleStatus = .completed

/-- The edges of the declared transitions. -/
def flowEdges (graph : ProcessGraphView) (spine : List String) : List ProcessFlowEdge :=
  graph.turns.rows.flatMap fun (turnId, turn) => turn.transitions.filterMap (flowEdge spine turnId turn)

/-- The view with its spine and its anchors. -/
def flowView (graph : ProcessGraphView) (spine : List String) (anchorByTurn : Table String String) : ProcessFlowView where
  processId := graph.id
  entryTurnIds := graph.entryTurnIds.filter (· ∈ graph.turnIds)
  spine
  nodes := graph.turns.rows.map fun (turnId, turn) => flowNode graph spine anchorByTurn turnId turn
  edges := flowEdges graph spine
  endStates := flowEndStates ((flowEdges graph spine).filterMap (·.lifecycleStatus))

/-- The spine, none when there are no turns. -/
def spineOf (fuel : Nat) (graph : ProcessGraphView) : Option (List String) :=
  match graph.primaryEntry with
  | some entry => deriveSpine fuel graph entry
  | none => some []

/-- `buildProcessFlowView`, with the steps its searches may take; `none` is out of fuel. -/
def buildProcessFlowView (fuel : Nat) (graph : ProcessGraphView) : Option ProcessFlowView :=
  match spineOf fuel graph with
  | none => none
  | some spine => (deriveBranchAnchors fuel graph spine).map (flowView graph spine)

/-- A flow view as the drawing reads it. -/
def ProcessFlowView.drawn (view : ProcessFlowView) : Flow where
  entryTurnIds := view.entryTurnIds
  nodes := view.nodes.map (·.toFlowNode)
  edges := view.edges.map (·.toFlowEdge)
  endStates := view.endStates

end Leitwerk.ProcessSdk.FlowView
