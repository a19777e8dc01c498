import Leitwerk.Domain
import Leitwerk.Lib.JsString
import Leitwerk.Lib.Search
import Leitwerk.Lib.Table
/-!
# Process flows and their nodes

The declared turns and transitions of a process as `layout.ts` reads them, the
shortest successful path of `process-path.ts`, and the nodes that stand for the
turns and end states on the drawing, before they have a place. Numbers of the
drawing are rationals.
-/

namespace Leitwerk.WorkflowGraph

/-- `ProcessTurnTerminalLifecycleStatus`. -/
inductive TerminalStatus where
  | completed | aborted
  deriving DecidableEq

/-- `ProcessFlowEdgeKind`. -/
inductive EdgeKind where
  | forward | loopback | branch | terminal
  deriving DecidableEq

/-- `ProcessFlowNode`, as far as it is drawn: `repetition` is `"sequential"` or absent. -/
structure FlowNode where
  turnId : String
  description : JsString
  turnType : TurnType
  sequential : Bool

/-- `ProcessFlowEdge`, without its condition. -/
structure FlowEdge where
  source : String
  target : Option String
  lifecycleStatus : Option TerminalStatus
  kind : EdgeKind
  label : Option JsString

structure FlowEndState where
  lifecycleStatus : TerminalStatus
  synthetic : Bool

/-- `ProcessFlowView`, as far as it is drawn. -/
structure Flow where
  entryTurnIds : List String
  nodes : List FlowNode
  edges : List FlowEdge
  endStates : List FlowEndState

/-- The declared turn ids. -/
def Flow.turnIds (flow : Flow) : List String := flow.nodes.map (·.turnId)

/-! ## The shortest successful path -/

/-- The turns that `id` leads to, up to a success. -/
def visitOutgoing (id : String) : List (Option String) → Table String (Option String) → Table String (Option String) × Bool
  | [], parents => (parents, false)
  | none :: _, parents => (parents, true)
  | some next :: outgoing, parents =>
    visitOutgoing id outgoing (if (parents.get? next).isSome then parents else parents.put next (some id))

/-- The loop over the keys of `parents`, which grows meanwhile; `none` is out of fuel. -/
def successfulTurnPath (entry : String) (outgoing : String → List (Option String)) :
    Nat → Nat → Table String (Option String) → Option (List String)
  | 0, _, _ => none
  | fuel + 1, i, parents =>
    match parents.rows[i]? with
    | none => some [entry]
    | some (id, _) =>
      let (parents, success) := visitOutgoing id (outgoing id) parents
      if success then some (Search.trace (fun cursor => (parents.get? cursor).join) parents.rows.length id [])
      else successfulTurnPath entry outgoing fuel (i + 1) parents

/-- `shortestSuccessfulTurnPath`. -/
def shortestSuccessfulTurnPath (fuel : Nat) (entry : String) (outgoing : String → List (Option String)) : Option (List String) :=
  successfulTurnPath entry outgoing fuel 0 (Table.empty.put entry none)

/-- What a turn leads to: `none` marks success. -/
def outgoing (flow : Flow) (id : String) : List (Option String) :=
  (flow.edges.filter (·.source = id)).flatMap fun edge =>
    if edge.lifecycleStatus = some .completed then [none]
    else
      match edge.target with
      | some next => if next ∈ flow.turnIds then [some next] else []
      | none => []

def shortestSuccessfulPath (fuel : Nat) (flow : Flow) : Option (List String) :=
  match (flow.entryTurnIds.find? (· ∈ flow.turnIds)).or (flow.turnIds.head?) with
  | none => some []
  -- an empty id is no entry
  | some entry => if entry = "" then some [] else shortestSuccessfulTurnPath fuel entry (outgoing flow)

/-! ## Nodes -/

/-- The id of a node: `turn:` and a turn id, or `end:` and a status. -/
inductive NodeId where
  | turnId (id : String)
  | endId (status : TerminalStatus)
  deriving DecidableEq

structure Point where
  x : ℚ
  y : ℚ
  deriving DecidableEq

structure Bounds where
  x : ℚ
  y : ℚ
  width : ℚ
  height : ℚ
  deriving DecidableEq

structure RepeatGeometry where
  activity : Bounds
  collector : Point
  axis : ℚ
  loopY : ℚ
  deriving DecidableEq

/-- `WorkflowNode["kind"]`. -/
inductive NodeKind where
  | turn (type : TurnType)
  | ended (status : TerminalStatus)
  deriving DecidableEq

/-- `WorkflowNode`, without its definition. -/
structure WorkflowNode where
  id : NodeId
  turnId : Option String
  title : JsString
  kind : NodeKind
  synthetic : Bool
  column : ℕ
  lane : ℤ
  x : ℚ
  y : ℚ
  width : ℚ
  height : ℚ
  repetition : Option RepeatGeometry
  deriving DecidableEq

/-- `turnKindLabel`. -/
def turnKindLabel : NodeKind → JsString
  | .turn .llm => JsString.lit "LLM turn"
  | .turn .automatic => JsString.lit "Automation"
  | .turn .human => JsString.lit "Operator decision"
  | .turn .external => JsString.lit "External wait"
  | .ended .completed => JsString.lit "Completed"
  | .ended .aborted => JsString.lit "Aborted"

/-- How many lines a description of `length` units takes, `perLine` of them on a line. -/
def descriptionLines (length perLine : ℕ) : ℕ := min 3 (max 1 ((length + perLine - 1) / perLine))

def makeNode (definition : FlowNode) : WorkflowNode :=
  let repeated := definition.sequential
  let width : ℚ := if repeated then 380 else if definition.description.length > 50 then 260 else 225
  let lines : ℚ := descriptionLines definition.description.length (if repeated then 23 else 24)
  let activityHeight := 85 + (lines - 1) * 21
  let height := if repeated then activityHeight + 115 else max 112 (90 + lines * 21)
  { id := .turnId definition.turnId
    turnId := some definition.turnId
    title := definition.description
    kind := .turn definition.turnType
    synthetic := false
    column := 0
    lane := 0
    x := 0
    y := 0
    width
    height
    repetition :=
      if repeated then
        some {
          activity := { x := 18, y := 115 / 2, width := 235, height := activityHeight }
          collector := { x := 326, y := height / 2 }
          axis := height / 2
          loopY := height - 22 }
      else none }

def makeEndNode (status : TerminalStatus) (synthetic : Bool) : WorkflowNode where
  id := .endId status
  turnId := none
  title := turnKindLabel (.ended status)
  kind := .ended status
  synthetic
  column := 0
  lane := 0
  x := 0
  y := 0
  width := 190
  height := 70
  repetition := none

/-- The end states, and whether a declared transition reaches them. -/
def statuses (flow : Flow) : Table TerminalStatus Bool :=
  flow.edges.foldl (fun statuses edge =>
      match edge.lifecycleStatus with
      | some status => statuses.put status false
      | none => statuses)
    (flow.endStates.foldl (fun statuses state => statuses.put state.lifecycleStatus state.synthetic) Table.empty)

/-- The nodes of a flow, before they have a place. -/
def makeNodes (flow : Flow) : List WorkflowNode :=
  flow.nodes.map makeNode ++ (statuses flow).rows.map fun row => makeEndNode row.1 row.2

/-- `byId.get(id)`: of two nodes with one id the map has the later one. -/
def byId (nodes : List WorkflowNode) (id : NodeId) : Option WorkflowNode := nodes.reverse.find? (·.id = id)

end Leitwerk.WorkflowGraph
