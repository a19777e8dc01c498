import Leitwerk.WorkflowGraph.Route
import Mathlib.Data.List.MinMax
/-!
# Layout of a workflow

`layoutWorkflow` puts the shortest successful path on lane 0, one column per
node, the other nodes on free cells beside it, and routes every declared
transition. A node is in one cell of a column and a lane; columns and lanes are
as wide as their widest node needs, with gaps in which routes run.
-/

namespace Leitwerk.WorkflowGraph

/-- `WorkflowEdge`; its place among the declared edges is its identity. -/
structure WorkflowEdge where
  index : ℕ
  source : NodeId
  target : NodeId
  label : Option JsString
  kind : EdgeKind
  points : List Point
  labelPosition : Point
  sourceSide : Side
  targetSide : Side
  deriving DecidableEq

def WorkflowEdge.id (edge : WorkflowEdge) : String := "route-" ++ toString edge.index

structure WorkflowLayout where
  width : ℚ
  height : ℚ
  nodes : List WorkflowNode
  edges : List WorkflowEdge
  mainPath : List NodeId

/-- The main path: the successful turns, and their completion. -/
def mainPathOf (flow : Flow) (spine : List String) : List NodeId :=
  spine.map .turnId ++
    (if flow.edges.any fun edge => some edge.source = spine.getLast? ∧ edge.lifecycleStatus = some .completed
      then [.endId .completed] else [])

/-- What an edge leads to. -/
def targetOf (edge : FlowEdge) : Option NodeId :=
  match edge.target with
  | some turn => some (.turnId turn)
  | none => edge.lifecycleStatus.map .endId

/-- The edges between nodes that are there. -/
def makeEdges (flow : Flow) (nodes : List WorkflowNode) : List WorkflowEdge :=
  flow.edges.zipIdx.filterMap fun (edge, index) =>
    match targetOf edge with
    | none => none
    | some target =>
      if (byId nodes (.turnId edge.source)).isSome ∧ (byId nodes target).isSome then
        some {
          index
          source := .turnId edge.source
          target
          label := edge.label
          kind := edge.kind
          points := []
          labelPosition := ⟨0, 0⟩
          sourceSide := .right
          targetSide := .left }
      else none

/-! ## Cells -/

/-- A node that has its cell. -/
structure Slot where
  id : NodeId
  column : ℕ
  lane : ℤ

def Slot.cell (slot : Slot) : ℕ × ℤ := (slot.column, slot.lane)

/-- The first lane that is free, away from the middle; as many steps as there are occupied cells. -/
def freeLane (occupied : List (ℕ × ℤ)) (column : ℕ) : ℕ → ℤ → ℤ
  | 0, lane => lane
  | steps + 1, lane =>
    if (column, lane) ∈ occupied then freeLane occupied column steps (lane + (if lane < 0 then -1 else 1)) else lane

def place (nodes : List WorkflowNode) (placed : List Slot) (id : NodeId) (column : ℕ) (lane : ℤ) : List Slot :=
  if (byId nodes id).isNone ∨ id ∈ placed.map (·.id) then placed
  else placed ++ [⟨id, column, freeLane (placed.map (·.cell)) column placed.length lane⟩]

/-- The main path takes lane 0. -/
def placeMainPath (nodes : List WorkflowNode) (mainPath : List NodeId) : List Slot :=
  mainPath.zipIdx.foldl (fun placed (id, column) => place nodes placed id column 0) []

/-- What a placed node leads to goes into the next column. -/
def placeTargets (nodes : List WorkflowNode) (edges : List WorkflowEdge) (placed : List Slot) (parent : Slot) : List Slot :=
  (edges.filter (·.source = parent.id)).foldl (fun placed edge =>
    match byId nodes edge.target with
    | none => placed
    | some next =>
      place nodes placed next.id (parent.column + 1)
        (if parent.lane ≠ 0 then parent.lane
          else if next.kind = .turn .human ∨ next.kind = .ended .aborted then -1 else 1)) placed

/-- The loop over `placed`, which grows meanwhile but holds a node once. -/
def placeReachable (nodes : List WorkflowNode) (edges : List WorkflowEdge) : Nat → Nat → List Slot → List Slot
  | 0, _, placed => placed
  | steps + 1, i, placed =>
    match placed[i]? with
    | none => placed
    | some parent => placeReachable nodes edges steps (i + 1) (placeTargets nodes edges placed parent)

/-- Unreachable declarations and an implicit abort have a cell too. -/
def placeOthers (nodes : List WorkflowNode) (mainPath : List NodeId) (placed : List Slot) : List Slot :=
  nodes.foldl (fun placed node => place nodes placed node.id (if node.synthetic then mainPath.length - 1 else 0) 1) placed

def placeNodes (nodes : List WorkflowNode) (edges : List WorkflowEdge) (mainPath : List NodeId) : List Slot :=
  placeOthers nodes mainPath (placeReachable nodes edges nodes.length 0 (placeMainPath nodes mainPath))

/-- The nodes with their cells. -/
def cellNodes (nodes : List WorkflowNode) (placed : List Slot) : List WorkflowNode :=
  nodes.map fun node =>
    match placed.find? (·.id = node.id) with
    | some slot => { node with column := slot.column, lane := slot.lane }
    | none => node

/-! ## Edges that go back -/

/-- The loop over `visited`, which grows meanwhile but holds a node once. -/
def canReachFrom (target : NodeId) (edges : List WorkflowEdge) : Nat → Nat → List NodeId → Bool
  | 0, _, _ => false
  | steps + 1, i, visited =>
    match visited[i]? with
    | none => false
    | some id =>
      if id = target then true
      else
        canReachFrom target edges steps (i + 1) (edges.foldl (fun visited edge =>
          if edge.source = id ∧ edge.target ∉ visited then visited ++ [edge.target] else visited) visited)

def canReach (start target : NodeId) (edges : List WorkflowEdge) : Bool :=
  canReachFrom target edges (edges.length + 2) 0 [start]

/-- `byId.get(id) as WorkflowNode`; both ends of an edge are there. -/
def nodeOf (nodes : List WorkflowNode) (id : NodeId) : WorkflowNode :=
  (byId nodes id).getD (makeEndNode .completed false)

/-- A side path may rejoin to its left without repeating any work. -/
def markLoopbacks (nodes : List WorkflowNode) (edges : List WorkflowEdge) : List WorkflowEdge :=
  edges.map fun edge =>
    if (nodeOf nodes edge.target).column ≤ (nodeOf nodes edge.source).column ∧ canReach edge.target edge.source edges then
      { edge with kind := .loopback }
    else edge

/-! ## Columns and lanes -/

/-- Where tracks of these sizes start, one behind the other with a gap. -/
def trackStarts (gap : ℚ) : ℚ → List ℚ → List ℚ
  | _, [] => []
  | start, size :: sizes => start :: trackStarts gap (start + (size + gap)) sizes

/-- Where the next track would start. -/
def tracksEnd (gap start : ℚ) (sizes : List ℚ) : ℚ := start + (sizes.map (· + gap)).sum

def columnCount (nodes : List WorkflowNode) : ℕ := (nodes.map (·.column)).foldl max 0 + 1

def columnWidth (nodes : List WorkflowNode) (column : ℕ) : ℚ :=
  ((nodes.filter (·.column = column)).map (·.width)).foldl max 225

def columnWidths (nodes : List WorkflowNode) : List ℚ := (List.range (columnCount nodes)).map (columnWidth nodes)

def lanes (nodes : List WorkflowNode) : List ℤ := (nodes.map (·.lane)).eraseDups.mergeSort

def laneHeight (nodes : List WorkflowNode) (lane : ℤ) : ℚ :=
  ((nodes.filter (·.lane = lane)).map (·.height)).foldl max 130

def laneHeights (nodes : List WorkflowNode) : List ℚ := (lanes nodes).map (laneHeight nodes)

/-- Above the lanes there is a row for each edge that goes back. -/
def lanesTop (edges : List WorkflowEdge) : ℚ := 90 + (edges.filter (·.kind = .loopback)).length * 22

/-- The nodes with their positions. -/
def positionNodes (nodes : List WorkflowNode) (edges : List WorkflowEdge) : List WorkflowNode :=
  let columns := trackStarts 115 50 (columnWidths nodes)
  let laneCenters := (lanes nodes).zip
    (((trackStarts 85 (lanesTop edges) (laneHeights nodes)).zip (laneHeights nodes)).map fun (y, height) => y + height / 2)
  nodes.map fun node =>
    { node with
      x := columns.getD node.column 0 + ((columnWidths nodes).getD node.column 0 - node.width) / 2
      y := (laneCenters.lookup node.lane).getD 0 - node.height / 2 }

/-! ## Ports -/

/-- The sides of its nodes that an edge connects. -/
def sidesOf (kind : EdgeKind) (source target : WorkflowNode) : Side × Side :=
  if kind = .loopback then (.top, .top)
  else if source.column = target.column then if source.y < target.y then (.bottom, .top) else (.top, .bottom)
  else if source.lane = target.lane then (.right, .left)
  else if target.lane ≠ 0 ∧ source.lane = 0 then (if target.lane < source.lane then .top else .bottom, .left)
  else if source.lane ≠ 0 ∧ target.lane = 0 then
    if target.lane < source.lane then (.top, .bottom) else (.bottom, .top)
  else if target.column < source.column then (.left, .right) else (.right, .left)

def chooseSides (nodes : List WorkflowNode) (edges : List WorkflowEdge) : List WorkflowEdge :=
  edges.map fun edge =>
    let sides := sidesOf edge.kind (nodeOf nodes edge.source) (nodeOf nodes edge.target)
    { edge with sourceSide := sides.1, targetSide := sides.2 }

def isMain (mainPath : List NodeId) (edge : WorkflowEdge) : Bool :=
  edge.source ∈ mainPath ∧ mainPath[mainPath.idxOf edge.source + 1]? = some edge.target

/-- An end of an edge at a side of a node, and the node at the other end. -/
structure Peer where
  edge : WorkflowEdge
  source : Bool
  opposite : WorkflowNode

section Ports

variable (nodes : List WorkflowNode) (edges : List WorkflowEdge)

/-- The connections that share a side; repeats have ports of their own for the incoming ones. -/
def peersOf (node : WorkflowNode) (side : Side) (source : Bool) : List Peer :=
  edges.flatMap fun other =>
    (if other.source = node.id ∧ other.sourceSide = side ∧ (node.repetition.isNone ∨ source)
      then [⟨other, true, nodeOf nodes other.target⟩] else []) ++
    (if other.target = node.id ∧ other.targetSide = side ∧ (node.repetition.isNone ∨ !source)
      then [⟨other, false, nodeOf nodes other.source⟩] else [])

/-- The order of the connections of a side: by where they go, incoming ones first. -/
def peerBefore (horizontal : Bool) (a b : Peer) : Bool :=
  let middle := fun (node : WorkflowNode) => if horizontal then node.y + node.height / 2 else node.x + node.width / 2
  decide (middle a.opposite < middle b.opposite ∨ (middle a.opposite = middle b.opposite ∧ (a.source → b.source)))

/-- How far from the middle of its side a port may be. -/
def available (node : WorkflowNode) (horizontal source : Bool) : ℚ :=
  if horizontal then
    (match node.repetition with
      | some geometry => geometry.activity.height
      | none => node.height) / 2 - 16
  else if node.repetition.isSome then if source then 28 else 10
  else node.width / 2 - 52

/-- The offset of the connection at `index` among `count` around a center. -/
def spreadOf (available center : ℚ) (count index : ℕ) : ℚ :=
  (index - center) * min 32 (available / max 1 (max center (count - 1 - center)))

/-- `cx`, from the left border: repeats have their activity and their collector there. -/
def portMiddle (node : WorkflowNode) (edge : WorkflowEdge) (source : Bool) : ℚ :=
  if node.repetition.isSome then if source then 326 else 240
  else node.width / 2 + (if edge.source = edge.target then if source then 36 else -36 else 0)

def portAt (node : WorkflowNode) (middle spread : ℚ) : Side → Point
  | .left => ⟨node.x, node.y + node.height / 2 + spread⟩
  | .right => ⟨node.x + node.width, node.y + node.height / 2 + spread⟩
  | .top => ⟨node.x + middle + spread, node.y⟩
  | .bottom => ⟨node.x + middle + spread, node.y + node.height⟩

def port (mainPath : List NodeId) (edge : WorkflowEdge) (source : Bool) : Point :=
  let node := nodeOf nodes (if source then edge.source else edge.target)
  let side := if source then edge.sourceSide else edge.targetSide
  let horizontal : Bool := side = .left ∨ side = .right
  let peers := (peersOf nodes edges node side source).mergeSort (peerBefore horizontal)
  let center : ℚ := match peers.findIdx? fun peer => isMain mainPath peer.edge with
    | some primary => primary
    | none => ((peers.length : ℚ) - 1) / 2
  let index := peers.findIdx fun peer => peer.edge = edge ∧ peer.source = source
  let spread := spreadOf (available node horizontal source) center peers.length index
  portAt node (portMiddle node edge source) spread side

/-! ## Routes -/

/-- The row an edge prefers: its own above the lanes, or half way back to the main path. -/
def preferredYOf (edge : WorkflowEdge) (loopIndex : ℕ) (start finish : Point) : Option ℚ :=
  if edge.kind = .loopback then some (28 + loopIndex * 22)
  else if ((nodeOf nodes edge.source).lane ≠ 0 ∧ (nodeOf nodes edge.target).lane = 0) ∧
      (edge.sourceSide = .top ∨ edge.sourceSide = .bottom) ∧ (edge.targetSide = .top ∨ edge.targetSide = .bottom) then
    some ((start.y + finish.y) / 2)
  else none

/-- The loop over the edges, the main line first; the routed edges in that order. -/
def routeEdges (fuel : Nat) (mainPath : List NodeId) :
    List WorkflowEdge → ℕ → List (List Point) → Option (Except String (List WorkflowEdge))
  | [], _, _ => some (.ok [])
  | edge :: rest, loopIndex, routed =>
    let start := port nodes edges mainPath edge true
    let finish := port nodes edges mainPath edge false
    match route fuel (escapePort start edge.sourceSide) (escapePort finish edge.targetSide) nodes routed
        (preferredYOf nodes edge loopIndex start finish) with
    | none => none
    | some (.error message) => some (.error message)
    | some (.ok middle) =>
      let points := simplify (start :: middle ++ [finish])
      match routeEdges fuel mainPath rest (if edge.kind = .loopback then loopIndex + 1 else loopIndex) (routed ++ [points]) with
      | none => none
      | some (.error message) => some (.error message)
      | some (.ok edges) => some (.ok ({ edge with points, labelPosition := routeLabel points } :: edges))

end Ports

/-- Main-line edges get the unobstructed central ports before side routes. -/
def routingOrder (mainPath : List NodeId) (edges : List WorkflowEdge) : List WorkflowEdge :=
  edges.mergeSort fun a b => isMain mainPath b → isMain mainPath a

/-! ## The layout -/

section Stages

variable (flow : Flow) (spine : List String)

/-- The nodes with their cells. -/
def celledNodes : List WorkflowNode :=
  let nodes := makeNodes flow
  cellNodes nodes (placeNodes nodes (makeEdges flow nodes) (mainPathOf flow spine))

/-- The edges with their kinds. -/
def kindEdges : List WorkflowEdge := markLoopbacks (celledNodes flow spine) (makeEdges flow (makeNodes flow))

/-- The nodes with their positions. -/
def drawnNodes : List WorkflowNode := positionNodes (celledNodes flow spine) (kindEdges flow spine)

/-- The edges with their sides. -/
def sidedEdges : List WorkflowEdge := chooseSides (drawnNodes flow spine) (kindEdges flow spine)

end Stages

/-- `layoutWorkflow`, with the steps its searches may take; `none` is out of fuel. -/
def layoutWorkflow (fuel : Nat) (flow : Flow) : Option (Except String WorkflowLayout) :=
  match shortestSuccessfulPath fuel flow with
  | none => none
  | some spine =>
    let mainPath := mainPathOf flow spine
    let edges := sidedEdges flow spine
    let x := tracksEnd 115 50 (columnWidths (celledNodes flow spine))
    let y := tracksEnd 85 (lanesTop (kindEdges flow spine)) (laneHeights (celledNodes flow spine))
    match routeEdges (drawnNodes flow spine) edges fuel mainPath (routingOrder mainPath edges) 0 [] with
    | none => none
    | some (.error message) => some (.error message)
    | some (.ok routed) =>
      some (.ok {
        width := x - 65
        height := y - 35
        nodes := drawnNodes flow spine
        edges := edges.map fun edge => (routed.find? (·.index = edge.index)).getD edge
        mainPath })

end Leitwerk.WorkflowGraph
