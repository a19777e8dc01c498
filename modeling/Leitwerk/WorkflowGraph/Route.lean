import Leitwerk.WorkflowGraph.Flow
/-!
# Routes between two points

`route` tries the simple ways from one point to another and takes the best of
those that keep away from all nodes; where none does, `gridRoute` searches the
grid of all candidate lines.
-/

namespace Leitwerk.WorkflowGraph

inductive Side where
  | left | right | top | bottom
  deriving DecidableEq

/-- `escapePort`: a little off the border. -/
def escapePort (point : Point) (side : Side) : Point where
  x := point.x + (if side = .right then 20 else if side = .left then -20 else 0)
  y := point.y + (if side = .bottom then 20 else if side = .top then -20 else 0)

/-- One point of `simplify`; the points kept so far have the last one first. -/
def simplifyPoint : List Point → Point → List Point
  | [], point => [point]
  | [last], point => if last = point then [last] else [point, last]
  | last :: before :: result, point =>
    if last = point then last :: before :: result
    else if (before.x = last.x ∧ last.x = point.x) ∨ (before.y = last.y ∧ last.y = point.y) then point :: before :: result
    else point :: last :: before :: result

/-- `simplify`: no point twice in a row and none in the middle of a line. -/
def simplify (points : List Point) : List Point := (points.foldl simplifyPoint []).reverse

def strictBoundsOverlap (a b c d : Point) : Bool :=
  max a.x b.x > min c.x d.x && min a.x b.x < max c.x d.x && max a.y b.y > min c.y d.y && min a.y b.y < max c.y d.y

/-- A segment that keeps ten away from the nodes. -/
def clearSegment (a b : Point) (nodes : List WorkflowNode) : Bool :=
  !nodes.any fun node =>
    strictBoundsOverlap a b ⟨node.x - 10, node.y - 10⟩ ⟨node.x + node.width + 10, node.y + node.height + 10⟩

/-- The segments of a polyline. -/
def segments (points : List Point) : List (Point × Point) := points.zip points.tail

def length (a b : Point) : ℚ := |a.x - b.x| + |a.y - b.y|

/-- How bad a route is: its bends, its length and the routes it crosses. -/
def score (previous : List (List Point)) (points : List Point) : ℚ :=
  (segments points).foldl (fun sum segment =>
      let crossings := previous.foldl (fun count route =>
        count + ((segments route).filter fun other =>
          strictBoundsOverlap segment.1 segment.2 other.1 other.2).length) 0
      sum + length segment.1 segment.2 + crossings * 80)
    (points.length * 12)

/-! ## The grid -/

section Grid

variable (xs ys : List ℚ) (nodes : List WorkflowNode)

/-- `pointAt`; the index of a crossing is the pair of its column and its row. -/
def pointAt (index : ℕ × ℕ) : Point := ⟨xs.getD index.1 0, ys.getD index.2 0⟩

def indexOf (point : Point) : ℕ × ℕ := (xs.idxOf point.x, ys.idxOf point.y)

/-- The crossings left, right, above and below that are on the grid. -/
def around (index : ℕ × ℕ) : List (ℕ × ℕ) :=
  (if 0 < index.1 then [(index.1 - 1, index.2)] else []) ++
    (if index.1 + 1 < xs.length then [(index.1 + 1, index.2)] else []) ++
    (if 0 < index.2 then [(index.1, index.2 - 1)] else []) ++
    (if index.2 + 1 < ys.length then [(index.1, index.2 + 1)] else [])

/-- The crossings of the grid, and the clear steps between them. -/
def gridGraph (finish : Point) : Search.Graph (ℕ × ℕ) where
  vertices := (List.range xs.length).flatMap fun xi => (List.range ys.length).map fun yi => (xi, yi)
  neighbours index :=
    ((around xs ys index).filter fun next => clearSegment (pointAt xs ys index) (pointAt xs ys next) nodes).map
      fun next => (next, length (pointAt xs ys index) (pointAt xs ys next))
  estimate index := length (pointAt xs ys index) finish

end Grid

/-- `gridRoute`, with the steps its loop may take; `none` is out of fuel. -/
def gridRoute (fuel : Nat) (start finish : Point) (xs ys : List ℚ) (nodes : List WorkflowNode) :
    Option (Except String (List Point)) :=
  let xs := xs.mergeSort
  let ys := ys.mergeSort
  let first := indexOf xs ys start
  match Search.search (gridGraph xs ys nodes finish) first (indexOf xs ys finish) fuel (Search.start first) with
  | none => none
  | some none => some (.error "Workflow route has no clear corridor")
  | some (some way) => some (.ok (simplify (way.map (pointAt xs ys))))

/-! ## The choice of a route -/

/-- The columns and rows a route may take. -/
def routeXs (start finish : Point) (nodes : List WorkflowNode) : List ℚ :=
  (start.x :: finish.x :: nodes.flatMap fun node => [node.x - 25, node.x + node.width + 25]).eraseDups

def routeYs (start finish : Point) (nodes : List WorkflowNode) (preferredY : Option ℚ) : List ℚ :=
  (start.y :: finish.y :: preferredY.getD 28 ::
    nodes.flatMap fun node => [node.y - 25, node.y + node.height + 25]).eraseDups

/-- The ways of at most three segments. -/
def candidates (start finish : Point) (xs ys : List ℚ) : Option ℚ → List (List Point)
  | some y => [[start, ⟨start.x, y⟩, ⟨finish.x, y⟩, finish]]
  | none =>
    (if start.x = finish.x ∨ start.y = finish.y then [[start, finish]] else []) ++
      [[start, ⟨start.x, finish.y⟩, finish], [start, ⟨finish.x, start.y⟩, finish]] ++
      xs.map (fun x => [start, ⟨x, start.y⟩, ⟨x, finish.y⟩, finish]) ++
      ys.map fun y => [start, ⟨start.x, y⟩, ⟨finish.x, y⟩, finish]

def route (fuel : Nat) (start finish : Point) (nodes : List WorkflowNode) (previous : List (List Point))
    (preferredY : Option ℚ) : Option (Except String (List Point)) :=
  let xs := routeXs start finish nodes
  let ys := routeYs start finish nodes preferredY
  let legal := ((candidates start finish xs ys preferredY).map simplify).filter fun points =>
    (segments points).all fun segment => clearSegment segment.1 segment.2 nodes
  match legal.mergeSort fun a b => score previous a ≤ score previous b with
  | points :: _ => some (.ok points)
  | [] => gridRoute fuel start finish xs ys nodes

/-- `routeLabel`: beside the middle of the longest segment. -/
def routeLabel (points : List Point) : Point :=
  ((segments points).foldl (fun (found : ℚ × Point) segment =>
      let (a, b) := segment
      if length a b ≤ found.1 then found
      else (length a b, ⟨(a.x + b.x) / 2 + (if a.x = b.x then 44 else 0), (a.y + b.y) / 2 - (if a.y = b.y then 16 else 0)⟩))
    (-1, points.head?.getD ⟨0, 0⟩)).2

end Leitwerk.WorkflowGraph
