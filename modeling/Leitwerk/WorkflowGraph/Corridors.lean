import Leitwerk.WorkflowGraph.Routing
/-!
# Corridors between the columns and the lanes

Where nodes lie in columns and lanes with gaps between them, a route leaves any
border by its escape, reaches the line beside the largest node of that column or
lane, and from there every crossing of the clear lines: `route` finds a way
between any two ports.
-/

namespace Leitwerk.WorkflowGraph

open Tracks (Meets Tracked Exit)

/-- The nodes lie in columns and lanes, one in a cell. -/
structure Arranged (nodes : List WorkflowNode) : Prop where
  columns : Tracked 115 nodes (·.column) (·.x) (·.width)
  lanes : Tracked 85 nodes (·.lane) (·.y) (·.height)
  cells : ∀ m ∈ nodes, ∀ n ∈ nodes, m.column = n.column → m.lane = n.lane → m = n

/-- A point of one side of a node's border. -/
def OnSide : Side → WorkflowNode → Point → Prop
  | .left, node, point => point.x = node.x ∧ node.y ≤ point.y ∧ point.y ≤ node.y + node.height
  | .right, node, point => point.x = node.x + node.width ∧ node.y ≤ point.y ∧ point.y ≤ node.y + node.height
  | .top, node, point => point.y = node.y ∧ node.x ≤ point.x ∧ point.x ≤ node.x + node.width
  | .bottom, node, point => point.y = node.y + node.height ∧ node.x ≤ point.x ∧ point.x ≤ node.x + node.width

def ClearRow (nodes : List WorkflowNode) (y : ℚ) : Prop :=
  ∀ node ∈ nodes, ¬ Meets y y (node.y - 10) (node.y + node.height + 10)

def ClearColumn (nodes : List WorkflowNode) (x : ℚ) : Prop :=
  ∀ node ∈ nodes, ¬ Meets x x (node.x - 10) (node.x + node.width + 10)

/-- The lines beside all nodes are among the lines of the grid. -/
structure Lined (xs ys : List ℚ) (nodes : List WorkflowNode) : Prop where
  left : ∀ node ∈ nodes, node.x - 25 ∈ xs
  right : ∀ node ∈ nodes, node.x + node.width + 25 ∈ xs
  above : ∀ node ∈ nodes, node.y - 25 ∈ ys
  below : ∀ node ∈ nodes, node.y + node.height + 25 ∈ ys

/-- An open segment leads from the point to a clear line of the grid. -/
def Leads (xs ys : List ℚ) (nodes : List WorkflowNode) (point : Point) : Prop :=
  (∃ y ∈ ys, Avoids 10 nodes point ⟨point.x, y⟩ ∧ ClearRow nodes y) ∨
    ∃ x ∈ xs, Avoids 10 nodes point ⟨x, point.y⟩ ∧ ClearColumn nodes x

section Exits

variable {ι : Type} [LinearOrder ι] {gap : ℚ} {nodes : List WorkflowNode} {track : WorkflowNode → ι}
  {low size : WorkflowNode → ℚ} {node : WorkflowNode}

/-- An escape of 20 and a line at 25 keep the margin of 10 where the gaps are wide enough. -/
theorem exit_low (h : Tracked gap nodes track low size) (hgap : 35 ≤ gap) (hnode : node ∈ nodes) :
    ∃ t ∈ nodes, Exit nodes track low size 10 node (low node) (low node - 20) (low t - 25) :=
  h.exit_low 10 20 25 (by norm_num) (by norm_num) (by norm_num) (by linarith) (by norm_num) hnode

theorem exit_high (h : Tracked gap nodes track low size) (hgap : 35 ≤ gap) (hnode : node ∈ nodes) :
    ∃ t ∈ nodes,
      Exit nodes track low size 10 node (low node + size node) (low node + size node + 20) (low t + size t + 25) :=
  h.exit_high 10 20 25 (by norm_num) (by norm_num) (by norm_num) (by linarith) (by norm_num) hnode

end Exits

section Escapes

variable {nodes : List WorkflowNode} {node : WorkflowNode} {xs ys : List ℚ}

theorem Arranged.positive (h : Arranged nodes) : ∀ node ∈ nodes, 0 < node.width ∧ 0 < node.height :=
  fun node hnode => ⟨h.columns.positive node hnode, h.lanes.positive node hnode⟩

theorem Arranged.sized (h : Arranged nodes) : Sized nodes :=
  fun node hnode => (h.positive node hnode).imp le_of_lt le_of_lt

theorem Arranged.interior (h : Arranged nodes) : Interior 0 nodes := by
  intro node hnode
  simpa using h.positive node hnode

/-- An exit of the node's lane, at a place beside the node. -/
theorem Arranged.vertical_exit (h : Arranged nodes) (hnode : node ∈ nodes) {border escape line x : ℚ}
    (hexit : Exit nodes (·.lane) (·.y) (·.height) 10 node border escape line) (hlow : node.x ≤ x) (hhigh : x ≤ node.x + node.width) :
    Avoids 0 nodes ⟨x, border⟩ ⟨x, escape⟩ ∧ Avoids 10 nodes ⟨x, escape⟩ ⟨x, line⟩ ∧ ClearRow nodes line := by
  have hother : ∀ m ∈ nodes, m.column = node.column → (m.lane ≠ node.lane ∨ m = node) := by
    intro m hm hcolumn
    by_cases hlane : m.lane = node.lane
    · exact .inr (h.cells m hm node hnode hcolumn hlane)
    · exact .inl hlane
  refine ⟨fun m hm henters => ?_, fun m hm henters => ?_, hexit.line⟩
  · by_cases hcolumn : m.column = node.column
    · refine hexit.stub m hm (hother m hm hcolumn) ?_
      simpa using henters.2
    · exact h.columns.beside hm hnode hcolumn (by norm_num) hlow hhigh henters.1
  · by_cases hcolumn : m.column = node.column
    · exact hexit.lead m hm (hother m hm hcolumn) henters.2
    · exact h.columns.beside hm hnode hcolumn (by norm_num) hlow hhigh henters.1

/-- An exit of the node's column, at a height beside the node. -/
theorem Arranged.horizontal_exit (h : Arranged nodes) (hnode : node ∈ nodes) {border escape line y : ℚ}
    (hexit : Exit nodes (·.column) (·.x) (·.width) 10 node border escape line) (hlow : node.y ≤ y)
    (hhigh : y ≤ node.y + node.height) :
    Avoids 0 nodes ⟨border, y⟩ ⟨escape, y⟩ ∧ Avoids 10 nodes ⟨escape, y⟩ ⟨line, y⟩ ∧ ClearColumn nodes line := by
  have hother : ∀ m ∈ nodes, m.lane = node.lane → (m.column ≠ node.column ∨ m = node) := by
    intro m hm hlane
    by_cases hcolumn : m.column = node.column
    · exact .inr (h.cells m hm node hnode hcolumn hlane)
    · exact .inl hcolumn
  refine ⟨fun m hm henters => ?_, fun m hm henters => ?_, hexit.line⟩
  · by_cases hlane : m.lane = node.lane
    · refine hexit.stub m hm (hother m hm hlane) ?_
      simpa using henters.1
    · exact h.lanes.beside hm hnode hlane (by norm_num) hlow hhigh henters.2
  · by_cases hlane : m.lane = node.lane
    · exact hexit.lead m hm (hother m hm hlane) henters.1
    · exact h.lanes.beside hm hnode hlane (by norm_num) hlow hhigh henters.2

/-- From any border the escape meets no node, and leads to a corridor. -/
theorem Arranged.escapePort_spec (h : Arranged nodes) (hlined : Lined xs ys nodes) (hnode : node ∈ nodes) {side : Side}
    {point : Point} (hside : OnSide side node point) :
    Open 0 nodes point (escapePort point side) ∧ Leads xs ys nodes (escapePort point side) := by
  obtain ⟨px, py⟩ := point
  cases side with
  | left =>
    obtain ⟨rfl, hlow, hhigh⟩ := hside
    obtain ⟨t, ht, hexit⟩ := exit_low h.columns (by norm_num) hnode
    obtain ⟨hstub, hlead, hclear⟩ := h.horizontal_exit hnode hexit hlow hhigh
    have hescape : escapePort ⟨node.x, py⟩ .left = ⟨node.x - 20, py⟩ := by simp [escapePort, sub_eq_add_neg]
    rw [hescape]
    exact ⟨⟨.inr rfl, hstub⟩, .inr ⟨_, hlined.left t ht, hlead, hclear⟩⟩
  | right =>
    obtain ⟨rfl, hlow, hhigh⟩ := hside
    obtain ⟨t, ht, hexit⟩ := exit_high h.columns (by norm_num) hnode
    obtain ⟨hstub, hlead, hclear⟩ := h.horizontal_exit hnode hexit hlow hhigh
    have hescape : escapePort ⟨node.x + node.width, py⟩ .right = ⟨node.x + node.width + 20, py⟩ := by simp [escapePort]
    rw [hescape]
    exact ⟨⟨.inr rfl, hstub⟩, .inr ⟨_, hlined.right t ht, hlead, hclear⟩⟩
  | top =>
    obtain ⟨rfl, hlow, hhigh⟩ := hside
    obtain ⟨t, ht, hexit⟩ := exit_low h.lanes (by norm_num) hnode
    obtain ⟨hstub, hlead, hclear⟩ := h.vertical_exit hnode hexit hlow hhigh
    have hescape : escapePort ⟨px, node.y⟩ .top = ⟨px, node.y - 20⟩ := by simp [escapePort, sub_eq_add_neg]
    rw [hescape]
    exact ⟨⟨.inl rfl, hstub⟩, .inl ⟨_, hlined.above t ht, hlead, hclear⟩⟩
  | bottom =>
    obtain ⟨rfl, hlow, hhigh⟩ := hside
    obtain ⟨t, ht, hexit⟩ := exit_high h.lanes (by norm_num) hnode
    obtain ⟨hstub, hlead, hclear⟩ := h.vertical_exit hnode hexit hlow hhigh
    have hescape : escapePort ⟨px, node.y + node.height⟩ .bottom = ⟨px, node.y + node.height + 20⟩ := by simp [escapePort]
    rw [hescape]
    exact ⟨⟨.inl rfl, hstub⟩, .inl ⟨_, hlined.below t ht, hlead, hclear⟩⟩

end Escapes

section Crossings

variable {nodes : List WorkflowNode} {xs ys : List ℚ}

theorem ClearRow.avoids {y a b : ℚ} (h : ClearRow nodes y) : Avoids 10 nodes ⟨a, y⟩ ⟨b, y⟩ :=
  fun node hnode henters => h node hnode henters.2

theorem ClearColumn.avoids {x a b : ℚ} (h : ClearColumn nodes x) : Avoids 10 nodes ⟨x, a⟩ ⟨x, b⟩ :=
  fun node hnode henters => h node hnode henters.1

/-- From a corridor a walk leads to any crossing of clear lines. -/
theorem Leads.walk {point : Point} (hgrid : OnGrid xs ys point) (h : Leads xs ys nodes point) {x y : ℚ} (hx : x ∈ xs) (hy : y ∈ ys)
    (hcolumn : ClearColumn nodes x) (hrow : ClearRow nodes y) :
    Relation.ReflTransGen (Walk xs ys nodes) point ⟨x, y⟩ := by
  rcases h with ⟨y', hy', hlead, hclear⟩ | ⟨x', hx', hlead, hclear⟩
  · have hfirst : Walk xs ys nodes point ⟨point.x, y'⟩ := ⟨hgrid, ⟨hgrid.1, hy'⟩, .inl rfl, hlead⟩
    have hsecond : Walk xs ys nodes ⟨point.x, y'⟩ ⟨x, y'⟩ := ⟨⟨hgrid.1, hy'⟩, ⟨hx, hy'⟩, .inr rfl, hclear.avoids⟩
    have hthird : Walk xs ys nodes ⟨x, y'⟩ ⟨x, y⟩ := ⟨⟨hx, hy'⟩, ⟨hx, hy⟩, .inl rfl, hcolumn.avoids⟩
    exact ((Relation.ReflTransGen.single hfirst).tail hsecond).tail hthird
  · have hfirst : Walk xs ys nodes point ⟨x', point.y⟩ := ⟨hgrid, ⟨hx', hgrid.2⟩, .inr rfl, hlead⟩
    have hsecond : Walk xs ys nodes ⟨x', point.y⟩ ⟨x', y⟩ := ⟨⟨hx', hgrid.2⟩, ⟨hx', hy⟩, .inl rfl, hclear.avoids⟩
    have hthird : Walk xs ys nodes ⟨x', y⟩ ⟨x, y⟩ := ⟨⟨hx', hy⟩, ⟨hx, hy⟩, .inr rfl, hrow.avoids⟩
    exact ((Relation.ReflTransGen.single hfirst).tail hsecond).tail hthird

/-- Two points that lead to corridors are joined by a walk, once there is a node. -/
theorem Arranged.walk (h : Arranged nodes) (hlined : Lined xs ys nodes) {node : WorkflowNode} (hnode : node ∈ nodes)
    {start finish : Point} (hstart : OnGrid xs ys start) (hfinish : OnGrid xs ys finish) (hs : Leads xs ys nodes start)
    (hf : Leads xs ys nodes finish) : Relation.ReflTransGen (Walk xs ys nodes) start finish := by
  obtain ⟨t, ht, hcolumn⟩ := exit_low h.columns (by norm_num) hnode
  obtain ⟨u, hu, hrow⟩ := exit_low h.lanes (by norm_num) hnode
  have hfrom := hs.walk hstart (hlined.left t ht) (hlined.above u hu) hcolumn.line hrow.line
  have hto := hf.walk hfinish (hlined.left t ht) (hlined.above u hu) hcolumn.line hrow.line
  have hsymm : Std.Symm (Walk xs ys nodes) := ⟨fun _ _ hab => hab.symm⟩
  exact hfrom.trans (Relation.ReflTransGen.stdSymm.symm _ _ hto)

theorem lined_route (start finish : Point) (nodes : List WorkflowNode) (preferredY : Option ℚ) :
    Lined (routeXs start finish nodes) (routeYs start finish nodes preferredY) nodes := by
  constructor
  · intro node hnode
    simp only [routeXs, List.mem_eraseDups, List.mem_cons, List.mem_flatMap]
    exact .inr (.inr ⟨node, hnode, .inl rfl⟩)
  · intro node hnode
    simp only [routeXs, List.mem_eraseDups, List.mem_cons, List.mem_flatMap]
    exact .inr (.inr ⟨node, hnode, .inr (.inl rfl)⟩)
  · intro node hnode
    simp only [routeYs, List.mem_eraseDups, List.mem_cons, List.mem_flatMap]
    exact .inr (.inr (.inr ⟨node, hnode, .inl rfl⟩))
  · intro node hnode
    simp only [routeYs, List.mem_eraseDups, List.mem_cons, List.mem_flatMap]
    exact .inr (.inr (.inr ⟨node, hnode, .inr (.inl rfl)⟩))

end Crossings

/-- Between any two ports a route is found whose segments, stubs included, enter no node's box. -/
theorem Arranged.route_ports {nodes : List WorkflowNode} (h : Arranged nodes) {source target : WorkflowNode}
    (hsource : source ∈ nodes) (htarget : target ∈ nodes) {side side' : Side} {start finish : Point}
    (hstart : OnSide side source start) (hfinish : OnSide side' target finish) (previous : List (List Point))
    (preferredY : Option ℚ) :
    ∃ n middle,
      (∀ m, n ≤ m → route m (escapePort start side) (escapePort finish side') nodes previous preferredY = some (.ok middle)) ∧
      IsRoute 10 nodes (escapePort start side) (escapePort finish side') middle ∧
      IsRoute 0 nodes start finish (simplify (start :: middle ++ [finish])) := by
  have hlined := lined_route (escapePort start side) (escapePort finish side') nodes preferredY
  obtain ⟨hstub, hleads⟩ := h.escapePort_spec hlined hsource hstart
  obtain ⟨hstub', hleads'⟩ := h.escapePort_spec hlined htarget hfinish
  have hwalk := h.walk hlined hsource ⟨by simp [routeXs], by simp [routeYs]⟩ ⟨by simp [routeXs], by simp [routeYs]⟩ hleads hleads'
  obtain ⟨n, middle, hroute, hmiddle⟩ := route_spec h.sized previous preferredY hwalk
  have hlast : (start :: middle ++ [finish]).getLast? = some finish := by
    rw [List.getLast?_append]
    rfl
  refine ⟨n, middle, hroute, hmiddle, IsRoute.simplify h.interior ⟨?_, by simp, hlast⟩⟩
  have hinner : middle.IsChain (Open 0 nodes) := hmiddle.chain.imp fun a b hab => ⟨hab.1, hab.2.of_le (by norm_num)⟩
  rw [List.cons_append, List.isChain_cons]
  constructor
  · intro b hb
    obtain ⟨rest, rfl⟩ := List.head?_eq_some_iff.1 hmiddle.head
    obtain rfl : escapePort start side = b := by simpa using hb
    exact hstub
  · refine List.isChain_append.2 ⟨hinner, List.isChain_singleton _, fun a ha b hb => ?_⟩
    rw [hmiddle.last] at ha
    obtain rfl : escapePort finish side' = a := by simpa using ha
    obtain rfl : finish = b := by simpa using hb
    exact hstub'.symm

end Leitwerk.WorkflowGraph
