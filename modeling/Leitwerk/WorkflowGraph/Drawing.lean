import Leitwerk.WorkflowGraph.Positions
/-!
# Every process flow can be drawn

The ports of a side stay within it, however many connections share it. So every
edge has a route between the borders of its nodes, and `layoutWorkflow` draws
every flow whose turns have ids of their own.
-/

namespace Leitwerk.WorkflowGraph

/-! ## Ports -/

/-- The spread of the connections of a side stays within what is available. -/
theorem abs_spreadOf_le {available center : ℚ} {count index : ℕ} (havailable : 0 ≤ available) (hindex : index < count) :
    |spreadOf available center count index| ≤ available := by
  have hcount : (index : ℚ) ≤ count - 1 := by
    have hle : (index + 1 : ℚ) ≤ count := by exact_mod_cast hindex
    linarith
  have hpos : (0 : ℚ) ≤ index := Nat.cast_nonneg _
  generalize hlargest : max 1 (max center ((count : ℚ) - 1 - center)) = largest
  have hone : 1 ≤ largest := hlargest ▸ le_max_left _ _
  have hcenter : center ≤ largest := hlargest ▸ le_max_of_le_right (le_max_left _ _)
  have hrest : (count : ℚ) - 1 - center ≤ largest := hlargest ▸ le_max_of_le_right (le_max_right _ _)
  have hoffset : |(index : ℚ) - center| ≤ largest := abs_le.2 ⟨by linarith, by linarith⟩
  have hspacing : 0 ≤ min 32 (available / largest) := le_min (by norm_num) (div_nonneg havailable (by linarith))
  unfold spreadOf
  rw [hlargest, abs_mul, abs_of_nonneg hspacing]
  calc |(index : ℚ) - center| * min 32 (available / largest) ≤ largest * (available / largest) :=
        mul_le_mul hoffset (min_le_right _ _) hspacing (by linarith)
    _ = available := mul_div_cancel₀ _ (by linarith)

section Ports

variable {nodes : List WorkflowNode} {edges : List WorkflowEdge} {node : WorkflowNode}

theorem available_horizontal (h : NodeSizes node) (source : Bool) :
    0 ≤ available node true source ∧ available node true source ≤ node.height / 2 := by
  have hheight := h.height
  cases hrepetition : node.repetition with
  | none =>
    simp only [available, hrepetition, if_true]
    constructor <;> linarith
  | some geometry =>
    obtain ⟨-, hlow, hhigh⟩ := h.repeated geometry hrepetition
    simp only [available, hrepetition, if_true]
    constructor <;> linarith

/-- An end of an edge is among the connections of its side. -/
theorem peer_index_lt {edge : WorkflowEdge} (hedge : edge ∈ edges) (source : Bool)
    (hid : node.id = if source then edge.source else edge.target) (le : Peer → Peer → Bool) :
    ((peersOf nodes edges node (if source then edge.sourceSide else edge.targetSide) source).mergeSort le).findIdx
        (fun peer => peer.edge = edge ∧ peer.source = source) <
      ((peersOf nodes edges node (if source then edge.sourceSide else edge.targetSide) source).mergeSort le).length := by
  apply List.findIdx_lt_length_of_exists
  cases source with
  | true =>
    refine ⟨⟨edge, true, nodeOf nodes edge.target⟩, List.mem_mergeSort.2 (List.mem_flatMap.2 ⟨edge, hedge, ?_⟩), by simp⟩
    apply List.mem_append_left
    simp_all
  | false =>
    refine ⟨⟨edge, false, nodeOf nodes edge.source⟩, List.mem_mergeSort.2 (List.mem_flatMap.2 ⟨edge, hedge, ?_⟩), by simp⟩
    apply List.mem_append_right
    simp_all

theorem available_vertical (h : NodeSizes node) (source : Bool) : 0 ≤ available node false source := by
  have hwidth := h.width
  cases hrepetition : node.repetition with
  | none =>
    simp only [available, hrepetition, Bool.false_eq_true, if_false, Option.isSome_none]
    linarith
  | some geometry => cases source <;> simp [available, hrepetition]

/-- A port is the middle of its side, moved by no more than what is available. -/
theorem port_eq {edge : WorkflowEdge} (hedge : edge ∈ edges) (mainPath : List NodeId) (source : Bool)
    (hnode : nodeOf nodes (if source then edge.source else edge.target) = node)
    (hid : node.id = if source then edge.source else edge.target) (hsizes : NodeSizes node) {side : Side}
    (hside : (if source then edge.sourceSide else edge.targetSide) = side) :
    ∃ spread, |spread| ≤ available node (decide (side = .left ∨ side = .right)) source ∧
      port nodes edges mainPath edge source = portAt node (portMiddle node edge source) spread side := by
  have hindex := @peer_index_lt nodes edges node edge hedge source hid
  have havailable : ∀ horizontal, 0 ≤ available node horizontal source := by
    intro horizontal
    cases horizontal with
    | false => exact available_vertical hsizes source
    | true => exact (available_horizontal hsizes source).1
  unfold port
  rw [hnode]
  rw [hside] at hindex ⊢
  exact ⟨_, abs_spreadOf_le (havailable _) (hindex _), rfl⟩

/-- Above and below, what is available leaves the corners out. -/
theorem portMiddle_spread (hsizes : NodeSizes node) (edge : WorkflowEdge) (source : Bool) {spread : ℚ}
    (hspread : |spread| ≤ available node false source) :
    0 ≤ portMiddle node edge source + spread ∧ portMiddle node edge source + spread ≤ node.width := by
  have hwidth := hsizes.width
  obtain ⟨hlow, hhigh⟩ := abs_le.1 hspread
  cases hrepetition : node.repetition with
  | none =>
    simp only [available, portMiddle, hrepetition, Option.isSome_none, Bool.false_eq_true, if_false] at hlow hhigh ⊢
    split
    · split <;> constructor <;> linarith
    · constructor <;> linarith
  | some geometry =>
    obtain ⟨hrepeated, -, -⟩ := hsizes.repeated geometry hrepetition
    rw [hrepeated]
    simp only [available, portMiddle, hrepetition, Option.isSome_some, Bool.false_eq_true, if_false, if_true] at hlow hhigh ⊢
    cases source with
    | true =>
      simp only [if_true] at hlow hhigh ⊢
      constructor <;> linarith
    | false =>
      simp only [Bool.false_eq_true, if_false] at hlow hhigh ⊢
      constructor <;> linarith

/-- The port of an edge lies on the side of its node. -/
theorem port_onSide {edge : WorkflowEdge} (hedge : edge ∈ edges) (mainPath : List NodeId) (source : Bool)
    (hnode : nodeOf nodes (if source then edge.source else edge.target) = node)
    (hid : node.id = if source then edge.source else edge.target) (hsizes : NodeSizes node) :
    OnSide (if source then edge.sourceSide else edge.targetSide) node (port nodes edges mainPath edge source) := by
  obtain ⟨spread, hspread, hport⟩ := port_eq hedge mainPath source hnode hid hsizes rfl
  generalize (if source then edge.sourceSide else edge.targetSide) = side at hspread hport ⊢
  rw [hport]
  have havailable := (available_horizontal hsizes source).2
  cases side with
  | left =>
    obtain ⟨hlow, hhigh⟩ := abs_le.1 hspread
    simp only [true_or, decide_true] at hlow hhigh
    exact ⟨rfl, by simp only [portAt]; linarith, by simp only [portAt]; linarith⟩
  | right =>
    obtain ⟨hlow, hhigh⟩ := abs_le.1 hspread
    simp only [or_true, decide_true] at hlow hhigh
    exact ⟨rfl, by simp only [portAt]; linarith, by simp only [portAt]; linarith⟩
  | top =>
    obtain ⟨hlow, hhigh⟩ := portMiddle_spread hsizes edge source hspread
    exact ⟨rfl, by simp only [portAt]; linarith, by simp only [portAt]; linarith⟩
  | bottom =>
    obtain ⟨hlow, hhigh⟩ := portMiddle_spread hsizes edge source hspread
    exact ⟨rfl, by simp only [portAt]; linarith, by simp only [portAt]; linarith⟩

end Ports

/-! ## Edges -/

/-- What an edge leads to, if that is known. -/
def knownTarget (flow : Flow) (edge : FlowEdge) : Option NodeId :=
  match edge.target with
  | some turn => if turn ∈ flow.turnIds then some (.turnId turn) else none
  | none => edge.lifecycleStatus.map .endId

/-- The declared edges with a known target: their ids and ends. -/
def declaredRoutes (flow : Flow) : List (String × NodeId × NodeId) :=
  flow.edges.zipIdx.filterMap fun (edge, index) =>
    (knownTarget flow edge).map fun target => ("route-" ++ toString index, .turnId edge.source, target)

def WorkflowEdge.ends (edge : WorkflowEdge) : String × NodeId × NodeId := (edge.id, edge.source, edge.target)

theorem mem_makeEdges {flow : Flow} {nodes : List WorkflowNode} {edge : WorkflowEdge} (h : edge ∈ makeEdges flow nodes) :
    ∃ declared, flow.edges[edge.index]? = some declared ∧ targetOf declared = some edge.target ∧
      edge.source = .turnId declared.source ∧ edge.source ∈ nodes.map (·.id) ∧ edge.target ∈ nodes.map (·.id) ∧
      edge = { edge with
        label := declared.label, kind := declared.kind, points := [], labelPosition := ⟨0, 0⟩, sourceSide := .right, targetSide := .left } := by
  obtain ⟨⟨declared, index⟩, hmem, hsome⟩ := List.mem_filterMap.1 h
  dsimp only at hsome
  cases htarget : targetOf declared with
  | none => simp [htarget] at hsome
  | some target =>
    rw [htarget] at hsome
    dsimp only at hsome
    split at hsome
    · rename_i hboth
      cases hsome
      exact ⟨declared, List.mk_mem_zipIdx_iff_getElem?.1 hmem, htarget, rfl, byId_isSome.1 hboth.1, byId_isSome.1 hboth.2, rfl⟩
    · cases hsome

/-- Edges of one index are one edge. -/
theorem makeEdges_index {flow : Flow} {nodes : List WorkflowNode} {a b : WorkflowEdge} (ha : a ∈ makeEdges flow nodes)
    (hb : b ∈ makeEdges flow nodes) (h : a.index = b.index) : a = b := by
  obtain ⟨declared, hdeclared, htarget, hsource, -, -, heq⟩ := mem_makeEdges ha
  obtain ⟨declared', hdeclared', htarget', hsource', -, -, heq'⟩ := mem_makeEdges hb
  rw [h, hdeclared'] at hdeclared
  cases hdeclared
  rw [htarget'] at htarget
  rw [heq, heq', h, hsource, hsource', Option.some.inj htarget]

theorem makeEdges_ends {flow : Flow} (hedges : ∀ edge ∈ flow.edges, edge.source ∈ flow.turnIds) :
    (makeEdges flow (makeNodes flow)).map (·.ends) = declaredRoutes flow := by
  rw [makeEdges, List.map_filterMap, declaredRoutes]
  refine List.filterMap_congr fun row hrow => ?_
  obtain ⟨edge, index⟩ := row
  have hedge : edge ∈ flow.edges := List.mem_of_getElem? (List.mk_mem_zipIdx_iff_getElem?.1 hrow)
  have hsource : (byId (makeNodes flow) (.turnId edge.source)).isSome :=
    byId_isSome.2 (turnId_mem_makeNodes.2 (hedges edge hedge))
  dsimp only
  cases htarget : edge.target with
  | some turn =>
    by_cases hturn : turn ∈ flow.turnIds
    · have hknown : (byId (makeNodes flow) (.turnId turn)).isSome := byId_isSome.2 (turnId_mem_makeNodes.2 hturn)
      simp [targetOf, knownTarget, htarget, hturn, hsource, hknown, WorkflowEdge.ends, WorkflowEdge.id]
    · have hunknown : ¬ (byId (makeNodes flow) (.turnId turn)).isSome :=
        fun h => hturn (turnId_mem_makeNodes.1 (byId_isSome.1 h))
      simp [targetOf, knownTarget, htarget, hturn, hunknown]
  | none =>
    cases hstatus : edge.lifecycleStatus with
    | none => simp [targetOf, knownTarget, htarget, hstatus]
    | some status =>
      have hknown : (byId (makeNodes flow) (.endId status)).isSome := byId_isSome.2 (endId_mem_makeNodes hedge hstatus)
      simp [targetOf, knownTarget, htarget, hstatus, hsource, hknown, WorkflowEdge.ends, WorkflowEdge.id]

/-- An edge with a polyline of straight segments between the borders of its nodes that enters no node's box. -/
def DrawnEdge (nodes : List WorkflowNode) (edge : WorkflowEdge) : Prop :=
  ∃ source ∈ nodes, ∃ target ∈ nodes, source.id = edge.source ∧ target.id = edge.target ∧
    ∃ start finish, OnSide edge.sourceSide source start ∧ OnSide edge.targetSide target finish ∧
      IsRoute 0 nodes start finish edge.points

section Routing

variable {nodes : List WorkflowNode} {edges : List WorkflowEdge}

/-- All edges get a route, one after the other. -/
theorem routeEdges_spec (harranged : Arranged nodes) (hsizes : ∀ node ∈ nodes, NodeSizes node)
    (hends : ∀ edge ∈ edges, edge.source ∈ nodes.map (·.id) ∧ edge.target ∈ nodes.map (·.id)) (mainPath : List NodeId)
    (rest : List WorkflowEdge) (hsub : rest ⊆ edges) (loopIndex : ℕ) (routed : List (List Point)) :
    ∃ n out, (∀ m, n ≤ m → routeEdges nodes edges m mainPath rest loopIndex routed = some (.ok out)) ∧
      (∀ edge ∈ rest, ∃ drawn ∈ out, drawn.index = edge.index) ∧
      ∀ drawn ∈ out, ∃ edge ∈ rest, drawn.index = edge.index ∧ drawn.ends = edge.ends ∧ DrawnEdge nodes drawn := by
  induction rest generalizing loopIndex routed with
  | nil => exact ⟨0, [], fun _ _ => rfl, by simp, by simp⟩
  | cons edge rest ih =>
    obtain ⟨hedge, hrest⟩ := List.cons_subset.1 hsub
    obtain ⟨hsource, hsourceId⟩ := nodeOf_spec (hends edge hedge).1
    obtain ⟨htarget, htargetId⟩ := nodeOf_spec (hends edge hedge).2
    have hstart := port_onSide hedge mainPath true rfl hsourceId (hsizes _ hsource)
    have hfinish := port_onSide hedge mainPath false rfl htargetId (hsizes _ htarget)
    obtain ⟨n, middle, hroute, -, hpoints⟩ := harranged.route_ports hsource htarget hstart hfinish routed
      (preferredYOf nodes edge loopIndex (port nodes edges mainPath edge true) (port nodes edges mainPath edge false))
    let points := simplify (port nodes edges mainPath edge true :: middle ++ [port nodes edges mainPath edge false])
    obtain ⟨n', out, hout, hfound, hdrawn⟩ :=
      ih hrest (if edge.kind = .loopback then loopIndex + 1 else loopIndex) (routed ++ [points])
    refine ⟨max n n', { edge with points := points, labelPosition := routeLabel points } :: out, fun m hm => ?_,
      fun other hother => ?_, fun drawn hmem => ?_⟩
    · have hroute' := hroute m (le_trans (le_max_left _ _) hm)
      have hout' := hout m (le_trans (le_max_right _ _) hm)
      simp only [if_true, Bool.false_eq_true, if_false] at hroute'
      rw [routeEdges]
      dsimp only
      rw [hroute']
      dsimp only
      rw [hout']
    · rcases List.mem_cons.1 hother with rfl | hother
      · exact ⟨_, List.mem_cons_self, rfl⟩
      · obtain ⟨drawn, hmem, hindex⟩ := hfound other hother
        exact ⟨drawn, List.mem_cons_of_mem _ hmem, hindex⟩
    · rcases List.mem_cons.1 hmem with rfl | hmem
      · exact ⟨edge, List.mem_cons_self, rfl, rfl, _, hsource, _, htarget, hsourceId, htargetId, _, _, hstart, hfinish, hpoints⟩
      · obtain ⟨other, hother, hspec⟩ := hdrawn drawn hmem
        exact ⟨other, List.mem_cons_of_mem _ hother, hspec⟩

end Routing

/-! ## The drawing -/

/-- Two boxes with a gap between them. -/
def Apart (m n : WorkflowNode) : Prop :=
  m.x + m.width < n.x ∨ n.x + n.width < m.x ∨ m.y + m.height < n.y ∨ n.y + n.height < m.y

/-- What a layout of a flow has to be. -/
structure Drawn (flow : Flow) (layout : WorkflowLayout) : Prop where
  turns : ∀ turn ∈ flow.turnIds, .turnId turn ∈ layout.nodes.map (·.id)
  cells : layout.nodes.Pairwise fun m n => (m.column, m.lane) ≠ (n.column, n.lane)
  sized : ∀ node ∈ layout.nodes, 0 < node.width ∧ 0 < node.height
  boxes : layout.nodes.Pairwise Apart
  inside : ∀ node ∈ layout.nodes,
    0 ≤ node.x ∧ node.x + node.width ≤ layout.width ∧ 0 ≤ node.y ∧ node.y + node.height ≤ layout.height
  mainPath : ∀ (i : ℕ) id, layout.mainPath[i]? = some id → ∃ node ∈ layout.nodes, node.id = id ∧ node.lane = 0 ∧ node.column = i
  edges : layout.edges.map (·.ends) = declaredRoutes flow
  routed : ∀ edge ∈ layout.edges, DrawnEdge layout.nodes edge

theorem Arranged.apart {nodes : List WorkflowNode} (h : Arranged nodes) {m n : WorkflowNode} (hm : m ∈ nodes) (hn : n ∈ nodes)
    (hne : m ≠ n) : Apart m n := by
  rcases lt_trichotomy m.column n.column with hlt | heq | hlt
  · have hapart := h.columns.apart m hm n hn hlt
    exact .inl (by linarith)
  · rcases lt_trichotomy m.lane n.lane with hlt | heq' | hlt
    · have hapart := h.lanes.apart m hm n hn hlt
      exact .inr (.inr (.inl (by linarith)))
    · exact absurd (h.cells m hm n hn heq heq') hne
    · have hapart := h.lanes.apart n hn m hm hlt
      exact .inr (.inr (.inr (by linarith)))
  · have hapart := h.columns.apart n hn m hm hlt
    exact .inr (.inl (by linarith))

/-- The main path visits known nodes, none of them twice. -/
theorem mainPathOf_spec {flow : Flow} {spine : List String} (hnodup : spine.Nodup) (hsub : spine ⊆ flow.turnIds) :
    (mainPathOf flow spine).Nodup ∧ ∀ id ∈ mainPathOf flow spine, (byId (makeNodes flow) id).isSome := by
  have hturns : (spine.map NodeId.turnId).Nodup := hnodup.map fun a b hab => by cases hab; rfl
  have hknown : ∀ id ∈ spine.map NodeId.turnId, (byId (makeNodes flow) id).isSome := by
    intro id hid
    obtain ⟨turn, hturn, rfl⟩ := List.mem_map.1 hid
    exact byId_isSome.2 (turnId_mem_makeNodes.2 (hsub hturn))
  unfold mainPathOf
  split
  · rename_i hany
    obtain ⟨edge, hedge, hcompleted⟩ := List.any_eq_true.1 hany
    simp only [decide_eq_true_eq] at hcompleted
    refine ⟨List.nodup_append'.2 ⟨hturns, List.nodup_singleton _, by simp⟩, fun id hid => ?_⟩
    rcases List.mem_append.1 hid with hid | hid
    · exact hknown id hid
    · rw [List.mem_singleton.1 hid]
      exact byId_isSome.2 (endId_mem_makeNodes hedge hcompleted.2)
  · rw [List.append_nil]
    exact ⟨hturns, hknown⟩

section Stages

variable {flow : Flow} {spine : List String}

theorem celledNodes_sizes : ∀ node ∈ celledNodes flow spine, NodeSizes node := cellNodes_sizes (makeNodes_sizes flow)

theorem drawnNodes_ids : (drawnNodes flow spine).map (·.id) = (makeNodes flow).map (·.id) :=
  positionNodes_ids.trans cellNodes_ids

theorem drawnNodes_spec (hids : flow.turnIds.Nodup) (hnodup : spine.Nodup) (hsub : spine ⊆ flow.turnIds) :
    Arranged (drawnNodes flow spine) ∧
      ∀ (i : ℕ) id, (mainPathOf flow spine)[i]? = some id →
        ∃ node ∈ drawnNodes flow spine, node.id = id ∧ node.lane = 0 ∧ node.column = i := by
  obtain ⟨hmain, hknown⟩ := mainPathOf_spec hnodup hsub
  obtain ⟨hplaced, hall, hpath⟩ := placeNodes_spec (makeEdges flow (makeNodes flow)) hmain hknown
  have hall' := fun node hnode => hall node hnode (byId_isSome.2 (List.mem_map_of_mem hnode))
  refine ⟨positionNodes_arranged celledNodes_sizes fun m hm n hn =>
    cellNodes_apart (makeNodes_nodup hids) hplaced hall' hm hn, fun i id hi => ?_⟩
  -- the node that the id stands for has the cell of its slot
  have hid : id ∈ (drawnNodes flow spine).map (·.id) := by
    rw [drawnNodes_ids]
    exact byId_isSome.1 (hknown id (List.mem_of_getElem? hi))
  obtain ⟨node, hnode, rfl⟩ := List.mem_map.1 hid
  obtain ⟨celled, hcelled, rfl⟩ := List.mem_map.1 hnode
  obtain ⟨hcolumn, hlane⟩ := cellNodes_slot hplaced.once hcelled (hpath i _ hi) rfl
  exact ⟨_, hnode, rfl, hlane, hcolumn⟩

/-- The edges keep their places and their ends when their kinds and sides are chosen. -/
theorem sidedEdges_eq :
    ∃ f : WorkflowEdge → WorkflowEdge, sidedEdges flow spine = (makeEdges flow (makeNodes flow)).map f ∧
      ∀ edge, (f edge).index = edge.index ∧ (f edge).ends = edge.ends := by
  refine ⟨_, by rw [sidedEdges, kindEdges, chooseSides, markLoopbacks, List.map_map], fun edge => ?_⟩
  rw [Function.comp_apply]
  split <;> exact ⟨rfl, rfl⟩

theorem sidedEdges_index {a b : WorkflowEdge} (ha : a ∈ sidedEdges flow spine) (hb : b ∈ sidedEdges flow spine)
    (h : a.index = b.index) : a = b := by
  obtain ⟨f, heq, hf⟩ := @sidedEdges_eq flow spine
  rw [heq] at ha hb
  obtain ⟨made, hmade, rfl⟩ := List.mem_map.1 ha
  obtain ⟨made', hmade', rfl⟩ := List.mem_map.1 hb
  rw [(hf made).1, (hf made').1] at h
  rw [makeEdges_index hmade hmade' h]

theorem sidedEdges_ends :
    (sidedEdges flow spine).map (·.ends) = (makeEdges flow (makeNodes flow)).map (·.ends) ∧
      ∀ edge ∈ sidedEdges flow spine,
        edge.source ∈ (drawnNodes flow spine).map (·.id) ∧ edge.target ∈ (drawnNodes flow spine).map (·.id) := by
  obtain ⟨f, heq, hf⟩ := @sidedEdges_eq flow spine
  rw [heq]
  constructor
  · rw [List.map_map]
    exact List.map_congr_left fun edge _ => (hf edge).2
  · intro edge hedge
    obtain ⟨made, hmade, rfl⟩ := List.mem_map.1 hedge
    obtain ⟨declared, -, -, -, hsource, htarget, -⟩ := mem_makeEdges hmade
    have hsame := (hf made).2
    simp only [WorkflowEdge.ends, Prod.mk.injEq] at hsame
    rw [hsame.2.1, hsame.2.2, drawnNodes_ids]
    exact ⟨hsource, htarget⟩

end Stages

/-- The edges of a layout are those that were routed, in the declared order. -/
theorem drawnEdges_spec {nodes : List WorkflowNode} {edges order out : List WorkflowEdge}
    (hindex : ∀ a ∈ edges, ∀ b ∈ edges, a.index = b.index → a = b) (horder : ∀ edge, edge ∈ order ↔ edge ∈ edges)
    (hfound : ∀ edge ∈ order, ∃ drawn ∈ out, drawn.index = edge.index)
    (hdrawn : ∀ drawn ∈ out, ∃ edge ∈ order, drawn.index = edge.index ∧ drawn.ends = edge.ends ∧ DrawnEdge nodes drawn)
    {edge : WorkflowEdge} (hedge : edge ∈ edges) :
    ((out.find? (·.index = edge.index)).getD edge).ends = edge.ends ∧ DrawnEdge nodes ((out.find? (·.index = edge.index)).getD edge) := by
  cases hfind : out.find? (·.index = edge.index) with
  | none =>
    obtain ⟨drawn, hmem, heq⟩ := hfound edge ((horder edge).2 hedge)
    exact absurd heq (by simpa using List.find?_eq_none.1 hfind drawn hmem)
  | some drawn =>
    obtain ⟨other, hother, hsame, hends, hroute⟩ := hdrawn drawn (List.mem_of_find?_eq_some hfind)
    have hdrawnIndex : drawn.index = edge.index := by simpa using List.find?_some hfind
    have heq : other = edge := hindex other ((horder other).1 hother) edge hedge (hsame.symm.trans hdrawnIndex)
    rw [Option.getD_some]
    exact ⟨heq ▸ hends, hroute⟩

/-- Some number of steps is enough to route the edges of a flow, and then it is drawn. -/
theorem layoutWorkflow_routed {flow : Flow} {spine : List String} (hids : flow.turnIds.Nodup) (hnodup : spine.Nodup)
    (hsub : spine ⊆ flow.turnIds) :
    ∃ (n : ℕ) (out : List WorkflowEdge), (∀ edge ∈ sidedEdges flow spine, ((out.find? (·.index = edge.index)).getD edge).ends = edge.ends ∧
        DrawnEdge (drawnNodes flow spine) ((out.find? (·.index = edge.index)).getD edge)) ∧
      ∀ m, n ≤ m → shortestSuccessfulPath m flow = some spine → layoutWorkflow m flow = some (.ok {
        width := tracksEnd 115 50 (columnWidths (celledNodes flow spine)) - 65
        height := tracksEnd 85 (lanesTop (kindEdges flow spine)) (laneHeights (celledNodes flow spine)) - 35
        nodes := drawnNodes flow spine
        edges := (sidedEdges flow spine).map fun edge => (out.find? (·.index = edge.index)).getD edge
        mainPath := mainPathOf flow spine }) := by
  obtain ⟨harranged, -⟩ := drawnNodes_spec hids hnodup hsub
  have hsizes : ∀ node ∈ drawnNodes flow spine, NodeSizes node := positionNodes_sizes celledNodes_sizes
  obtain ⟨-, hends⟩ := @sidedEdges_ends flow spine
  have horder : ∀ edge, edge ∈ routingOrder (mainPathOf flow spine) (sidedEdges flow spine) ↔ edge ∈ sidedEdges flow spine :=
    fun _ => List.mem_mergeSort
  obtain ⟨n, out, hout, hfound, hdrawn⟩ := routeEdges_spec harranged hsizes hends (mainPathOf flow spine)
    (routingOrder (mainPathOf flow spine) (sidedEdges flow spine)) (fun edge hedge => (horder edge).1 hedge) 0 []
  refine ⟨n, out, fun edge hedge => drawnEdges_spec (fun a ha b hb => sidedEdges_index ha hb) horder hfound hdrawn hedge,
    fun m hm hspine => ?_⟩
  rw [layoutWorkflow, hspine]
  dsimp only
  rw [hout m hm]

/-- The main path of a layout is that of the path it found. -/
theorem layoutWorkflow_mainPath {flow : Flow} {spine : List String} (hids : flow.turnIds.Nodup) (hnodup : spine.Nodup)
    (hsub : spine ⊆ flow.turnIds) :
    ∃ n layout, (∀ m, n ≤ m → shortestSuccessfulPath m flow = some spine → layoutWorkflow m flow = some (.ok layout)) ∧
      layout.mainPath = mainPathOf flow spine := by
  obtain ⟨n, out, -, hlayout⟩ := layoutWorkflow_routed hids hnodup hsub
  exact ⟨n, _, hlayout, rfl⟩

/-- Every flow whose turns have ids of their own, with edges from declared turns, is drawn: some number of
steps is enough, and what is drawn is as it has to be. -/
theorem every_flow_drawn (flow : Flow) (hids : flow.turnIds.Nodup) (hedges : ∀ edge ∈ flow.edges, edge.source ∈ flow.turnIds) :
    ∃ n layout, (∀ m, n ≤ m → layoutWorkflow m flow = some (.ok layout)) ∧ Drawn flow layout := by
  obtain ⟨n, spine, hspine, hnodup, hsub⟩ := shortestSuccessfulPath_spec flow
  obtain ⟨harranged, hpath⟩ := drawnNodes_spec hids hnodup hsub
  have hnodes : (drawnNodes flow spine).Nodup := List.Nodup.of_map _ (drawnNodes_ids ▸ makeNodes_nodup hids)
  obtain ⟨hendsMap, -⟩ := @sidedEdges_ends flow spine
  obtain ⟨n', out, hrouted, hlayout⟩ := layoutWorkflow_routed hids hnodup hsub
  refine ⟨max n n', _, fun m hm => hlayout m (le_trans (le_max_right _ _) hm) (hspine m (le_trans (le_max_left _ _) hm)), ?_⟩
  refine ⟨fun turn hturn => ?_, ?_, harranged.positive, ?_, fun node hnode => ?_, hpath, ?_, fun edge hedge => ?_⟩
  · rw [drawnNodes_ids]
    exact turnId_mem_makeNodes.2 hturn
  · refine hnodes.pairwise_of_forall_ne fun m hm n hn hne hcell => hne ?_
    simp only [Prod.mk.injEq] at hcell
    exact harranged.cells m hm n hn hcell.1 hcell.2
  · exact hnodes.pairwise_of_forall_ne fun m hm n hn hne => harranged.apart hm hn hne
  · obtain ⟨hx, hwidth, hy, hheight⟩ := positionNodes_inside hnode
    refine ⟨?_, ?_, ?_, ?_⟩ <;> linarith
  · rw [← makeEdges_ends hedges, ← hendsMap, List.map_map]
    exact List.map_congr_left fun edge hedge => (hrouted edge hedge).1
  · obtain ⟨original, horiginal, rfl⟩ := List.mem_map.1 hedge
    exact (hrouted original horiginal).2

/-- A flow with a cycle, a loop, two edges between the same turns, a repeated turn and one that nothing reaches. -/
def reviewFlow : Flow where
  entryTurnIds := ["write"]
  nodes := [
    ⟨"write", JsString.lit "Write", .llm, false⟩, ⟨"review", JsString.lit "Review", .human, false⟩,
    ⟨"check", JsString.lit "Check", .automatic, true⟩, ⟨"spare", JsString.lit "Spare", .external, false⟩]
  edges := [
    ⟨"write", some "review", none, .forward, none⟩, ⟨"review", some "write", none, .loopback, none⟩,
    ⟨"review", some "write", none, .branch, none⟩, ⟨"review", some "check", none, .branch, none⟩,
    ⟨"check", some "check", none, .branch, none⟩, ⟨"review", none, some .completed, .terminal, none⟩,
    ⟨"check", some "gone", none, .branch, none⟩]
  endStates := [⟨.aborted, true⟩]

theorem every_flow_drawn_demo :
    ∃ n layout, (∀ m, n ≤ m → layoutWorkflow m reviewFlow = some (.ok layout)) ∧ Drawn reviewFlow layout :=
  every_flow_drawn reviewFlow (by decide) (by decide)

end Leitwerk.WorkflowGraph
