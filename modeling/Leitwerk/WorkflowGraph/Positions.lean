import Leitwerk.WorkflowGraph.Corridors
import Leitwerk.WorkflowGraph.Placement
/-!
# The nodes lie in columns and lanes

The nodes of a flow have ids of their own and known sizes. With a cell each they
keep them, and their positions put them in the middle of their column and of
their lane, which are large enough and a gap apart.
-/

namespace Leitwerk.WorkflowGraph

open Tracks (Tracked)

/-! ## Nodes by their ids -/

section ById

variable {nodes : List WorkflowNode} {node : WorkflowNode}

theorem byId_eq_some {id : NodeId} (h : byId nodes id = some node) : node ∈ nodes ∧ node.id = id :=
  ⟨List.mem_reverse.1 (List.mem_of_find?_eq_some h), by simpa using List.find?_some h⟩

/-- Where ids are distinct, a node is found by its id. -/
theorem byId_of_mem (hids : (nodes.map (·.id)).Nodup) (hnode : node ∈ nodes) : byId nodes node.id = some node := by
  cases hfind : byId nodes node.id with
  | none =>
    have hnone := List.find?_eq_none.1 hfind node (List.mem_reverse.2 hnode)
    simp at hnone
  | some found =>
    obtain ⟨hfound, hid⟩ := byId_eq_some hfind
    rw [List.inj_on_of_nodup_map hids hfound hnode hid]

theorem byId_isSome {id : NodeId} : (byId nodes id).isSome ↔ id ∈ nodes.map (·.id) := by
  rw [byId, List.find?_isSome]
  simp [eq_comm]

theorem nodeOf_of_mem (hids : (nodes.map (·.id)).Nodup) (hnode : node ∈ nodes) : nodeOf nodes node.id = node := by
  rw [nodeOf, byId_of_mem hids hnode, Option.getD_some]

/-- An id that is there has its node. -/
theorem nodeOf_spec {id : NodeId} (h : id ∈ nodes.map (·.id)) : nodeOf nodes id ∈ nodes ∧ (nodeOf nodes id).id = id := by
  obtain ⟨found, hfound⟩ := Option.isSome_iff_exists.1 (byId_isSome.2 h)
  rw [nodeOf, hfound, Option.getD_some]
  exact byId_eq_some hfound

end ById

/-! ## The nodes of a flow -/

theorem mem_statuses_put {statuses : Table TerminalStatus Bool} {status status' : TerminalStatus} {synthetic : Bool}
    (h : (statuses.get? status).isSome) : ((statuses.put status' synthetic).get? status).isSome := by
  rw [Table.get?_put]
  split
  · rfl
  · exact h

/-- A declared transition to an end state has it among the statuses. -/
theorem statuses_of_edge {flow : Flow} {edge : FlowEdge} (hedge : edge ∈ flow.edges) {status : TerminalStatus}
    (hstatus : edge.lifecycleStatus = some status) : ((statuses flow).get? status).isSome := by
  unfold statuses
  obtain ⟨before, behind, hsplit⟩ := List.append_of_mem hedge
  rw [hsplit, List.foldl_append, List.foldl_cons, hstatus]
  dsimp only
  refine List.foldlRecOn (motive := fun statuses : Table TerminalStatus Bool => (statuses.get? status).isSome) behind _ ?_ ?_
  · rw [Table.get?_put, if_pos rfl]
    rfl
  · intro statuses h other _
    split
    · exact mem_statuses_put h
    · exact h

theorem makeNodes_ids (flow : Flow) :
    (makeNodes flow).map (·.id) = flow.turnIds.map .turnId ++ ((statuses flow).rows.map Prod.fst).map .endId := by
  simp only [makeNodes, List.map_append, List.map_map, Flow.turnIds]
  rfl

theorem makeNodes_nodup {flow : Flow} (h : flow.turnIds.Nodup) : ((makeNodes flow).map (·.id)).Nodup := by
  rw [makeNodes_ids]
  refine List.nodup_append'.2 ⟨h.map fun a b hab => by cases hab; rfl,
    (statuses flow).nodup.map fun a b hab => by cases hab; rfl, ?_⟩
  intro id hturn hend
  obtain ⟨turn, -, rfl⟩ := List.mem_map.1 hturn
  obtain ⟨status, -, hstatus⟩ := List.mem_map.1 hend
  cases hstatus

theorem turnId_mem_makeNodes {flow : Flow} {turn : String} :
    NodeId.turnId turn ∈ (makeNodes flow).map (·.id) ↔ turn ∈ flow.turnIds := by
  rw [makeNodes_ids]
  simp

theorem endId_mem_makeNodes {flow : Flow} {edge : FlowEdge} (hedge : edge ∈ flow.edges) {status : TerminalStatus}
    (hstatus : edge.lifecycleStatus = some status) : NodeId.endId status ∈ (makeNodes flow).map (·.id) := by
  rw [makeNodes_ids]
  refine List.mem_append_right _ (List.mem_map_of_mem ?_)
  by_contra hnot
  have hsome := statuses_of_edge hedge hstatus
  rw [Table.get?, Table.lookup_eq_none_iff.2 hnot] at hsome
  cases hsome

/-- The sizes that leave room for ports on every side. -/
structure NodeSizes (node : WorkflowNode) : Prop where
  width : 190 ≤ node.width
  height : 70 ≤ node.height
  repeated : ∀ geometry, node.repetition = some geometry →
    node.width = 380 ∧ 85 ≤ geometry.activity.height ∧ geometry.activity.height ≤ node.height

theorem makeNode_sizes (definition : FlowNode) : NodeSizes (makeNode definition) := by
  have hlines : (1 : ℚ) ≤ descriptionLines definition.description.length (if definition.sequential then 23 else 24) := by
    have hnat : 1 ≤ descriptionLines definition.description.length (if definition.sequential then 23 else 24) := by
      unfold descriptionLines
      omega
    exact_mod_cast hnat
  cases hseq : definition.sequential with
  | false =>
    refine ⟨?_, ?_, ?_⟩
    · simp only [makeNode, hseq, Bool.false_eq_true, if_false]
      split <;> norm_num
    · simp only [makeNode, hseq, Bool.false_eq_true, if_false]
      exact le_max_of_le_left (by norm_num)
    · intro geometry hgeometry
      simp [makeNode, hseq] at hgeometry
  | true =>
    rw [hseq] at hlines
    refine ⟨?_, ?_, ?_⟩
    · simp only [makeNode, hseq, if_true]
      norm_num
    · simp only [makeNode, hseq, if_true] at hlines ⊢
      linarith
    · intro geometry hgeometry
      simp only [makeNode, hseq, if_true, Option.some.injEq] at hgeometry hlines ⊢
      subst hgeometry
      refine ⟨trivial, ?_, ?_⟩
      · dsimp only
        linarith
      · dsimp only
        linarith

theorem makeNodes_sizes (flow : Flow) : ∀ node ∈ makeNodes flow, NodeSizes node := by
  intro node hnode
  rcases List.mem_append.1 hnode with hturn | hend
  · obtain ⟨definition, -, rfl⟩ := List.mem_map.1 hturn
    exact makeNode_sizes definition
  · obtain ⟨row, -, rfl⟩ := List.mem_map.1 hend
    exact ⟨le_refl _, le_refl _, by simp [makeEndNode]⟩

/-! ## Cells -/

section Cells

variable {nodes : List WorkflowNode} {placed : List Slot}

/-- A node with its cell is a node, moved. -/
theorem mem_cellNodes {node : WorkflowNode} (h : node ∈ cellNodes nodes placed) :
    ∃ m ∈ nodes, ∃ column lane, node = { m with column := column, lane := lane } := by
  obtain ⟨m, hm, rfl⟩ := List.mem_map.1 h
  refine ⟨m, hm, ?_⟩
  cases placed.find? (·.id = m.id) with
  | none => exact ⟨m.column, m.lane, rfl⟩
  | some slot => exact ⟨slot.column, slot.lane, rfl⟩

theorem cellNodes_ids : (cellNodes nodes placed).map (·.id) = nodes.map (·.id) := by
  rw [cellNodes, List.map_map]
  apply List.map_congr_left
  intro m _
  rw [Function.comp_apply]
  split <;> rfl

theorem cellNodes_sizes (h : ∀ node ∈ nodes, NodeSizes node) : ∀ node ∈ cellNodes nodes placed, NodeSizes node := by
  intro node hnode
  obtain ⟨m, hm, column, lane, rfl⟩ := mem_cellNodes hnode
  exact ⟨(h m hm).width, (h m hm).height, (h m hm).repeated⟩

/-- The cell of a node is that of its slot. -/
theorem cellNodes_slot (honce : (placed.map (·.id)).Nodup) {node : WorkflowNode} (hnode : node ∈ cellNodes nodes placed)
    {slot : Slot} (hslot : slot ∈ placed) (hid : slot.id = node.id) : node.column = slot.column ∧ node.lane = slot.lane := by
  obtain ⟨m, hm, rfl⟩ := List.mem_map.1 hnode
  have hm' : slot.id = m.id := by
    rw [hid]
    split <;> rfl
  cases hfind : placed.find? (·.id = m.id) with
  | none => exact absurd hm' (by simpa using List.find?_eq_none.1 hfind slot hslot)
  | some found =>
    have heq : found = slot := List.inj_on_of_nodup_map honce (List.mem_of_find?_eq_some hfind) hslot
      (by rw [hm']; simpa using List.find?_some hfind)
    rw [heq]
    exact ⟨rfl, rfl⟩

/-- Two nodes that are placed are never in one cell. -/
theorem cellNodes_apart (hids : (nodes.map (·.id)).Nodup) (h : Placement nodes placed)
    (hall : ∀ node ∈ nodes, node.id ∈ placed.map (·.id)) {m n : WorkflowNode} (hm : m ∈ cellNodes nodes placed)
    (hn : n ∈ cellNodes nodes placed) (hcolumn : m.column = n.column) (hlane : m.lane = n.lane) : m = n := by
  have hslot : ∀ node ∈ cellNodes nodes placed, ∃ slot ∈ placed, slot.id = node.id := by
    intro node hnode
    obtain ⟨original, horiginal, column, lane, rfl⟩ := mem_cellNodes hnode
    exact List.mem_map.1 (hall original horiginal)
  obtain ⟨slot, hslotm, hidm⟩ := hslot m hm
  obtain ⟨slot', hslotn, hidn⟩ := hslot n hn
  obtain ⟨hcm, hlm⟩ := cellNodes_slot h.once hm hslotm hidm
  obtain ⟨hcn, hln⟩ := cellNodes_slot h.once hn hslotn hidn
  have heq : slot = slot' := by
    refine List.inj_on_of_nodup_map h.apart hslotm hslotn ?_
    simp only [Slot.cell, Prod.mk.injEq]
    exact ⟨by rw [← hcm, ← hcn, hcolumn], by rw [← hlm, ← hln, hlane]⟩
  have hids' : ((cellNodes nodes placed).map (·.id)).Nodup := by rwa [cellNodes_ids]
  exact List.inj_on_of_nodup_map hids' hm hn (by rw [← hidm, ← hidn, heq])

end Cells

/-! ## Tracks behind each other -/

section TrackStarts

variable {gap : ℚ} {sizes : List ℚ}

theorem le_trackStarts (hgap : 0 ≤ gap) (hsizes : ∀ size ∈ sizes, 0 ≤ size) (start : ℚ) {i : ℕ} (hi : i < sizes.length) :
    start ≤ (trackStarts gap start sizes).getD i 0 := by
  induction sizes generalizing start i with
  | nil => cases hi
  | cons size sizes ih =>
    cases i with
    | zero => exact le_refl _
    | succ i =>
      have hsize := hsizes size List.mem_cons_self
      have hle := ih (fun s hs => hsizes s (List.mem_cons_of_mem _ hs)) (start + (size + gap)) (Nat.lt_of_succ_lt_succ hi)
      simp only [trackStarts, List.getD_cons_succ]
      linarith

/-- A track ends a gap before each later one starts. -/
theorem trackStarts_apart (hgap : 0 ≤ gap) (hsizes : ∀ size ∈ sizes, 0 ≤ size) (start : ℚ) {i j : ℕ} (hij : i < j)
    (hj : j < sizes.length) :
    (trackStarts gap start sizes).getD i 0 + sizes.getD i 0 + gap ≤ (trackStarts gap start sizes).getD j 0 := by
  induction sizes generalizing start i j with
  | nil => cases hj
  | cons size sizes ih =>
    have hsizes' := fun s hs => hsizes s (List.mem_cons_of_mem _ hs)
    cases j with
    | zero => cases hij
    | succ j =>
      have hj' := Nat.lt_of_succ_lt_succ hj
      cases i with
      | zero =>
        have hle := le_trackStarts hgap hsizes' (start + (size + gap)) hj'
        simp only [trackStarts, List.getD_cons_zero, List.getD_cons_succ]
        linarith
      | succ i =>
        simp only [trackStarts, List.getD_cons_succ]
        exact ih hsizes' _ (Nat.lt_of_succ_lt_succ hij) hj'

/-- A track ends a gap before the end of all. -/
theorem trackStarts_end (hgap : 0 ≤ gap) (hsizes : ∀ size ∈ sizes, 0 ≤ size) (start : ℚ) {i : ℕ} (hi : i < sizes.length) :
    (trackStarts gap start sizes).getD i 0 + sizes.getD i 0 + gap ≤ tracksEnd gap start sizes := by
  induction sizes generalizing start i with
  | nil => cases hi
  | cons size sizes ih =>
    have hsizes' := fun s hs => hsizes s (List.mem_cons_of_mem _ hs)
    have hend : tracksEnd gap start (size :: sizes) = tracksEnd gap (start + (size + gap)) sizes := by
      simp only [tracksEnd, List.map_cons, List.sum_cons]
      ring
    rw [hend]
    cases i with
    | zero =>
      have hsum : 0 ≤ (sizes.map (· + gap)).sum := by
        apply List.sum_nonneg
        intro q hq
        obtain ⟨s, hs, rfl⟩ := List.mem_map.1 hq
        have hpos := hsizes' s hs
        linarith
      simp only [trackStarts, List.getD_cons_zero, tracksEnd]
      linarith
    | succ i =>
      simp only [trackStarts, List.getD_cons_succ]
      exact ih hsizes' _ (Nat.lt_of_succ_lt_succ hi)

theorem trackStarts_length (start : ℚ) : (trackStarts gap start sizes).length = sizes.length := by
  induction sizes generalizing start with
  | nil => rfl
  | cons size sizes ih => rw [trackStarts, List.length_cons, ih, List.length_cons]

/-- What the largest of some values is at least. -/
theorem le_foldl_max {α : Type} [LinearOrder α] {l : List α} {a b : α} (h : a ≤ b ∨ a ∈ l) : a ≤ l.foldl max b := by
  induction l generalizing b with
  | nil => exact h.resolve_right (by simp)
  | cons c l ih =>
    rw [List.foldl_cons]
    rcases h with hb | hmem
    · exact ih (.inl (le_max_of_le_left hb))
    · rcases List.mem_cons.1 hmem with rfl | hmem
      · exact ih (.inl (le_max_right _ _))
      · exact ih (.inr hmem)

end TrackStarts

/-! ## Positions -/

section Columns

variable {nodes : List WorkflowNode} {node : WorkflowNode}

/-- The width of a column the nodes have. -/
theorem columnWidths_getD (hnode : node ∈ nodes) :
    node.column < (columnWidths nodes).length ∧ (columnWidths nodes).getD node.column 0 = columnWidth nodes node.column := by
  have hlt : node.column < columnCount nodes := Nat.lt_succ_of_le (le_foldl_max (.inr (List.mem_map_of_mem hnode)))
  have hlength : (columnWidths nodes).length = columnCount nodes := by simp [columnWidths]
  refine ⟨hlength ▸ hlt, ?_⟩
  rw [List.getD_eq_getElem _ _ (hlength ▸ hlt)]
  simp [columnWidths]

theorem width_le_columnWidth (hnode : node ∈ nodes) : node.width ≤ columnWidth nodes node.column :=
  le_foldl_max (.inr (List.mem_map_of_mem (List.mem_filter.2 ⟨hnode, by simp⟩)))

theorem columnWidths_nonneg : ∀ width ∈ columnWidths nodes, 0 ≤ width := by
  intro width hwidth
  obtain ⟨column, -, rfl⟩ := List.mem_map.1 hwidth
  have hmin : (225 : ℚ) ≤ columnWidth nodes column := le_foldl_max (.inl (le_refl _))
  linarith

end Columns

section Lanes

variable {nodes : List WorkflowNode} {node : WorkflowNode}

theorem lookup_zip {κ α : Type} [DecidableEq κ] {keys : List κ} {values : List α} (hlength : keys.length = values.length) {key : κ}
    (hkey : key ∈ keys) : (keys.zip values).lookup key = values[keys.idxOf key]? := by
  induction keys generalizing values with
  | nil => cases hkey
  | cons k keys ih =>
    cases values with
    | nil => cases hlength
    | cons value values =>
      rw [List.zip_cons_cons, List.lookup_cons]
      by_cases heq : key = k
      · simp [heq]
      · rw [beq_eq_false_iff_ne.2 heq, List.idxOf_cons_ne _ (Ne.symm heq), List.getElem?_cons_succ]
        exact ih (Nat.succ.inj hlength) ((List.mem_cons.1 hkey).resolve_left heq)

theorem lane_mem (hnode : node ∈ nodes) : node.lane ∈ lanes nodes :=
  List.mem_mergeSort.2 (List.mem_eraseDups.2 (List.mem_map_of_mem hnode))

theorem lanes_strict : (lanes nodes).Pairwise (· < ·) := mergeSort_strict (nodup_eraseDups _)

/-- Lower lanes come first. -/
theorem lanes_idxOf_lt {lane lane' : ℤ} (h : lane ∈ lanes nodes) (h' : lane' ∈ lanes nodes) (hlt : lane < lane') :
    (lanes nodes).idxOf lane < (lanes nodes).idxOf lane' := by
  by_contra hnot
  have hi := List.idxOf_lt_length_iff.2 h
  have hi' := List.idxOf_lt_length_iff.2 h'
  rcases Nat.eq_or_lt_of_le (Nat.le_of_not_lt hnot) with heq | hlt'
  · have hsame : lane' = lane := by
      rw [← List.getElem_idxOf hi, ← List.getElem_idxOf hi']
      simp only [heq]
    omega
  · have hsorted := List.pairwise_iff_getElem.1 lanes_strict _ _ hi' hi hlt'
    rw [List.getElem_idxOf, List.getElem_idxOf] at hsorted
    omega

/-- The height of a lane the nodes have. -/
theorem laneHeights_getD {lane : ℤ} (h : lane ∈ lanes nodes) :
    (lanes nodes).idxOf lane < (laneHeights nodes).length ∧
      (laneHeights nodes).getD ((lanes nodes).idxOf lane) 0 = laneHeight nodes lane := by
  have hi := List.idxOf_lt_length_iff.2 h
  have hlength : (laneHeights nodes).length = (lanes nodes).length := by simp [laneHeights]
  refine ⟨hlength ▸ hi, ?_⟩
  rw [List.getD_eq_getElem _ _ (hlength ▸ hi)]
  simp only [laneHeights, List.getElem_map, List.getElem_idxOf]

theorem height_le_laneHeight (hnode : node ∈ nodes) : node.height ≤ laneHeight nodes node.lane :=
  le_foldl_max (.inr (List.mem_map_of_mem (List.mem_filter.2 ⟨hnode, by simp⟩)))

theorem laneHeights_nonneg : ∀ height ∈ laneHeights nodes, 0 ≤ height := by
  intro height hheight
  obtain ⟨lane, -, rfl⟩ := List.mem_map.1 hheight
  have hmin : (130 : ℚ) ≤ laneHeight nodes lane := le_foldl_max (.inl (le_refl _))
  linarith

/-- The center of a lane. -/
def laneCenter (nodes : List WorkflowNode) (top : ℚ) (lane : ℤ) : ℚ :=
  (trackStarts 85 top (laneHeights nodes)).getD ((lanes nodes).idxOf lane) 0 + laneHeight nodes lane / 2

theorem laneCenters_lookup (top : ℚ) {lane : ℤ} (h : lane ∈ lanes nodes) :
    (((lanes nodes).zip (((trackStarts 85 top (laneHeights nodes)).zip (laneHeights nodes)).map
      fun (y, height) => y + height / 2)).lookup lane).getD 0 = laneCenter nodes top lane := by
  obtain ⟨hi, hheight⟩ := laneHeights_getD h
  have hlength : (lanes nodes).length = (laneHeights nodes).length := by simp [laneHeights]
  have hstarts : (lanes nodes).idxOf lane < (trackStarts 85 top (laneHeights nodes)).length := by
    rwa [trackStarts_length]
  rw [lookup_zip (by simp [trackStarts_length, hlength]) h, laneCenter, ← hheight, List.getD_eq_getElem _ _ hi,
    List.getD_eq_getElem _ _ hstarts]
  have hzip : ((trackStarts 85 top (laneHeights nodes)).zip (laneHeights nodes))[(lanes nodes).idxOf lane]? =
      some ((trackStarts 85 top (laneHeights nodes))[(lanes nodes).idxOf lane], (laneHeights nodes)[(lanes nodes).idxOf lane]) :=
    List.getElem?_zip_eq_some.2 ⟨List.getElem?_eq_getElem hstarts, List.getElem?_eq_getElem hi⟩
  rw [List.getElem?_map, hzip]
  rfl

end Lanes

section Position

variable {nodes : List WorkflowNode} {edges : List WorkflowEdge}

/-- A node with its position: it keeps its cell and its size. -/
structure PositionOf (nodes : List WorkflowNode) (edges : List WorkflowEdge) (node positioned : WorkflowNode) : Prop where
  column : positioned.column = node.column
  lane : positioned.lane = node.lane
  width : positioned.width = node.width
  height : positioned.height = node.height
  repetition : positioned.repetition = node.repetition
  x : positioned.x =
    (trackStarts 115 50 (columnWidths nodes)).getD node.column 0 + columnWidth nodes node.column / 2 - node.width / 2
  y : positioned.y = laneCenter nodes (lanesTop edges) node.lane - node.height / 2

theorem mem_positionNodes {positioned : WorkflowNode} (h : positioned ∈ positionNodes nodes edges) :
    ∃ node ∈ nodes, PositionOf nodes edges node positioned := by
  obtain ⟨node, hnode, rfl⟩ := List.mem_map.1 h
  refine ⟨node, hnode, rfl, rfl, rfl, rfl, rfl, ?_, ?_⟩
  · dsimp only
    rw [(columnWidths_getD hnode).2]
    ring
  · dsimp only
    rw [laneCenters_lookup _ (lane_mem hnode)]

theorem positionNodes_ids : (positionNodes nodes edges).map (·.id) = nodes.map (·.id) := by
  rw [positionNodes, List.map_map]
  rfl

theorem positionNodes_sizes (h : ∀ node ∈ nodes, NodeSizes node) : ∀ node ∈ positionNodes nodes edges, NodeSizes node := by
  intro node hnode
  obtain ⟨m, hm, hposition⟩ := mem_positionNodes hnode
  refine ⟨hposition.width ▸ (h m hm).width, hposition.height ▸ (h m hm).height, fun geometry hgeometry => ?_⟩
  rw [hposition.width, hposition.height]
  exact (h m hm).repeated geometry (hposition.repetition ▸ hgeometry)

theorem positionNodes_columns (hsizes : ∀ node ∈ nodes, NodeSizes node) :
    Tracked 115 (positionNodes nodes edges) (·.column) (·.x) (·.width) := by
  refine Tracks.tracked_of_center
    (fun column => (trackStarts 115 50 (columnWidths nodes)).getD column 0 + columnWidth nodes column / 2)
    (columnWidth nodes) (fun m hm => ?_) (fun m hm => ?_) (fun m hm => ?_) fun m hm n hn hlt => ?_
  · have hwidth := (positionNodes_sizes hsizes m hm).width
    linarith
  · obtain ⟨o, ho, hposition⟩ := mem_positionNodes hm
    rw [hposition.width, hposition.column]
    exact width_le_columnWidth ho
  · obtain ⟨o, ho, hposition⟩ := mem_positionNodes hm
    rw [hposition.x, hposition.column, hposition.width]
  · obtain ⟨o, ho, hposition⟩ := mem_positionNodes hm
    obtain ⟨o', ho', hposition'⟩ := mem_positionNodes hn
    rw [hposition.column, hposition'.column] at hlt ⊢
    have hstarts := trackStarts_apart (by norm_num : (0 : ℚ) ≤ 115) columnWidths_nonneg 50 hlt (columnWidths_getD ho').1
    rw [(columnWidths_getD ho).2] at hstarts
    linarith

theorem positionNodes_lanes (hsizes : ∀ node ∈ nodes, NodeSizes node) :
    Tracked 85 (positionNodes nodes edges) (·.lane) (·.y) (·.height) := by
  refine Tracks.tracked_of_center (laneCenter nodes (lanesTop edges)) (laneHeight nodes) (fun m hm => ?_) (fun m hm => ?_)
    (fun m hm => ?_) fun m hm n hn hlt => ?_
  · have hheight := (positionNodes_sizes hsizes m hm).height
    linarith
  · obtain ⟨o, ho, hposition⟩ := mem_positionNodes hm
    rw [hposition.height, hposition.lane]
    exact height_le_laneHeight ho
  · obtain ⟨o, ho, hposition⟩ := mem_positionNodes hm
    rw [hposition.y, hposition.lane, hposition.height]
  · obtain ⟨o, ho, hposition⟩ := mem_positionNodes hm
    obtain ⟨o', ho', hposition'⟩ := mem_positionNodes hn
    rw [hposition.lane, hposition'.lane] at hlt ⊢
    have hindex := lanes_idxOf_lt (lane_mem ho) (lane_mem ho') hlt
    have hstarts := trackStarts_apart (by norm_num : (0 : ℚ) ≤ 85) laneHeights_nonneg (lanesTop edges) hindex
      (laneHeights_getD (lane_mem ho')).1
    rw [(laneHeights_getD (lane_mem ho)).2] at hstarts
    unfold laneCenter
    linarith

/-- Nodes of known sizes, one in a cell, are arranged by their positions. -/
theorem positionNodes_arranged (hsizes : ∀ node ∈ nodes, NodeSizes node)
    (hapart : ∀ m ∈ nodes, ∀ n ∈ nodes, m.column = n.column → m.lane = n.lane → m = n) :
    Arranged (positionNodes nodes edges) where
  columns := positionNodes_columns hsizes
  lanes := positionNodes_lanes hsizes
  cells m hm n hn hcolumn hlane := by
    obtain ⟨o, ho, rfl⟩ := List.mem_map.1 hm
    obtain ⟨o', ho', rfl⟩ := List.mem_map.1 hn
    rw [hapart o ho o' ho' hcolumn hlane]

/-- All nodes lie inside the drawing, with a margin of 50. -/
theorem positionNodes_inside {node : WorkflowNode} (hnode : node ∈ positionNodes nodes edges) :
    50 ≤ node.x ∧ node.x + node.width + 50 ≤ tracksEnd 115 50 (columnWidths nodes) - 65 ∧
      50 ≤ node.y ∧ node.y + node.height + 50 ≤ tracksEnd 85 (lanesTop edges) (laneHeights nodes) - 35 := by
  obtain ⟨m, hm, hposition⟩ := mem_positionNodes hnode
  have hfitx := width_le_columnWidth hm
  have hfity := height_le_laneHeight hm
  obtain ⟨hcolumn, hcolumn'⟩ := columnWidths_getD hm
  obtain ⟨hlane, hlane'⟩ := laneHeights_getD (lane_mem hm)
  have hstartx := le_trackStarts (by norm_num : (0 : ℚ) ≤ 115) columnWidths_nonneg 50 hcolumn
  have hstarty := le_trackStarts (by norm_num : (0 : ℚ) ≤ 85) laneHeights_nonneg (lanesTop edges) hlane
  have hendx := trackStarts_end (by norm_num : (0 : ℚ) ≤ 115) columnWidths_nonneg 50 hcolumn
  have hendy := trackStarts_end (by norm_num : (0 : ℚ) ≤ 85) laneHeights_nonneg (lanesTop edges) hlane
  have htop : 90 ≤ lanesTop edges := by
    unfold lanesTop
    have hcount : (0 : ℚ) ≤ (edges.filter (·.kind = .loopback)).length := Nat.cast_nonneg _
    linarith
  rw [hcolumn'] at hendx
  rw [hlane'] at hendy
  rw [hposition.x, hposition.y, hposition.width, hposition.height]
  unfold laneCenter
  refine ⟨?_, ?_, ?_, ?_⟩ <;> linarith

end Position

end Leitwerk.WorkflowGraph
