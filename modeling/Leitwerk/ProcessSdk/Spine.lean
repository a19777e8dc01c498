import Leitwerk.ProcessSdk.FlowView
import Leitwerk.WorkflowGraph.Drawing
import Leitwerk.WorkflowGraph.Successful
/-!
# What the spine and the anchors are

The spine is a shortest walk to a completion, and the queue that the spine turns
share anchors each turn to the first of them that leads to it. The drawing finds
the spine again from the edges, as far as it starts at the same turn.
-/

namespace Leitwerk.ProcessSdk.FlowView

open BreadthFirst Relation WorkflowGraph

/-- A transition of `a` names `b`, which is declared. -/
def Leads (graph : ProcessGraphView) (a b : String) : Prop :=
  b ∈ graph.turnIds ∧ ∃ transition ∈ graph.transitions a, transition.nextTurnId = some b

/-- A turn with a completed transition. -/
def Completes (graph : ProcessGraphView) (id : String) : Prop :=
  ∃ transition ∈ graph.transitions id, transition.lifecycleStatus = some .completed

/-- A step to a turn off the spine. -/
def LeadsOff (graph : ProcessGraphView) (spine : List String) (a b : String) : Prop := Leads graph a b ∧ b ∉ spine

variable {graph : ProcessGraphView} {spine : List String}

/-! ## The spine -/

theorem none_mem_spineOutgoing {id : String} : none ∈ spineOutgoing graph id ↔ Completes graph id := by
  simp only [spineOutgoing, List.mem_flatMap, Completes]
  refine exists_congr fun transition => and_congr_right fun _ => ?_
  by_cases hcompleted : transition.lifecycleStatus = some .completed
  · simp [hcompleted]
  · rw [if_neg hcompleted]
    refine ⟨fun hin => ?_, fun hc => absurd hc hcompleted⟩
    split at hin
    · split at hin <;> simp at hin
    · cases hin

theorem leads_of_mem {id next : String} (h : some next ∈ spineOutgoing graph id) : Leads graph id next := by
  obtain ⟨transition, htransition, hin⟩ := List.mem_flatMap.1 h
  split at hin
  · simp at hin
  · split at hin
    · rename_i other hnext
      split at hin
      · rename_i hdeclared
        obtain rfl := Option.some.inj (List.mem_singleton.1 hin)
        exact ⟨hdeclared, transition, htransition, hnext⟩
      · cases hin
    · cases hin

theorem mem_of_leads {id next : String} (h : Leads graph id next) (hnot : none ∉ spineOutgoing graph id) :
    some next ∈ spineOutgoing graph id := by
  obtain ⟨hdeclared, transition, htransition, hnext⟩ := h
  have hcompleted : transition.lifecycleStatus ≠ some .completed :=
    fun hc => hnot (none_mem_spineOutgoing.2 ⟨transition, htransition, hc⟩)
  refine List.mem_flatMap.2 ⟨transition, htransition, ?_⟩
  rw [if_neg hcompleted, hnext]
  dsimp only
  rw [if_pos hdeclared]
  exact List.mem_singleton_self _

theorem deriveSpine_spec {entry : String} (hentry : entry ∈ graph.turnIds) :
    ∃ n spine, (∀ m, n ≤ m → deriveSpine m graph entry = some spine) ∧ spine.Nodup ∧ spine ⊆ graph.turnIds ∧
      Shortest (Leads graph) (Completes graph) entry spine := by
  obtain ⟨n, spine, hspine, hnodup, hsub⟩ := successfulTurnPath_spec hentry (fun id next h => (leads_of_mem h).1) 0 _ (parents_start hentry)
  refine ⟨n, spine, hspine, hnodup, hsub, ?_⟩
  exact successfulTurnPath_shortest (fun _ _ => leads_of_mem) (fun _ _ => mem_of_leads) (fun _ => none_mem_spineOutgoing.symm)
    n 0 (searched_start entry) (hspine n (le_refl n))

theorem primaryEntry_declared {entry : String} (h : graph.primaryEntry = some entry) : entry ∈ graph.turnIds := by
  unfold ProcessGraphView.primaryEntry at h
  split at h
  · rename_i hdeclared
    cases h
    exact hdeclared
  · exact List.mem_of_head? h

theorem spineOf_spec (graph : ProcessGraphView) :
    ∃ n spine, (∀ m, n ≤ m → spineOf m graph = some spine) ∧ spine.Nodup ∧ spine ⊆ graph.turnIds ∧
      spine.head? = graph.primaryEntry ∧
      ∀ entry, graph.primaryEntry = some entry → Shortest (Leads graph) (Completes graph) entry spine := by
  unfold spineOf
  cases hentry : graph.primaryEntry with
  | none => exact ⟨0, [], fun _ _ => rfl, List.nodup_nil, List.nil_subset _, rfl, nofun⟩
  | some entry =>
    obtain ⟨n, spine, hspine, hnodup, hsub, hshortest⟩ := deriveSpine_spec (primaryEntry_declared hentry)
    refine ⟨n, spine, hspine, hnodup, hsub, hshortest.walk.head, fun other h => ?_⟩
    cases h
    exact hshortest

/-! ## Anchors -/

section Anchors

variable {s : String} {base : String → Option String} {done : ℕ}

/-- The transitions of a turn that the queue has reached. -/
theorem foldl_anchorNext {current : String} (transitions : List Transition) (hsub : transitions ⊆ graph.transitions current)
    {found : List String} {anchorByTurn : Table String String}
    (h : Exploring (LeadsOff graph spine) base s found anchorByTurn.get? done) (hcurrent : (s :: found)[done]? = some current) :
    ∃ found' anchorByTurn', transitions.foldl (anchorNext graph spine s) (s :: found, anchorByTurn) = (s :: found', anchorByTurn') ∧
      found <+: found' ∧ Exploring (LeadsOff graph spine) base s found' anchorByTurn'.get? done ∧
      (∀ w, anchorByTurn.get? w ≠ none → anchorByTurn'.get? w ≠ none) ∧
      ∀ transition ∈ transitions, ∀ next, transition.nextTurnId = some next → next ∈ graph.turnIds → next ∉ spine →
        anchorByTurn'.get? next ≠ none := by
  induction transitions generalizing found anchorByTurn with
  | nil => exact ⟨found, anchorByTurn, rfl, List.prefix_rfl, h, fun _ => id, fun _ ht => absurd ht List.not_mem_nil⟩
  | cons transition transitions ih =>
    obtain ⟨htransition, hsub⟩ := List.cons_subset.1 hsub
    -- after this transition its target has an anchor, now or before
    have hnext : ∃ found' anchorByTurn', anchorNext graph spine s (s :: found, anchorByTurn) transition = (s :: found', anchorByTurn') ∧
        found <+: found' ∧ Exploring (LeadsOff graph spine) base s found' anchorByTurn'.get? done ∧
        (∀ w, anchorByTurn.get? w ≠ none → anchorByTurn'.get? w ≠ none) ∧
        ∀ next, transition.nextTurnId = some next → next ∈ graph.turnIds → next ∉ spine → anchorByTurn'.get? next ≠ none := by
      unfold anchorNext
      cases htarget : transition.nextTurnId with
      | none => exact ⟨found, anchorByTurn, rfl, List.prefix_rfl, h, fun _ => id, nofun⟩
      | some next =>
        dsimp only
        by_cases hskip : next ∉ graph.turnIds ∨ next ∈ spine ∨ (anchorByTurn.get? next).isSome
        · rw [if_pos hskip]
          refine ⟨found, anchorByTurn, rfl, List.prefix_rfl, h, fun _ => id, fun w hw hdeclared hoff => ?_⟩
          cases hw
          rcases hskip with hskip | hskip | hskip
          · exact absurd hdeclared hskip
          · exact absurd hskip hoff
          · exact Option.isSome_iff_ne_none.1 hskip
        · rw [if_neg hskip]
          obtain ⟨hdeclared, hoff, hnew⟩ : next ∈ graph.turnIds ∧ next ∉ spine ∧ anchorByTurn.get? next = none := by
            simpa using hskip
          have hdone : done ≤ found.length := Nat.lt_succ_iff.1 (List.getElem?_eq_some_iff.1 hcurrent).1
          have hstep : LeadsOff graph spine current next := ⟨⟨hdeclared, transition, htransition, htarget⟩, hoff⟩
          have hupdate : (anchorByTurn.put next s).get? = Function.update anchorByTurn.get? next (some s) := by
            funext w
            rw [Table.get?_put, Function.update_apply]
          refine ⟨found ++ [next], anchorByTurn.put next s, rfl, List.prefix_append _ _, ?_, fun w hw => ?_, fun w hw _ _ => ?_⟩
          · rw [hupdate]
            exact h.push (List.mem_of_getElem? hcurrent) hstep hdone hnew
          · rw [Table.get?_put]
            split
            · simp
            · exact hw
          · cases hw
            simp [Table.get?_put]
    obtain ⟨found₁, anchors₁, heq, hprefix, hexploring, hkept, hdone⟩ := hnext
    have hcurrent₁ : (s :: found₁)[done]? = some current := by
      obtain ⟨rest, hrest⟩ := hprefix
      rw [← hrest, ← List.cons_append, List.getElem?_append_left (List.getElem?_eq_some_iff.1 hcurrent).1]
      exact hcurrent
    obtain ⟨found₂, anchors₂, heq₂, hprefix₂, hexploring₂, hkept₂, hdone₂⟩ := ih hsub hexploring hcurrent₁
    refine ⟨found₂, anchors₂, by rw [List.foldl_cons, heq, heq₂], hprefix.trans hprefix₂, hexploring₂,
      fun w hw => hkept₂ w (hkept w hw), fun other hother next hn hdeclared hoff => ?_⟩
    rcases List.mem_cons.1 hother with rfl | hother
    · exact hkept₂ next (hdone next hn hdeclared hoff)
    · exact hdone₂ other hother next hn hdeclared hoff

/-- The queue holds declared turns, each once. -/
theorem exploring_length_le {found : List String} {anchorByTurn : Table String String}
    (h : Exploring (LeadsOff graph spine) base s found anchorByTurn.get? done) : found.length ≤ graph.turnIds.length := by
  refine (h.once.subperm fun v hv => ?_).length_le
  obtain ⟨u, -, hstep⟩ := TransGen.tail'_iff.1 (h.met v hv).2.2
  exact hstep.1.1

/-- As many steps as there are turns are enough for the queue. -/
theorem anchorFrom_spec {sources : List String} (hbase : ∀ v, Owner (LeadsOff graph spine) sources v (base v)) (fuel : ℕ)
    {found : List String} {anchorByTurn : Table String String}
    (h : Exploring (LeadsOff graph spine) base s found anchorByTurn.get? done) (hdone : done ≤ found.length + 1)
    (hfuel : graph.turnIds.length + 2 ≤ fuel + done) :
    ∃ anchorByTurn', anchorFrom graph spine s fuel done (s :: found, anchorByTurn) = some anchorByTurn' ∧
      ∀ v, Owner (LeadsOff graph spine) (sources ++ [s]) v (anchorByTurn'.get? v) := by
  induction fuel generalizing done found anchorByTurn with
  | zero =>
    have := exploring_length_le h
    omega
  | succ fuel ih =>
    rw [anchorFrom]
    cases hcurrent : (s :: found)[done]? with
    | none => exact ⟨anchorByTurn, rfl, h.finish hcurrent hbase⟩
    | some current =>
      obtain ⟨found', anchors', heq, hprefix, hexploring, -, hall⟩ :=
        foldl_anchorNext (graph.transitions current) (List.Subset.refl _) h hcurrent
      have hcurrent' : (s :: found')[done]? = some current := by
        obtain ⟨rest, hrest⟩ := hprefix
        rw [← hrest, ← List.cons_append, List.getElem?_append_left (List.getElem?_eq_some_iff.1 hcurrent).1]
        exact hcurrent
      have hlooked : ∀ w, LeadsOff graph spine current w → anchors'.get? w ≠ none := by
        rintro w ⟨⟨hdeclared, transition, htransition, hnext⟩, hoff⟩
        exact hall transition htransition w hnext hdeclared hoff
      dsimp only
      rw [heq]
      have hlt := (List.getElem?_eq_some_iff.1 hcurrent').1
      exact ih (hexploring.advance hcurrent' hlooked) hlt (by omega)

theorem anchorAll_spec {fuel : ℕ} (hfuel : graph.turnIds.length + 2 ≤ fuel) (rest : List String) {sources : List String}
    {anchorByTurn : Table String String} (h : ∀ v, Owner (LeadsOff graph spine) sources v (anchorByTurn.get? v)) :
    ∃ anchorByTurn', anchorAll fuel graph spine rest anchorByTurn = some anchorByTurn' ∧
      ∀ v, Owner (LeadsOff graph spine) (sources ++ rest) v (anchorByTurn'.get? v) := by
  induction rest generalizing sources anchorByTurn with
  | nil => exact ⟨anchorByTurn, rfl, by simpa using h⟩
  | cons s rest ih =>
    obtain ⟨anchors', heq, howner⟩ := anchorFrom_spec h fuel (Exploring.init anchorByTurn.get? s) (Nat.zero_le _) hfuel
    obtain ⟨anchors'', heq', howner'⟩ := ih howner
    refine ⟨anchors'', by rw [anchorAll, heq]; exact heq', ?_⟩
    simpa using howner'

/-- More steps change nothing. -/
theorem anchorFrom_mono {fuel fuel' i : ℕ} (hle : fuel ≤ fuel') {state : List String × Table String String}
    {anchorByTurn : Table String String} (h : anchorFrom graph spine s fuel i state = some anchorByTurn) :
    anchorFrom graph spine s fuel' i state = some anchorByTurn := by
  induction fuel generalizing fuel' i state with
  | zero => cases h
  | succ fuel ih =>
    obtain ⟨fuel', rfl⟩ := Nat.exists_eq_add_of_le' (Nat.le_of_add_left_le hle)
    obtain ⟨queue, anchors⟩ := state
    rw [anchorFrom] at h ⊢
    cases hcurrent : queue[i]? with
    | none =>
      rw [hcurrent] at h
      exact h
    | some current =>
      rw [hcurrent] at h
      exact ih (by omega) h

theorem anchorAll_mono {fuel fuel' : ℕ} (hle : fuel ≤ fuel') (rest : List String) {anchors anchorByTurn : Table String String}
    (h : anchorAll fuel graph spine rest anchors = some anchorByTurn) : anchorAll fuel' graph spine rest anchors = some anchorByTurn := by
  induction rest generalizing anchors with
  | nil => exact h
  | cons s rest ih =>
    rw [anchorAll] at h ⊢
    cases hfrom : anchorFrom graph spine s fuel 0 ([s], anchors) with
    | none =>
      rw [hfrom] at h
      cases h
    | some anchors' =>
      rw [hfrom] at h
      rw [anchorFrom_mono hle hfrom]
      exact ih h

/-- Each turn off the spine is anchored to the first spine turn that leads to it off the spine. -/
theorem deriveBranchAnchors_spec (graph : ProcessGraphView) (spine : List String) :
    ∃ n anchorByTurn, (∀ m, n ≤ m → deriveBranchAnchors m graph spine = some anchorByTurn) ∧
      ∀ v, Owner (LeadsOff graph spine) spine v (anchorByTurn.get? v) := by
  have hstart : ∀ v, Owner (LeadsOff graph spine) [] v (Table.empty.get? v) := fun _ _ hs => absurd hs List.not_mem_nil
  obtain ⟨anchorByTurn, heq, howner⟩ := anchorAll_spec (le_refl (graph.turnIds.length + 2)) spine hstart
  exact ⟨_, anchorByTurn, fun m hm => anchorAll_mono hm spine heq, howner⟩

end Anchors

/-! ## Edges -/

theorem spineIndexByTurn_eq_some (hnodup : spine.Nodup) {id : String} {i : ℕ} :
    spineIndexByTurn spine id = some i ↔ spine[i]? = some id := by
  have hmem : ∀ row : String × ℕ, row ∈ spine.zipIdx.reverse ↔ spine[row.2]? = some row.1 := by
    intro row
    rw [List.mem_reverse, List.mem_zipIdx_iff_getElem?]
  unfold spineIndexByTurn
  constructor
  · intro h
    obtain ⟨row, hrow, rfl⟩ := Option.map_eq_some_iff.1 h
    have hid : row.1 = id := by simpa using List.find?_some hrow
    rw [← hid]
    exact (hmem row).1 (List.mem_of_find?_eq_some hrow)
  · intro h
    cases hfind : spine.zipIdx.reverse.find? (·.1 = id) with
    | none =>
      have hnot := List.find?_eq_none.1 hfind (id, i) ((hmem (id, i)).2 h)
      simp at hnot
    | some row =>
      have hid : row.1 = id := by simpa using List.find?_some hfind
      have hrow := (hmem row).1 (List.mem_of_find?_eq_some hfind)
      rw [hid, ← h] at hrow
      obtain ⟨hlt, -⟩ := List.getElem?_eq_some_iff.1 (hrow.trans h)
      rw [Option.map_some, (List.getElem?_inj hlt hnodup).1 hrow]

/-- An edge that goes along the spine. -/
def Forward (spine : List String) (edge : ProcessFlowEdge) : Prop :=
  ∃ (next : String) (i j : ℕ), edge.target = some next ∧ spine[i]? = some edge.source ∧ spine[j]? = some next ∧ i < j

section FlowEdge

variable {turnId : String} {turn : GraphTurnView} {transition : Transition}

theorem flowEdge_terminal {status : TerminalStatus} (h : transition.lifecycleStatus = some status) :
    flowEdge spine turnId turn transition = some {
      source := turnId, target := none, lifecycleStatus := some status, kind := .terminal
      label := transitionLabel transition turn.transitionLabels, condition := transition.condition } := by
  simp [flowEdge, h, edgeKind]

theorem flowEdge_next {next : String} (h : transition.lifecycleStatus = none) (hnext : transition.nextTurnId = some next) :
    flowEdge spine turnId turn transition = some {
      source := turnId, target := some next, lifecycleStatus := none, kind := edgeKind spine turnId (some next) none
      label := transitionLabel transition turn.transitionLabels, condition := transition.condition } := by
  simp [flowEdge, h, hnext]

theorem flowEdge_none (h : transition.lifecycleStatus = none) (hnext : transition.nextTurnId = none) :
    flowEdge spine turnId turn transition = none := by
  simp [flowEdge, h, hnext]

theorem flowEdge_source {edge : ProcessFlowEdge} (h : flowEdge spine turnId turn transition = some edge) : edge.source = turnId := by
  cases hstatus : transition.lifecycleStatus with
  | some status =>
    rw [flowEdge_terminal hstatus, Option.some.injEq] at h
    rw [← h]
  | none =>
    cases hnext : transition.nextTurnId with
    | none =>
      rw [flowEdge_none hstatus hnext] at h
      cases h
    | some next =>
      rw [flowEdge_next hstatus hnext, Option.some.injEq] at h
      rw [← h]

theorem edgeKind_forward (hnodup : spine.Nodup) {next : String} :
    edgeKind spine turnId (some next) none = .forward ↔ ∃ i j : ℕ, spine[i]? = some turnId ∧ spine[j]? = some next ∧ i < j := by
  simp only [← spineIndexByTurn_eq_some hnodup, edgeKind, Option.isSome_none, Bool.false_eq_true, if_false, Option.bind_some]
  cases hfrom : spineIndexByTurn spine turnId with
  | none => simp
  | some i =>
    cases hto : spineIndexByTurn spine next with
    | none => simp
    | some j => by_cases hlt : i < j <;> simp [hlt]

theorem flowEdge_forward (hnodup : spine.Nodup) {edge : ProcessFlowEdge} (h : flowEdge spine turnId turn transition = some edge) :
    edge.kind = .forward ↔ Forward spine edge := by
  cases hstatus : transition.lifecycleStatus with
  | some status =>
    rw [flowEdge_terminal hstatus, Option.some.injEq] at h
    simp [← h, Forward]
  | none =>
    cases hnext : transition.nextTurnId with
    | none =>
      rw [flowEdge_none hstatus hnext] at h
      cases h
    | some next =>
      rw [flowEdge_next hstatus hnext, Option.some.injEq] at h
      subst h
      refine (edgeKind_forward hnodup).trans ?_
      simp [Forward]

/-- What the drawing makes of a transition is what the spine makes of it. -/
theorem flowEdge_outgoing (hahead : transition.lifecycleStatus = some .aborted → ∀ next, transition.nextTurnId = some next → next ∉ graph.turnIds)
    (flow : Flow) (hids : flow.turnIds = graph.turnIds) :
    ((flowEdge spine turnId turn transition).toList.flatMap fun edge =>
        if edge.lifecycleStatus = some .completed then [none]
        else
          match edge.target with
          | some next => if next ∈ flow.turnIds then [some next] else []
          | none => []) =
      if transition.lifecycleStatus = some .completed then [none]
      else
        match transition.nextTurnId with
        | some next => if next ∈ graph.turnIds then [some next] else []
        | none => [] := by
  rw [hids]
  cases hstatus : transition.lifecycleStatus with
  | none =>
    cases hnext : transition.nextTurnId with
    | none => simp [flowEdge_none hstatus hnext]
    | some next => simp [flowEdge_next hstatus hnext]
  | some status =>
    rw [flowEdge_terminal hstatus]
    cases status with
    | completed => simp
    | aborted =>
      cases hnext : transition.nextTurnId with
      | none => simp
      | some next => simp [hahead hstatus next hnext]

end FlowEdge

/-! ## The drawing's main path -/

/-- Where the drawing starts. -/
def layoutEntry (graph : ProcessGraphView) : Option String :=
  ((graph.entryTurnIds.find? (· ∈ graph.turnIds)).or graph.turnIds.head?).filter (· ≠ "")

/-- An aborted transition names a declared turn. -/
def AbortsAhead (graph : ProcessGraphView) : Prop :=
  ∃ id, ∃ transition ∈ graph.transitions id, transition.lifecycleStatus = some .aborted ∧
    ∃ next ∈ graph.turnIds, transition.nextTurnId = some next

/-- The nodes of a spine, and its completion. -/
def spineNodes (graph : ProcessGraphView) (spine : List String) : List NodeId :=
  spine.map .turnId ++
    (if spine.getLast?.any fun id => (graph.transitions id).any (·.lifecycleStatus = some .completed) then [.endId .completed] else [])

section Drawn

variable {anchorByTurn : Table String String}

theorem drawn_turnIds : (flowView graph spine anchorByTurn).drawn.turnIds = graph.turnIds := by
  simp only [Flow.turnIds, ProcessFlowView.drawn, flowView, List.map_map, ProcessGraphView.turnIds]
  rfl

/-- The edges that the drawing makes of a turn. -/
def edgesOf (spine : List String) (turnId : String) (turn : GraphTurnView) : List FlowEdge :=
  (turn.transitions.filterMap (flowEdge spine turnId turn)).map (·.toFlowEdge)

theorem edgesOf_source {turnId : String} {turn : GraphTurnView} {edge : FlowEdge} (h : edge ∈ edgesOf spine turnId turn) :
    edge.source = turnId := by
  obtain ⟨made, hmade, rfl⟩ := List.mem_map.1 h
  obtain ⟨transition, -, heq⟩ := List.mem_filterMap.1 hmade
  exact flowEdge_source heq

theorem drawn_edges_eq :
    (flowView graph spine anchorByTurn).drawn.edges = graph.turns.rows.flatMap fun row => edgesOf spine row.1 row.2 := by
  simp only [ProcessFlowView.drawn, flowView, flowEdges, List.map_flatMap]
  rfl

/-- The edges from a turn are those that the drawing makes of it. -/
theorem edges_from (rows : List (String × GraphTurnView)) (hnodup : (rows.map Prod.fst).Nodup) (id : String) :
    (rows.flatMap fun row => edgesOf spine row.1 row.2).filter (·.source = id) =
      ((rows.lookup id).map (edgesOf spine id)).getD [] := by
  induction rows with
  | nil => rfl
  | cons row rows ih =>
    obtain ⟨turnId, turn⟩ := row
    obtain ⟨hnew, hnodup⟩ := List.nodup_cons.1 hnodup
    rw [List.flatMap_cons, List.filter_append, ih hnodup, List.lookup_cons]
    by_cases hid : id = turnId
    · subst hid
      have hall : (edgesOf spine id turn).filter (·.source = id) = edgesOf spine id turn :=
        List.filter_eq_self.2 fun edge hedge => by simp [edgesOf_source hedge]
      rw [hall, Table.lookup_eq_none_iff.2 hnew]
      simp
    · have hnone : (edgesOf spine turnId turn).filter (·.source = id) = [] :=
        List.filter_eq_nil_iff.2 fun edge hedge => by simp [edgesOf_source hedge, Ne.symm hid]
      rw [hnone, beq_false_of_ne hid]
      rfl

/-- Where no aborted transition names a declared turn, the drawing follows the turns that the spine follows. -/
theorem outgoing_drawn (hahead : ¬ AbortsAhead graph) : outgoing (flowView graph spine anchorByTurn).drawn = spineOutgoing graph := by
  funext id
  have hfrom := @edges_from spine graph.turns.rows graph.turns.nodup id
  unfold outgoing
  rw [drawn_edges_eq, hfrom]
  unfold spineOutgoing ProcessGraphView.transitions Table.get?
  cases hturn : graph.turns.rows.lookup id with
  | none => rfl
  | some turn =>
    have htransitions : graph.transitions id = turn.transitions := by
      rw [ProcessGraphView.transitions, Table.get?, hturn]
      rfl
    simp only [Option.map_some, Option.getD_some, edgesOf, List.flatMap_map]
    rw [List.filterMap_eq_flatMap_toList, List.flatMap_assoc]
    refine List.flatMap_congr fun transition htransition => ?_
    refine flowEdge_outgoing (fun haborted next hnext hdeclared => hahead ?_) _ drawn_turnIds
    exact ⟨id, transition, htransitions ▸ htransition, haborted, next, hdeclared, hnext⟩

theorem completed_edgesOf {turnId : String} {turn : GraphTurnView} :
    (∃ edge ∈ edgesOf spine turnId turn, edge.lifecycleStatus = some .completed) ↔
      ∃ transition ∈ turn.transitions, transition.lifecycleStatus = some .completed := by
  constructor
  · rintro ⟨edge, hedge, hcompleted⟩
    obtain ⟨made, hmade, rfl⟩ := List.mem_map.1 hedge
    obtain ⟨transition, htransition, heq⟩ := List.mem_filterMap.1 hmade
    refine ⟨transition, htransition, ?_⟩
    cases hstatus : transition.lifecycleStatus with
    | some status =>
      rw [flowEdge_terminal hstatus, Option.some.injEq] at heq
      rw [← hcompleted, ← heq]
    | none =>
      cases hnext : transition.nextTurnId with
      | none =>
        rw [flowEdge_none hstatus hnext] at heq
        cases heq
      | some next =>
        rw [flowEdge_next hstatus hnext, Option.some.injEq] at heq
        rw [← heq] at hcompleted
        cases hcompleted
  · rintro ⟨transition, htransition, hcompleted⟩
    exact ⟨_, List.mem_map_of_mem (List.mem_filterMap.2 ⟨transition, htransition, flowEdge_terminal hcompleted⟩), rfl⟩

theorem mainPathOf_drawn (path : List String) : mainPathOf (flowView graph spine anchorByTurn).drawn path = spineNodes graph path := by
  have hcompletes : (∃ edge ∈ (flowView graph spine anchorByTurn).drawn.edges,
        some edge.source = path.getLast? ∧ edge.lifecycleStatus = some .completed) ↔
      ∃ id, path.getLast? = some id ∧ Completes graph id := by
    rw [drawn_edges_eq]
    constructor
    · rintro ⟨edge, hedge, hlast, hcompleted⟩
      obtain ⟨⟨turnId, turn⟩, hrow, hedge⟩ := List.mem_flatMap.1 hedge
      obtain ⟨transition, htransition, hstatus⟩ := completed_edgesOf.1 ⟨edge, hedge, hcompleted⟩
      have hturn : graph.turns.get? turnId = some turn := Table.lookup_of_mem graph.turns.nodup hrow
      rw [edgesOf_source hedge] at hlast
      exact ⟨turnId, hlast.symm, transition, by rw [ProcessGraphView.transitions, hturn]; exact htransition, hstatus⟩
    · rintro ⟨id, hlast, transition, htransition, hstatus⟩
      cases hturn : graph.turns.get? id with
      | none =>
        rw [ProcessGraphView.transitions, hturn] at htransition
        cases htransition
      | some turn =>
        rw [ProcessGraphView.transitions, hturn] at htransition
        obtain ⟨edge, hedge, hcompleted⟩ := completed_edgesOf.2 ⟨transition, htransition, hstatus⟩
        refine ⟨edge, List.mem_flatMap.2 ⟨(id, turn), Table.mem_of_lookup hturn, hedge⟩, ?_, hcompleted⟩
        rw [edgesOf_source hedge, hlast]
  unfold mainPathOf spineNodes
  congr 1
  refine if_congr ?_ rfl rfl
  rw [List.any_eq_true, Option.any_eq_true]
  simpa [Completes] using hcompletes

theorem head_spineNodes (path : List String) : (spineNodes graph path).head? = path.head?.map .turnId := by
  cases path with
  | nil => rfl
  | cons id path => rfl

end Drawn

/-! ## The whole view -/

theorem layoutEntry_declared {entry : String} (h : layoutEntry graph = some entry) : entry ∈ graph.turnIds := by
  obtain ⟨h, -⟩ := Option.filter_eq_some_iff.1 h
  rcases Option.or_eq_some_iff.1 h with hfind | ⟨-, hhead⟩
  · simpa using List.find?_some hfind
  · exact List.mem_of_head? hhead

/-- The drawing starts at its own entry. -/
theorem shortestSuccessfulPath_drawn (anchorByTurn : Table String String) (fuel : ℕ) :
    shortestSuccessfulPath fuel (flowView graph spine anchorByTurn).drawn = match layoutEntry graph with
      | none => some []
      | some entry => shortestSuccessfulTurnPath fuel entry (outgoing (flowView graph spine anchorByTurn).drawn) := by
  have hfind : (flowView graph spine anchorByTurn).drawn.entryTurnIds.find? (· ∈ graph.turnIds) =
      graph.entryTurnIds.find? (· ∈ graph.turnIds) := by
    simp [ProcessFlowView.drawn, flowView, List.find?_filter]
  unfold shortestSuccessfulPath layoutEntry
  rw [drawn_turnIds, hfind]
  cases (graph.entryTurnIds.find? (· ∈ graph.turnIds)).or graph.turnIds.head? with
  | none => rfl
  | some entry =>
    rw [Option.filter_some]
    by_cases hempty : entry = ""
    · simp [hempty]
    · simp [hempty]

/-- The drawing finds a path, and its main path is that of the nodes of this path. -/
theorem layoutWorkflow_drawn (graph : ProcessGraphView) (spine : List String) (anchorByTurn : Table String String) :
    ∃ n path layout, (∀ m, n ≤ m → shortestSuccessfulPath m (flowView graph spine anchorByTurn).drawn = some path ∧
        layoutWorkflow m (flowView graph spine anchorByTurn).drawn = some (.ok layout)) ∧
      layout.mainPath = spineNodes graph path := by
  obtain ⟨n, path, hpath, hnodup, hsub⟩ := shortestSuccessfulPath_spec (flowView graph spine anchorByTurn).drawn
  have hids : (flowView graph spine anchorByTurn).drawn.turnIds.Nodup := by
    rw [drawn_turnIds]
    exact graph.turns.nodup
  obtain ⟨n', layout, hlayout, hmain⟩ := layoutWorkflow_mainPath hids hnodup hsub
  refine ⟨max n n', path, layout, fun m hm => ?_, hmain.trans (mainPathOf_drawn path)⟩
  have hm' := hpath m (le_trans (le_max_left _ _) hm)
  exact ⟨hm', hlayout m (le_trans (le_max_right _ _) hm) hm'⟩

/-- The main path is the spine exactly when the drawing starts where the spine starts. -/
theorem mainPath_iff (hahead : ¬ AbortsAhead graph) {n : ℕ} (hspine : ∀ m, n ≤ m → spineOf m graph = some spine)
    (hhead : spine.head? = graph.primaryEntry) (anchorByTurn : Table String String) :
    ∃ n layout, (∀ m, n ≤ m → layoutWorkflow m (flowView graph spine anchorByTurn).drawn = some (.ok layout)) ∧
      (layout.mainPath = spineNodes graph spine ↔ layoutEntry graph = graph.primaryEntry) := by
  obtain ⟨n', path, layout, hlayout, hmain⟩ := layoutWorkflow_drawn graph spine anchorByTurn
  refine ⟨n', layout, fun m hm => (hlayout m hm).2, ?_⟩
  have hpath : ∀ m, n' ≤ m → (match layoutEntry graph with
      | none => some []
      | some entry => deriveSpine m graph entry) = some path := by
    intro m hm
    rw [← (hlayout m hm).1, shortestSuccessfulPath_drawn, outgoing_drawn hahead]
    rfl
  rw [hmain]
  constructor
  · intro heq
    -- the paths start at the two entries
    have hpathHead : path.head? = layoutEntry graph := by
      cases hentry : layoutEntry graph with
      | none =>
        have hnil := hpath n' (le_refl _)
        rw [hentry, Option.some.injEq] at hnil
        rw [← hnil]
        rfl
      | some entry =>
        obtain ⟨k, found, hfound, -, -, hshortest⟩ := deriveSpine_spec (layoutEntry_declared hentry)
        have hsame := hpath (max k n') (le_max_right _ _)
        rw [hentry] at hsame
        dsimp only at hsame
        rw [hfound _ (le_max_left _ _), Option.some.injEq] at hsame
        rw [← hsame]
        exact hshortest.walk.head
    have hheads := congrArg List.head? heq
    rw [head_spineNodes, head_spineNodes, hhead, hpathHead] at hheads
    exact Option.map_injective (fun _ _ h => NodeId.turnId.inj h) hheads
  · intro hentry
    have hsame := hpath (max n n') (le_max_right _ _)
    have hspine' := hspine (max n n') (le_max_left _ _)
    rw [hentry] at hsame
    rw [spineOf] at hspine'
    cases hprimary : graph.primaryEntry with
    | none =>
      rw [hprimary] at hsame hspine'
      rw [Option.some.inj (hsame.symm.trans hspine')]
    | some entry =>
      rw [hprimary] at hsame hspine'
      rw [Option.some.inj (hsame.symm.trans hspine')]

/-- What a flow view says of its graph. -/
structure ShowsGraph (graph : ProcessGraphView) (view : ProcessFlowView) : Prop where
  spine : ∀ entry, graph.primaryEntry = some entry → Shortest (Leads graph) (Completes graph) entry view.spine
  empty : graph.primaryEntry = none → view.spine = []
  nodes : view.nodes.map (·.turnId) = graph.turnIds
  anchors : ∀ node ∈ view.nodes, node.turnId ∉ view.spine →
    Owner (LeadsOff graph view.spine) view.spine node.turnId node.anchorTurnId
  forward : ∀ edge ∈ view.edges, edge.kind = .forward ↔ Forward view.spine edge
  mainPath : ¬ AbortsAhead graph → ∃ n layout, (∀ m, n ≤ m → layoutWorkflow m view.drawn = some (.ok layout)) ∧
    (layout.mainPath = spineNodes graph view.spine ↔ layoutEntry graph = graph.primaryEntry)

theorem buildProcessFlowView_shows (graph : ProcessGraphView) :
    ∃ n view, (∀ m, n ≤ m → buildProcessFlowView m graph = some view) ∧ ShowsGraph graph view := by
  obtain ⟨n, spine, hspine, hnodup, -, hhead, hshortest⟩ := spineOf_spec graph
  obtain ⟨n', anchorByTurn, hanchors, howner⟩ := deriveBranchAnchors_spec graph spine
  refine ⟨max n n', flowView graph spine anchorByTurn, fun m hm => ?_, ?_⟩
  · rw [buildProcessFlowView, hspine m (le_trans (le_max_left _ _) hm)]
    dsimp only
    rw [hanchors m (le_trans (le_max_right _ _) hm)]
    rfl
  · refine ⟨hshortest, fun hnone => ?_, ?_, fun node hnode hoff => ?_, fun edge hedge => ?_,
      fun hahead => mainPath_iff hahead hspine hhead anchorByTurn⟩
    · rw [hnone] at hhead
      exact List.head?_eq_none_iff.1 hhead
    · simp [flowView, flowNode, ProcessGraphView.turnIds]
    · obtain ⟨⟨turnId, turn⟩, -, rfl⟩ := List.mem_map.1 hnode
      have hnone : spineIndexByTurn spine turnId = none := by
        by_contra hsome
        obtain ⟨i, hi⟩ := Option.ne_none_iff_exists'.1 hsome
        exact hoff (List.mem_of_getElem? ((spineIndexByTurn_eq_some hnodup).1 hi))
      have hanchor : (flowNode graph spine anchorByTurn turnId turn).anchorTurnId = anchorByTurn.get? turnId := by
        simp [flowNode, hnone]
      change Owner (LeadsOff graph spine) spine turnId (flowNode graph spine anchorByTurn turnId turn).anchorTurnId
      rw [hanchor]
      exact howner turnId
    · obtain ⟨⟨turnId, turn⟩, -, hedge⟩ := List.mem_flatMap.1 hedge
      obtain ⟨transition, -, heq⟩ := List.mem_filterMap.1 hedge
      exact flowEdge_forward hnodup heq

/-! ## Drawings that leave the spine -/

/-- A drawing that finds another path than the spine has another main path. -/
theorem mainPath_ne {path : List String} (fuel : ℕ) (hspine : spineOf fuel graph = some spine)
    (hpath : ∀ anchorByTurn, shortestSuccessfulPath fuel (flowView graph spine anchorByTurn).drawn = some path)
    (hne : spineNodes graph path ≠ spineNodes graph spine) :
    ∃ n view layout, buildProcessFlowView n graph = some view ∧ layoutWorkflow n view.drawn = some (.ok layout) ∧
      layout.mainPath ≠ spineNodes graph view.spine := by
  obtain ⟨n, anchorByTurn, hanchors, -⟩ := deriveBranchAnchors_spec graph spine
  obtain ⟨n', found, layout, hlayout, hmain⟩ := layoutWorkflow_drawn graph spine anchorByTurn
  have hsame : spineOf (max fuel (max n n')) graph = some spine := by
    unfold spineOf at hspine ⊢
    cases hentry : graph.primaryEntry with
    | none =>
      rw [hentry] at hspine
      exact hspine
    | some entry =>
      rw [hentry] at hspine
      exact successfulTurnPath_mono (le_max_left _ _) hspine
  obtain ⟨hfound, hdrawn⟩ := hlayout (max fuel (max n n')) (le_trans (le_max_right _ _) (le_max_right _ _))
  rw [shortestSuccessfulPath_mono (le_max_left _ _) (hpath anchorByTurn), Option.some.injEq] at hfound
  refine ⟨max fuel (max n n'), flowView graph spine anchorByTurn, layout, ?_, hdrawn, ?_⟩
  · rw [buildProcessFlowView, hsame]
    dsimp only
    rw [hanchors _ (le_trans (le_max_left _ _) (le_max_right _ _))]
    rfl
  · rw [hmain, ← hfound]
    exact hne

/-- An automatic turn with nothing but its transitions. -/
def plainTurn (transitions : List Transition) : GraphTurnView where
  turnType := .automatic
  description := []
  sequential := false
  tools := none
  hasDynamicTools := false
  transitions
  transitionLabels := none
  reviewProduct := none
  publishedProduct := none
  publishedProducts := []
  consumedProducts := []
  optionalConsumedProducts := []

def completing : Transition := ⟨none, some .completed, none, none, none⟩

/-- The primary entry is not the first of the entries. -/
def secondEntryGraph : ProcessGraphView where
  id := "second"
  primaryEntryTurnId := "b"
  entryTurnIds := ["a", "b"]
  entries_nodup := by decide
  turns := ⟨[("a", plainTurn [completing]), ("b", plainTurn [completing])], by decide⟩

/-- The primary entry has an empty id. -/
def emptyIdGraph : ProcessGraphView where
  id := "empty"
  primaryEntryTurnId := ""
  entryTurnIds := [""]
  entries_nodup := by decide
  turns := ⟨[("", plainTurn [completing])], by decide⟩

/-- An aborted transition names the turn that completes. -/
def abortingGraph : ProcessGraphView where
  id := "aborting"
  primaryEntryTurnId := "a"
  entryTurnIds := ["a"]
  entries_nodup := by decide
  turns := ⟨[("a", plainTurn [⟨some "b", some .aborted, none, none, none⟩]), ("b", plainTurn [completing])], by decide⟩

theorem buildProcessFlowView_shows_fails :
    (∃ n view layout, buildProcessFlowView n secondEntryGraph = some view ∧ layoutWorkflow n view.drawn = some (.ok layout) ∧
      layout.mainPath ≠ spineNodes secondEntryGraph view.spine) ∧
    (∃ n view layout, buildProcessFlowView n emptyIdGraph = some view ∧ layoutWorkflow n view.drawn = some (.ok layout) ∧
      layout.mainPath ≠ spineNodes emptyIdGraph view.spine) ∧
    ∃ n view layout, buildProcessFlowView n abortingGraph = some view ∧ layoutWorkflow n view.drawn = some (.ok layout) ∧
      layout.mainPath ≠ spineNodes abortingGraph view.spine := by
  refine ⟨?_, ?_, ?_⟩
  · have hpath : ∀ anchorByTurn, shortestSuccessfulPath 3 (flowView secondEntryGraph ["b"] anchorByTurn).drawn = some ["a"] := fun _ => rfl
    exact mainPath_ne 3 (by decide) hpath (by decide)
  · have hpath : ∀ anchorByTurn, shortestSuccessfulPath 3 (flowView emptyIdGraph [""] anchorByTurn).drawn = some [] := fun _ => rfl
    exact mainPath_ne 3 (by decide) hpath (by decide)
  · have hpath : ∀ anchorByTurn, shortestSuccessfulPath 3 (flowView abortingGraph ["a", "b"] anchorByTurn).drawn = some ["a"] :=
      fun _ => rfl
    exact mainPath_ne 3 (by decide) hpath (by decide)

end Leitwerk.ProcessSdk.FlowView
