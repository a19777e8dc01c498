import Leitwerk.WorkflowGraph.Layout
import Mathlib.Data.List.Infix
/-!
# Every node gets a cell of its own

The successful path visits no turn twice. Placing a node keeps every node that
has a cell where it is, and no two nodes share one: a lane drifts until it is
free. In the end all nodes have cells, those of the main path in lane 0.
-/

namespace Leitwerk.WorkflowGraph

/-! ## The successful path -/

/-- The parents of a search: of known turns, that lead back. -/
structure Parents (known : List String) (parents : Table String (Option String)) : Prop where
  known : ∀ id, (parents.get? id).isSome → id ∈ known
  parent : ∀ id p, parents.get? id = some (some p) → (parents.get? p).isSome
  ranked : ∃ rank : String → ℕ, ∀ id p, parents.get? id = some (some p) → rank p < rank id

section Path

variable {known : List String} {parents : Table String (Option String)}

theorem parents_start {entry : String} (h : entry ∈ known) : Parents known (Table.empty.put entry none) := by
  have hget : ∀ id, (Table.empty.put entry none : Table String (Option String)).get? id = if id = entry then some none else none := by
    intro id
    rw [Table.get?_put, Table.get?_empty]
  refine ⟨fun id hid => ?_, fun id p hp => ?_, fun _ => 0, fun id p hp => ?_⟩
  · rw [hget] at hid
    split at hid
    · rename_i heq
      exact heq ▸ h
    · cases hid
  · rw [hget] at hp
    split at hp <;> cases hp
  · rw [hget] at hp
    split at hp <;> cases hp

theorem Parents.length_le (h : Parents known parents) : parents.rows.length ≤ known.length := by
  rw [← List.length_map (f := Prod.fst)]
  refine (parents.nodup.subperm fun id hid => h.known id ?_).length_le
  rw [Option.isSome_iff_ne_none]
  exact fun hnone => Table.lookup_eq_none_iff.1 hnone hid

/-- A new turn ranks above its parent, and is nobody's parent yet. -/
theorem Parents.put (h : Parents known parents) {id next : String} (hid : (parents.get? id).isSome) (hnext : next ∈ known)
    (hnew : parents.get? next = none) : Parents known (parents.put next (some id)) := by
  obtain ⟨rank, hrank⟩ := h.ranked
  have hne : ∀ p, (parents.get? p).isSome → p ≠ next := by
    rintro p hp rfl
    simp [hnew] at hp
  refine ⟨fun j hj => ?_, fun j p hp => ?_, Function.update rank next (rank id + 1), fun j p hp => ?_⟩
  · rw [Table.get?_put] at hj
    split at hj
    · rename_i heq
      exact heq ▸ hnext
    · exact h.known j hj
  · rw [Table.get?_put] at hp
    have hsome : (parents.get? p).isSome := by
      split at hp
      · cases hp
        exact hid
      · exact h.parent j p hp
    rw [Table.get?_put, if_neg (hne p hsome)]
    exact hsome
  · rw [Table.get?_put] at hp
    split at hp
    · rename_i heq
      cases hp
      simp [heq, hne id hid]
    · rename_i hj
      simp [hj, hne p (h.parent j p hp), hrank j p hp]

theorem visitOutgoing_spec {id : String} (outgoing : List (Option String)) (hout : ∀ next, some next ∈ outgoing → next ∈ known)
    (h : Parents known parents) (hid : (parents.get? id).isSome) :
    Parents known (visitOutgoing id outgoing parents).1 ∧ ((visitOutgoing id outgoing parents).1.get? id).isSome := by
  induction outgoing generalizing parents with
  | nil => exact ⟨h, hid⟩
  | cons next outgoing ih =>
    have hout' := fun n hn => hout n (List.mem_cons_of_mem _ hn)
    cases next with
    | none => exact ⟨h, hid⟩
    | some next =>
      rw [visitOutgoing]
      by_cases hnext : (parents.get? next).isSome
      · rw [if_pos hnext]
        exact ih hout' h hid
      · rw [if_neg hnext]
        have hnew : parents.get? next = none := by simpa using hnext
        have hput := h.put hid (hout next List.mem_cons_self) hnew
        have hkept : ((parents.put next (some id)).get? id).isSome := by
          rw [Table.get?_put]
          split
          · rfl
          · exact hid
        exact ih hout' hput hkept

/-- The parents of a turn that was met are a path of known turns, none of them twice. -/
theorem Parents.path (h : Parents known parents) {id : String} (hid : (parents.get? id).isSome) :
    (Search.trace (fun cursor => (parents.get? cursor).join) parents.rows.length id []).Nodup ∧
      Search.trace (fun cursor => (parents.get? cursor).join) parents.rows.length id [] ⊆ known := by
  obtain ⟨rank, hrank⟩ := h.ranked
  have hmem : ∀ j, (parents.get? j).isSome → j ∈ parents.rows.map Prod.fst := by
    intro j hj
    by_contra hnot
    rw [Table.get?, Table.lookup_eq_none_iff.2 hnot] at hj
    cases hj
  have hjoin : ∀ j p, (parents.get? j).join = some p → parents.get? j = some (some p) := fun j p hp => Option.join_eq_some_iff.1 hp
  obtain ⟨root, way, htrace, -, -, hnodup, hsub, -⟩ := Search.trace_spec (parents.rows.map Prod.fst) rank
    (fun j p hp => hrank j p (hjoin j p hp)) (fun j p hp => hmem p (h.parent j p (hjoin j p hp))) (hmem id hid)
  rw [List.length_map] at htrace
  rw [htrace]
  refine ⟨hnodup, fun j hj => h.known j ?_⟩
  rw [Option.isSome_iff_ne_none]
  exact fun hnone => Table.lookup_eq_none_iff.1 hnone (hsub hj)

theorem successfulTurnPath_spec {entry : String} {outgoing : String → List (Option String)} (hentry : entry ∈ known)
    (hout : ∀ id next, some next ∈ outgoing id → next ∈ known) (i : ℕ) (parents : Table String (Option String))
    (h : Parents known parents) :
    ∃ n path, (∀ m, n ≤ m → successfulTurnPath entry outgoing m i parents = some path) ∧ path.Nodup ∧ path ⊆ known := by
  generalize hk : known.length - i = k
  induction k using Nat.strong_induction_on generalizing i parents with
  | _ k ih =>
    cases hrow : parents.rows[i]? with
    | none =>
      refine ⟨1, [entry], fun m hm => ?_, List.nodup_singleton _, by simpa using hentry⟩
      obtain ⟨m, rfl⟩ := Nat.exists_eq_add_of_le' hm
      simp [successfulTurnPath, hrow]
    | some row =>
      obtain ⟨id, parent⟩ := row
      obtain ⟨hi, -⟩ := List.getElem?_eq_some_iff.1 hrow
      have hlength := h.length_le
      have hid : (parents.get? id).isSome := by
        rw [Table.get?, Table.lookup_of_mem parents.nodup (List.mem_of_getElem? hrow)]
        rfl
      obtain ⟨hvisited, hid'⟩ := visitOutgoing_spec (outgoing id) (hout id) h hid
      cases hsuccess : (visitOutgoing id (outgoing id) parents).2 with
      | true =>
        obtain ⟨hnodup, hsub⟩ := hvisited.path hid'
        refine ⟨1, _, fun m hm => ?_, hnodup, hsub⟩
        obtain ⟨m, rfl⟩ := Nat.exists_eq_add_of_le' hm
        simp [successfulTurnPath, hrow, hsuccess]
      | false =>
        obtain ⟨n, path, hpath, hspec⟩ := ih (known.length - (i + 1)) (by omega) (i + 1) _ hvisited rfl
        refine ⟨n + 1, path, fun m hm => ?_, hspec⟩
        obtain ⟨m, rfl⟩ := Nat.exists_eq_add_of_le' (Nat.le_of_add_left_le hm)
        rw [successfulTurnPath, hrow]
        simp only [hsuccess, Bool.false_eq_true, if_false]
        exact hpath m (by omega)

end Path

/-- The shortest successful path is found, of declared turns, none of them twice. -/
theorem shortestSuccessfulPath_spec (flow : Flow) :
    ∃ n spine, (∀ m, n ≤ m → shortestSuccessfulPath m flow = some spine) ∧ spine.Nodup ∧ spine ⊆ flow.turnIds := by
  unfold shortestSuccessfulPath
  cases hentry : (flow.entryTurnIds.find? (· ∈ flow.turnIds)).or flow.turnIds.head? with
  | none => exact ⟨0, [], fun _ _ => rfl, List.nodup_nil, List.nil_subset _⟩
  | some entry =>
    dsimp only
    split
    · exact ⟨0, [], fun _ _ => rfl, List.nodup_nil, List.nil_subset _⟩
    · have hmem : entry ∈ flow.turnIds := by
        rcases Option.or_eq_some_iff.1 hentry with hfind | ⟨-, hhead⟩
        · simpa using List.find?_some hfind
        · exact List.mem_of_head? hhead
      refine successfulTurnPath_spec hmem (fun id next hnext => ?_) 0 _ (parents_start hmem)
      simp only [outgoing, List.mem_flatMap, List.mem_filter] at hnext
      obtain ⟨edge, -, hedge⟩ := hnext
      split at hedge
      · simp at hedge
      · split at hedge
        · split at hedge
          · rename_i hturn
            obtain rfl := Option.some.inj (List.mem_singleton.1 hedge)
            simpa using hturn
          · cases hedge
        · cases hedge

/-! ## Free lanes -/

theorem freeLane_of_free {occupied : List (ℕ × ℤ)} {column steps : ℕ} {lane : ℤ} (h : (column, lane) ∉ occupied) :
    freeLane occupied column steps lane = lane := by
  cases steps with
  | zero => rfl
  | succ steps => rw [freeLane, if_neg h]

/-- Steps that end on an occupied cell have gone over distinct occupied cells, ever further from the middle. -/
theorem freeLane_occupied {occupied : List (ℕ × ℤ)} {column : ℕ} (steps : ℕ) (lane : ℤ)
    (h : (column, freeLane occupied column steps lane) ∈ occupied) :
    ∃ cells : List (ℕ × ℤ), cells.length = steps + 1 ∧ cells.Nodup ∧ cells ⊆ occupied ∧
      ∀ cell ∈ cells, lane.natAbs ≤ cell.2.natAbs := by
  induction steps generalizing lane with
  | zero => exact ⟨[(column, lane)], rfl, List.nodup_singleton _, by simpa [freeLane] using h, by simp⟩
  | succ steps ih =>
    by_cases hoccupied : (column, lane) ∈ occupied
    · rw [freeLane, if_pos hoccupied] at h
      obtain ⟨cells, hlength, hnodup, hsub, hfar⟩ := ih _ h
      have hstep : lane.natAbs < (lane + (if lane < 0 then -1 else 1)).natAbs := by
        split <;> omega
      refine ⟨(column, lane) :: cells, by simp [hlength], List.nodup_cons.2 ⟨fun hin => ?_, hnodup⟩,
        List.cons_subset.2 ⟨hoccupied, hsub⟩, fun cell hcell => ?_⟩
      · exact absurd (hfar _ hin) (not_le.2 hstep)
      · rcases List.mem_cons.1 hcell with rfl | hcell
        · exact le_refl _
        · exact hstep.le.trans (hfar cell hcell)
    · rw [freeLane, if_neg hoccupied] at h
      exact absurd h hoccupied

/-- As many steps as there are occupied cells are enough. -/
theorem freeLane_free (occupied : List (ℕ × ℤ)) (column : ℕ) (lane : ℤ) :
    (column, freeLane occupied column occupied.length lane) ∉ occupied := by
  intro h
  obtain ⟨cells, hlength, hnodup, hsub, -⟩ := freeLane_occupied occupied.length lane h
  have hle := (hnodup.subperm hsub).length_le
  omega

/-! ## Placing -/

/-- Known nodes, each once, each in a cell of its own. -/
structure Placement (nodes : List WorkflowNode) (placed : List Slot) : Prop where
  known : ∀ slot ∈ placed, (byId nodes slot.id).isSome
  once : (placed.map (·.id)).Nodup
  apart : (placed.map (·.cell)).Nodup

/-- More slots behind those that are there. -/
def Grows (nodes : List WorkflowNode) (placed placed' : List Slot) : Prop :=
  (Placement nodes placed → Placement nodes placed') ∧ placed <+: placed'

section Placing

variable {nodes : List WorkflowNode} {placed placed' placed'' : List Slot}

theorem Grows.refl (placed : List Slot) : Grows nodes placed placed := ⟨id, List.prefix_rfl⟩

theorem Grows.trans (h : Grows nodes placed placed') (h' : Grows nodes placed' placed'') : Grows nodes placed placed'' :=
  ⟨h'.1 ∘ h.1, h.2.trans h'.2⟩

theorem Grows.foldl {α : Type} {f : List Slot → α → List Slot} (h : ∀ placed a, Grows nodes placed (f placed a)) (l : List α)
    (placed : List Slot) : Grows nodes placed (l.foldl f placed) := by
  induction l generalizing placed with
  | nil => exact Grows.refl placed
  | cons a l ih => exact (h placed a).trans (ih _)

theorem place_grows (placed : List Slot) (id : NodeId) (column : ℕ) (lane : ℤ) :
    Grows nodes placed (place nodes placed id column lane) := by
  unfold place
  by_cases hskip : (byId nodes id).isNone ∨ id ∈ placed.map (·.id)
  · rw [if_pos hskip]
    exact Grows.refl placed
  · rw [if_neg hskip]
    obtain ⟨hid, hnew⟩ := not_or.1 hskip
    refine ⟨fun h => ⟨?_, ?_, ?_⟩, List.prefix_append _ _⟩
    · intro slot hslot
      rcases List.mem_append.1 hslot with hslot | hslot
      · exact h.known slot hslot
      · obtain rfl := List.mem_singleton.1 hslot
        simpa [Option.isSome_iff_ne_none] using hid
    · rw [List.map_append]
      exact List.nodup_append'.2 ⟨h.once, List.nodup_singleton _, by simpa using hnew⟩
    · have hfree := freeLane_free (placed.map (·.cell)) column lane
      rw [List.length_map] at hfree
      rw [List.map_append]
      exact List.nodup_append'.2 ⟨h.apart, List.nodup_singleton _, by
        rw [List.map_singleton, List.disjoint_singleton]
        exact hfree⟩

/-- A known node has a cell once it is placed. -/
theorem place_mem {id : NodeId} (hid : (byId nodes id).isSome) (column : ℕ) (lane : ℤ) :
    id ∈ (place nodes placed id column lane).map (·.id) := by
  unfold place
  split
  · rename_i h
    exact h.resolve_left (by simpa [Option.isSome_iff_ne_none] using hid)
  · simp

theorem placeTargets_grows (edges : List WorkflowEdge) (placed : List Slot) (parent : Slot) :
    Grows nodes placed (placeTargets nodes edges placed parent) := by
  refine Grows.foldl (fun placed edge => ?_) _ placed
  cases byId nodes edge.target with
  | none => exact Grows.refl placed
  | some next => exact place_grows _ _ _ _

theorem placeReachable_grows (edges : List WorkflowEdge) (steps i : ℕ) (placed : List Slot) :
    Grows nodes placed (placeReachable nodes edges steps i placed) := by
  induction steps generalizing i placed with
  | zero => exact Grows.refl placed
  | succ steps ih =>
    rw [placeReachable]
    cases placed[i]? with
    | none => exact Grows.refl placed
    | some parent => exact (placeTargets_grows edges placed parent).trans (ih _ _)

theorem placeOthers_grows (mainPath : List NodeId) (placed : List Slot) :
    Grows nodes placed (placeOthers nodes mainPath placed) :=
  Grows.foldl (fun _ _ => place_grows _ _ _ _) nodes placed

/-- Every node that is there has a cell in the end. -/
theorem placeOthers_mem (mainPath : List NodeId) (placed : List Slot) {node : WorkflowNode} (hnode : node ∈ nodes)
    (hid : (byId nodes node.id).isSome) : node.id ∈ (placeOthers nodes mainPath placed).map (·.id) := by
  unfold placeOthers
  obtain ⟨before, behind, hsplit⟩ := List.append_of_mem hnode
  -- the fold over the nodes behind this one only adds slots
  have hfold : ∀ l : List WorkflowNode, l = before ++ node :: behind →
      node.id ∈ (l.foldl (fun placed node =>
        place nodes placed node.id (if node.synthetic then mainPath.length - 1 else 0) 1) placed).map (·.id) := by
    rintro l rfl
    rw [List.foldl_append, List.foldl_cons]
    have hgrows : ∀ placed, Grows nodes placed (behind.foldl (fun placed node =>
        place nodes placed node.id (if node.synthetic then mainPath.length - 1 else 0) 1) placed) :=
      Grows.foldl (fun placed node => place_grows placed node.id _ _) behind
    exact ((hgrows _).2.map (·.id)).subset (place_mem hid _ _)
  exact hfold nodes hsplit

/-- The nodes of the main path take the cells of lane 0, from the first column on. -/
theorem placeMainPath_eq {mainPath : List NodeId} (hnodup : mainPath.Nodup) (hknown : ∀ id ∈ mainPath, (byId nodes id).isSome) :
    placeMainPath nodes mainPath = mainPath.zipIdx.map fun row => ⟨row.1, row.2, 0⟩ := by
  have hfold : ∀ (rest : List NodeId) (k : ℕ) (placed : List Slot), rest.Nodup → (∀ id ∈ rest, (byId nodes id).isSome) →
      (∀ slot ∈ placed, slot.column < k ∧ slot.id ∉ rest) →
      (rest.zipIdx k).foldl (fun placed row => place nodes placed row.1 row.2 0) placed =
        placed ++ (rest.zipIdx k).map fun row => ⟨row.1, row.2, 0⟩ := by
    intro rest
    induction rest with
    | nil => simp
    | cons id rest ih =>
      intro k placed hrest hids hplaced
      obtain ⟨hid, hrest'⟩ := List.nodup_cons.1 hrest
      have hplace : place nodes placed id k 0 = placed ++ [⟨id, k, 0⟩] := by
        have hnew : ¬ ((byId nodes id).isNone ∨ id ∈ placed.map (·.id)) := by
          rintro (hnone | hin)
          · simpa [Option.isNone_iff_eq_none.1 hnone] using hids id List.mem_cons_self
          · obtain ⟨slot, hslot, rfl⟩ := List.mem_map.1 hin
            exact (hplaced slot hslot).2 List.mem_cons_self
        have hfree : (k, (0 : ℤ)) ∉ placed.map (·.cell) := by
          rintro hin
          obtain ⟨slot, hslot, hcell⟩ := List.mem_map.1 hin
          have hlt := (hplaced slot hslot).1
          simp only [Slot.cell, Prod.mk.injEq] at hcell
          omega
        rw [place, if_neg hnew, freeLane_of_free hfree]
      rw [List.zipIdx_cons, List.foldl_cons, List.map_cons]
      dsimp only
      rw [hplace, ih (k + 1) _ hrest' (fun j hj => hids j (List.mem_cons_of_mem _ hj)), List.append_assoc]
      · rfl
      · intro slot hslot
        rcases List.mem_append.1 hslot with hslot | hslot
        · obtain ⟨hlt, hnot⟩ := hplaced slot hslot
          exact ⟨by omega, fun hin => hnot (List.mem_cons_of_mem _ hin)⟩
        · obtain rfl := List.mem_singleton.1 hslot
          exact ⟨Nat.lt_succ_self k, hid⟩
  exact hfold mainPath 0 [] hnodup hknown (by simp)

theorem placeNodes_spec {mainPath : List NodeId} (edges : List WorkflowEdge) (hnodup : mainPath.Nodup)
    (hknown : ∀ id ∈ mainPath, (byId nodes id).isSome) :
    Placement nodes (placeNodes nodes edges mainPath) ∧
      (∀ node ∈ nodes, (byId nodes node.id).isSome → node.id ∈ (placeNodes nodes edges mainPath).map (·.id)) ∧
      ∀ i id, mainPath[i]? = some id → ⟨id, i, 0⟩ ∈ placeNodes nodes edges mainPath := by
  have hmain := placeMainPath_eq hnodup hknown
  have hgrows : Grows nodes (placeMainPath nodes mainPath) (placeNodes nodes edges mainPath) :=
    (placeReachable_grows edges nodes.length 0 _).trans (placeOthers_grows mainPath _)
  have hstart : Placement nodes (placeMainPath nodes mainPath) :=
    (Grows.foldl (fun placed (row : NodeId × ℕ) => place_grows placed row.1 row.2 0) mainPath.zipIdx []).1
      ⟨by simp, List.nodup_nil, List.nodup_nil⟩
  refine ⟨hgrows.1 hstart, fun node hnode hid => placeOthers_mem mainPath _ hnode hid, fun i id hi => ?_⟩
  refine hgrows.2.subset ?_
  rw [hmain, List.mem_map]
  exact ⟨(id, i), List.mk_mem_zipIdx_iff_getElem?.2 hi, rfl⟩

end Placing

end Leitwerk.WorkflowGraph
