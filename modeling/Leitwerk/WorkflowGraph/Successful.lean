import Leitwerk.Lib.BreadthFirst
import Leitwerk.WorkflowGraph.Placement
/-!
# The successful path is a shortest one

The keys of the parents that the search keeps are the turns in the order in
which it met them, and their levels are those of a breadth-first search.
-/

namespace Leitwerk.WorkflowGraph

open BreadthFirst

variable {R : String → String → Prop} {goal : String → Prop} {entry : String} {parents : Table String (Option String)}

/-- The turns that were met, in their order. -/
def met (parents : Table String (Option String)) : List String := parents.rows.map Prod.fst

/-- The parent of a turn that was met from another. -/
def parentOf (parents : Table String (Option String)) (cursor : String) : Option String := (parents.get? cursor).join

/-- The search has looked at the first `done` turns that it met. -/
def Searched (R : String → String → Prop) (goal : String → Prop) (entry : String) (parents : Table String (Option String))
    (done : ℕ) : Prop :=
  ∃ depth, Levels R goal entry (met parents) depth done ∧ Tree R entry (met parents) depth (parentOf parents)

theorem mem_met {id : String} : id ∈ met parents ↔ (parents.get? id).isSome := by
  rw [Option.isSome_iff_ne_none]
  refine ⟨fun hin hnone => Table.lookup_eq_none_iff.1 hnone hin, fun hne => ?_⟩
  by_contra hnot
  exact hne (Table.lookup_eq_none_iff.2 hnot)

theorem searched_start (entry : String) : Searched R goal entry (Table.empty.put entry none) 0 := by
  have hparent : ∀ v, parentOf (Table.empty.put entry none) v = none := by
    intro v
    rw [parentOf, Table.get?_put, Table.get?_empty]
    split <;> rfl
  refine ⟨fun _ => 0, Levels.init, fun v hv _ => List.mem_singleton.1 hv, fun v p hp => ?_⟩
  rw [hparent] at hp
  cases hp

/-- A turn that is new comes last. -/
theorem met_put (id : String) {next : String} (hnew : next ∉ met parents) :
    met (parents.put next (some id)) = met parents ++ [next] ∧
      parentOf (parents.put next (some id)) = Function.update (parentOf parents) next (some id) := by
  have hnone : parents.get? next = none := Table.lookup_eq_none_iff.2 hnew
  refine ⟨by rw [met, Table.rows_put hnone, List.map_append]; rfl, funext fun cursor => ?_⟩
  rw [parentOf, Table.get?_put]
  split
  · rename_i heq
    rw [heq, Function.update_self]
    rfl
  · rename_i hne
    rw [Function.update_of_ne hne]
    rfl

/-- What a turn leads to is met, up to a success. -/
theorem visitOutgoing_searched {id : String} {done : ℕ} (outgoing : List (Option String))
    (hstep : ∀ next, some next ∈ outgoing → R id next) (h : Searched R goal entry parents done)
    (hid : (met parents)[done]? = some id) :
    Searched R goal entry (visitOutgoing id outgoing parents).1 done ∧ met parents <+: met (visitOutgoing id outgoing parents).1 ∧
      ((visitOutgoing id outgoing parents).2 = true → none ∈ outgoing) ∧
      ((visitOutgoing id outgoing parents).2 = false →
        none ∉ outgoing ∧ ∀ next, some next ∈ outgoing → next ∈ met (visitOutgoing id outgoing parents).1) := by
  induction outgoing generalizing parents with
  | nil => exact ⟨h, List.prefix_rfl, fun hfalse => Bool.noConfusion hfalse, fun _ => ⟨List.not_mem_nil, fun _ hn => absurd hn List.not_mem_nil⟩⟩
  | cons next outgoing ih =>
    have hstep' := fun n hn => hstep n (List.mem_cons_of_mem _ hn)
    cases next with
    | none => exact ⟨h, List.prefix_rfl, fun _ => List.mem_cons_self, fun hfalse => Bool.noConfusion hfalse⟩
    | some next =>
      -- the turn that is looked at next is met, now or before
      have hvisit : ∃ parents', (if (parents.get? next).isSome then parents else parents.put next (some id)) = parents' ∧
          Searched R goal entry parents' done ∧ met parents <+: met parents' ∧ next ∈ met parents' := by
        refine ⟨_, rfl, ?_⟩
        by_cases hnext : (parents.get? next).isSome
        · rw [if_pos hnext]
          exact ⟨h, List.prefix_rfl, mem_met.2 hnext⟩
        · rw [if_neg hnext]
          have hnew : next ∉ met parents := fun hin => hnext (mem_met.1 hin)
          obtain ⟨depth, hlevels, htree⟩ := h
          obtain ⟨hmet, hparent⟩ := met_put id hnew
          refine ⟨⟨Function.update depth next (depth id + 1), ?_, ?_⟩, hmet ▸ List.prefix_append _ _, by rw [hmet]; simp⟩
          · rw [hmet]
            exact hlevels.push hid hnew
          · rw [hmet, hparent]
            exact htree.push (List.mem_of_getElem? hid) hnew (hstep next List.mem_cons_self)
      obtain ⟨parents', heq, hsearched, hprefix, hmem⟩ := hvisit
      have hid' : (met parents')[done]? = some id := by
        obtain ⟨rest, hrest⟩ := hprefix
        rw [← hrest, List.getElem?_append_left (List.getElem?_eq_some_iff.1 hid).1]
        exact hid
      rw [visitOutgoing, heq]
      obtain ⟨hs, hp, htrue, hfalse⟩ := ih hstep' hsearched hid'
      refine ⟨hs, hprefix.trans hp, fun hsuccess => List.mem_cons_of_mem _ (htrue hsuccess), fun hnone => ?_⟩
      obtain ⟨hnot, hall⟩ := hfalse hnone
      refine ⟨by simpa using hnot, fun n hn => ?_⟩
      rcases List.mem_cons.1 hn with hn | hn
      · cases hn
        exact hp.subset hmem
      · exact hall n hn

/-- What the search returns is a shortest walk to a goal. -/
theorem successfulTurnPath_shortest {outgoing : String → List (Option String)}
    (hstep : ∀ id next, some next ∈ outgoing id → R id next)
    (hall : ∀ id next, R id next → none ∉ outgoing id → some next ∈ outgoing id)
    (hgoal : ∀ id, goal id ↔ none ∈ outgoing id) (fuel i : ℕ) {path : List String} (h : Searched R goal entry parents i)
    (hpath : successfulTurnPath entry outgoing fuel i parents = some path) : Shortest R goal entry path := by
  induction fuel generalizing i parents with
  | zero => cases hpath
  | succ fuel ih =>
    rw [successfulTurnPath] at hpath
    have hmet : (met parents)[i]? = (parents.rows[i]?).map Prod.fst := List.getElem?_map
    cases hrow : parents.rows[i]? with
    | none =>
      rw [hrow] at hpath hmet
      obtain ⟨depth, hlevels, -⟩ := h
      cases hpath
      exact hlevels.exhausted hmet
    | some row =>
      obtain ⟨id, parent⟩ := row
      rw [hrow] at hpath hmet
      obtain ⟨hsearched, hprefix, htrue, hfalse⟩ := visitOutgoing_searched (outgoing id) (hstep id) h hmet
      have hid : (met (visitOutgoing id (outgoing id) parents).1)[i]? = some id := by
        obtain ⟨rest, hrest⟩ := hprefix
        rw [← hrest, List.getElem?_append_left (List.getElem?_eq_some_iff.1 hmet).1]
        exact hmet
      obtain ⟨depth, hlevels, htree⟩ := hsearched
      dsimp only at hpath
      generalize visitOutgoing id (outgoing id) parents = visited at *
      obtain ⟨parents', success⟩ := visited
      cases success with
      | true =>
        rw [if_pos rfl, Option.some.injEq] at hpath
        obtain ⟨root, way, htrace, hroot, hlast, -, hsub, hchain⟩ := Search.trace_spec (met parents') depth
          (fun v p hp => by have := (htree.step v p hp).2.2.2; omega) (fun v p hp => (htree.step v p hp).1) (List.mem_of_getElem? hid)
        rw [met, List.length_map] at htrace
        rw [← hpath]
        change Shortest R goal entry (Search.trace (parentOf parents') parents'.rows.length id [])
        rw [htrace]
        exact hlevels.found htree hid ((hgoal id).2 (htrue rfl)) hroot hsub hlast hchain
      | false =>
        obtain ⟨hnone, hin⟩ := hfalse rfl
        rw [if_neg Bool.false_ne_true] at hpath
        refine ih (i + 1) ⟨depth, hlevels.advance hid (fun hg => hnone ((hgoal id).1 hg)) ?_, htree⟩ hpath
        exact fun next hr => hin next (hall id next hr hnone)

/-- More steps change nothing. -/
theorem successfulTurnPath_mono {outgoing : String → List (Option String)} {fuel fuel' i : ℕ} (hle : fuel ≤ fuel') {path : List String}
    (h : successfulTurnPath entry outgoing fuel i parents = some path) :
    successfulTurnPath entry outgoing fuel' i parents = some path := by
  induction fuel generalizing fuel' i parents with
  | zero => cases h
  | succ fuel ih =>
    obtain ⟨fuel', rfl⟩ := Nat.exists_eq_add_of_le' (Nat.le_of_add_left_le hle)
    rw [successfulTurnPath] at h ⊢
    cases hrow : parents.rows[i]? with
    | none =>
      rw [hrow] at h
      exact h
    | some row =>
      obtain ⟨id, parent⟩ := row
      rw [hrow] at h
      dsimp only at h ⊢
      cases hsuccess : (visitOutgoing id (outgoing id) parents).2 with
      | true =>
        rw [hsuccess] at h
        exact h
      | false =>
        rw [hsuccess] at h
        exact ih (by omega) h

theorem shortestSuccessfulPath_mono {flow : Flow} {fuel fuel' : ℕ} (hle : fuel ≤ fuel') {path : List String}
    (h : shortestSuccessfulPath fuel flow = some path) : shortestSuccessfulPath fuel' flow = some path := by
  unfold shortestSuccessfulPath at h ⊢
  cases hentry : (flow.entryTurnIds.find? (· ∈ flow.turnIds)).or flow.turnIds.head? with
  | none =>
    rw [hentry] at h
    exact h
  | some entry =>
    rw [hentry] at h
    dsimp only at h ⊢
    split
    · rename_i hempty
      rw [if_pos hempty] at h
      exact h
    · rename_i hempty
      rw [if_neg hempty] at h
      exact successfulTurnPath_mono hle h

end Leitwerk.WorkflowGraph
