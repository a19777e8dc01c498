import Leitwerk.Lib.JsString
import Leitwerk.Lib.Topological
import Mathlib.Data.List.Nodup
import Mathlib.Data.List.Perm.Subperm
/-!
# Dependencies first

`dependency-order.ts`. `visit` goes down into the dependencies of an id before it
adds the id, and throws where it comes back to an id that it is still visiting.
A call is given a depth; one that goes deeper has no outcome. What is being
visited is a path to the current id, so that coming back closes a cycle, and
what was added is sorted. No path is longer than there are ids.
-/

namespace Leitwerk.DependencyOrder

open JsString (lit)
open Relation (TransGen)
open Topological

/-! ## The traversal -/

/-- The two sets of `orderDependencies`, in insertion order. -/
structure Sets where
  visiting : List JsString
  ordered : List JsString

/-- What a call comes to: it returns or throws, unless it goes too deep. -/
abbrev Outcome (α : Type) := ExceptT JsString Option α

/-- `set.add(id)`. -/
def add (set : List JsString) (id : JsString) : List JsString := if id ∈ set then set else set ++ [id]

/-- `set.delete(id)`. -/
def delete (set : List JsString) (id : JsString) : List JsString := set.filter (· ≠ id)

section
variable (dependencies : JsString → List JsString) (cycleMessage : JsString → JsString)

def visit : ℕ → Sets → JsString → Outcome Sets
  | 0, _, _ => ExceptT.mk none
  | depth + 1, s, id =>
    if id ∈ s.ordered then pure s
    else if id ∈ s.visiting then throw (cycleMessage id)
    else do
      let s ← (dependencies id).foldlM (visit depth) { s with visiting := add s.visiting id }
      return { visiting := delete s.visiting id, ordered := add s.ordered id }

def orderDependencies (depth : ℕ) (roots : List JsString) : Outcome (List JsString) := do
  let s ← roots.foldlM (visit dependencies cycleMessage depth) ⟨[], []⟩
  return s.ordered

end

/-! ## One visit -/

variable {dependencies : JsString → List JsString} {cycleMessage : JsString → JsString} {nodes : List JsString}

/-- The ids being visited are ids of the graph, each once, and not added yet; those
that were added are sorted. -/
structure Inv (dependencies : JsString → List JsString) (nodes : List JsString) (s : Sets) : Prop where
  visiting_nodup : s.visiting.Nodup
  visiting_nodes : ∀ id ∈ s.visiting, id ∈ nodes
  ordered_nodup : s.ordered.Nodup
  disjoint : ∀ id ∈ s.visiting, id ∉ s.ordered
  sorted : Sorted dependencies s.ordered

/-- What visiting these ids does when it returns. -/
structure Visits (dependencies : JsString → List JsString) (nodes : List JsString) (s : Sets) (ids : List JsString)
    (s' : Sets) : Prop where
  inv : Inv dependencies nodes s'
  visiting : s'.visiting = s.visiting
  kept : ∀ id ∈ s.ordered, id ∈ s'.ordered
  added : ∀ id ∈ ids, id ∈ s'.ordered
  below : ∀ id ∈ s'.ordered, id ∈ s.ordered ∨ Below dependencies ids id

/-- A cycle below these ids. -/
def HasCycle (dependencies : JsString → List JsString) (ids : List JsString) (id : JsString) : Prop :=
  Below dependencies ids id ∧ Cyclic dependencies id

/-- It returns, or throws at an id on a cycle. -/
def Settles (dependencies : JsString → List JsString) (cycleMessage : JsString → JsString) (nodes : List JsString)
    (s : Sets) (ids : List JsString) (outcome : Outcome Sets) : Prop :=
  (∃ s', outcome.run = some (.ok s') ∧ Visits dependencies nodes s ids s') ∨
    ∃ id, outcome.run = some (.error (cycleMessage id)) ∧ HasCycle dependencies ids id

theorem Visits.nil {s : Sets} (h : Inv dependencies nodes s) : Visits dependencies nodes s [] s :=
  ⟨h, rfl, fun _ hid => hid, by simp, fun _ hid => .inl hid⟩

theorem Visits.append {s s' s'' : Sets} {id : JsString} {ids : List JsString} (h : Visits dependencies nodes s [id] s')
    (h' : Visits dependencies nodes s' ids s'') : Visits dependencies nodes s (id :: ids) s'' := by
  refine ⟨h'.inv, h'.visiting.trans h.visiting, fun i hi => h'.kept i (h.kept i hi), ?_, fun i hi => ?_⟩
  · intro i hi
    rcases List.mem_cons.1 hi with rfl | hi
    · exact h'.kept i (h.added i (List.mem_singleton_self i))
    · exact h'.added i hi
  · rcases h'.below i hi with hi | hi
    · rcases h.below i hi with hi | hi
      · exact .inl hi
      · exact .inr (hi.mono (by simp))
    · exact .inr (hi.mono fun _ => List.mem_cons_of_mem id)

/-- Visits of several ids, by the visit of each. -/
theorem settles_foldlM {f : Sets → JsString → Outcome Sets} {visiting ids : List JsString}
    (hf : ∀ s, Inv dependencies nodes s → s.visiting = visiting → ∀ id ∈ ids,
      Settles dependencies cycleMessage nodes s [id] (f s id))
    {s : Sets} (hs : Inv dependencies nodes s) (hvisiting : s.visiting = visiting) :
    Settles dependencies cycleMessage nodes s ids (ids.foldlM f s) := by
  induction ids generalizing s with
  | nil => exact .inl ⟨s, rfl, .nil hs⟩
  | cons id ids ih =>
    rw [List.foldlM_cons]
    rcases hf s hs hvisiting id List.mem_cons_self with ⟨s', hrun, hvisits⟩ | ⟨c, hrun, hcycle⟩
    · have hrest := ih (fun t ht hv i hi => hf t ht hv i (List.mem_cons_of_mem id hi)) hvisits.inv
        (hvisits.visiting.trans hvisiting)
      have hbind : (f s id >>= fun s' => ids.foldlM f s').run = (ids.foldlM f s').run := by
        rw [ExceptT.run_bind, hrun]
        rfl
      rcases hrest with ⟨s'', hrun', hvisits'⟩ | ⟨c, hrun', hcycle⟩
      · exact .inl ⟨s'', hbind.trans hrun', hvisits.append hvisits'⟩
      · exact .inr ⟨c, hbind.trans hrun', hcycle.1.mono fun _ => List.mem_cons_of_mem id, hcycle.2⟩
    · refine .inr ⟨c, ?_, hcycle.1.mono (by simp), hcycle.2⟩
      rw [ExceptT.run_bind, hrun]
      rfl

theorem add_new {set : List JsString} {id : JsString} (h : id ∉ set) : add set id = set ++ [id] := if_neg h

theorem delete_last {set : List JsString} {id : JsString} (h : id ∉ set) : delete (set ++ [id]) id = set := by
  unfold delete
  rw [List.filter_append, List.filter_eq_self.2 fun i hi => by simpa using ne_of_mem_of_not_mem hi h]
  simp

theorem nodup_concat {set : List JsString} {id : JsString} (hset : set.Nodup) (h : id ∉ set) : (set ++ [id]).Nodup := by
  rw [← List.concat_eq_append]
  exact hset.concat h

/-- The id that is visited is marked. -/
theorem Inv.enter {s : Sets} {id : JsString} (h : Inv dependencies nodes s) (hid : id ∈ nodes) (hordered : id ∉ s.ordered)
    (hvisiting : id ∉ s.visiting) : Inv dependencies nodes { s with visiting := s.visiting ++ [id] } := by
  refine ⟨nodup_concat h.visiting_nodup hvisiting, ?_, h.ordered_nodup, ?_, h.sorted⟩
  · intro i hi
    rcases List.mem_append.1 hi with hi | hi
    · exact h.visiting_nodes i hi
    · rwa [List.mem_singleton.1 hi]
  · intro i hi
    rcases List.mem_append.1 hi with hi | hi
    · exact h.disjoint i hi
    · rwa [List.mem_singleton.1 hi]

/-- The id is added after all its dependencies. -/
theorem Visits.leave {s s' : Sets} {id : JsString} (hs : Inv dependencies nodes s) (hvisiting : id ∉ s.visiting)
    (h : Visits dependencies nodes { s with visiting := s.visiting ++ [id] } (dependencies id) s') :
    Visits dependencies nodes s [id] { visiting := delete s'.visiting id, ordered := add s'.ordered id } := by
  have hentered : s'.visiting = s.visiting ++ [id] := h.visiting
  have hnew : id ∉ s'.ordered := h.inv.disjoint id (by simp [hentered])
  rw [hentered, delete_last hvisiting, add_new hnew]
  refine ⟨⟨hs.visiting_nodup, hs.visiting_nodes, nodup_concat h.inv.ordered_nodup hnew, ?_, h.inv.sorted.concat h.added⟩,
    rfl, ?_, by simp, ?_⟩
  · intro i hi hadded
    rcases List.mem_append.1 hadded with hordered | heq
    · exact h.inv.disjoint i (by simp [hentered, hi]) hordered
    · exact hvisiting (List.mem_singleton.1 heq ▸ hi)
  · exact fun i hi => List.mem_append_left _ (h.kept i hi)
  · intro i hi
    rcases List.mem_append.1 hi with hi | hi
    · exact (h.below i hi).imp_right below_of_next
    · exact .inr (below_root hi)

/-- A visit settles. The ids being visited lead to the current one, and there is more
depth than there are ids to enter. -/
theorem visit_settles (hclosed : ∀ id ∈ nodes, ∀ dependency ∈ dependencies id, dependency ∈ nodes) (depth : ℕ) {s : Sets}
    {id : JsString} (hs : Inv dependencies nodes s) (hid : id ∈ nodes)
    (hpath : ∀ v ∈ s.visiting, TransGen (Step dependencies) v id) (hdepth : nodes.length < s.visiting.length + depth) :
    Settles dependencies cycleMessage nodes s [id] (visit dependencies cycleMessage depth s id) := by
  induction depth generalizing s id with
  | zero =>
    have := (List.subperm_of_subset hs.visiting_nodup hs.visiting_nodes).length_le
    omega
  | succ depth ih =>
    unfold visit
    split
    · rename_i hordered
      exact .inl ⟨s, rfl, hs, rfl, fun _ hi => hi, by simpa using hordered, fun _ hi => .inl hi⟩
    · rename_i hordered
      split
      · rename_i hvisiting
        exact .inr ⟨id, rfl, below_root (List.mem_singleton_self id), hpath id hvisiting⟩
      · rename_i hvisiting
        rw [add_new hvisiting]
        have hdown : ∀ t, Inv dependencies nodes t → t.visiting = s.visiting ++ [id] → ∀ dependency ∈ dependencies id,
            Settles dependencies cycleMessage nodes t [dependency] (visit dependencies cycleMessage depth t dependency) := by
          intro t ht hv dependency hmem
          refine ih ht (hclosed id hid dependency hmem) ?_ ?_
          · intro v hvmem
            rw [hv] at hvmem
            rcases List.mem_append.1 hvmem with hvmem | hvmem
            · exact (hpath v hvmem).tail hmem
            · rw [List.mem_singleton.1 hvmem]
              exact .single hmem
          · rw [hv, List.length_append, List.length_singleton]
            omega
        rcases settles_foldlM hdown (hs.enter hid hordered hvisiting) rfl with ⟨s', hrun, hvisits⟩ | ⟨c, hrun, hbelow, hcycle⟩
        · refine .inl ⟨_, ?_, hvisits.leave hs hvisiting⟩
          rw [ExceptT.run_bind, hrun]
          rfl
        · refine .inr ⟨c, ?_, below_of_next hbelow, hcycle⟩
          rw [ExceptT.run_bind, hrun]
          rfl

/-! ## Depth -/

theorem foldlM_deeper {f g : Sets → JsString → Outcome Sets} (h : ∀ s id r, (f s id).run = some r → (g s id).run = some r)
    (ids : List JsString) {s : Sets} {r : Except JsString Sets} (hrun : (ids.foldlM f s).run = some r) :
    (ids.foldlM g s).run = some r := by
  induction ids generalizing s with
  | nil => exact hrun
  | cons id ids ih =>
    rw [List.foldlM_cons, ExceptT.run_bind] at hrun ⊢
    obtain ⟨first, hfirst, hrest⟩ := Option.bind_eq_some_iff.1 hrun
    rw [h s id first hfirst]
    cases first with
    | error message => exact hrest
    | ok s' => exact ih hrest

/-- What a call comes to it comes to at any greater depth. -/
theorem visit_deeper {depth : ℕ} {s : Sets} {id : JsString} {r : Except JsString Sets}
    (h : (visit dependencies cycleMessage depth s id).run = some r) :
    (visit dependencies cycleMessage (depth + 1) s id).run = some r := by
  induction depth generalizing s id r with
  | zero => cases h
  | succ depth ih =>
    unfold visit at h ⊢
    split at h
    · rename_i hordered
      rw [if_pos hordered]
      exact h
    · rename_i hordered
      rw [if_neg hordered]
      split at h
      · rename_i hvisiting
        rw [if_pos hvisiting]
        exact h
      · rename_i hvisiting
        rw [if_neg hvisiting]
        rw [ExceptT.run_bind] at h ⊢
        obtain ⟨inner, hinner, hrest⟩ := Option.bind_eq_some_iff.1 h
        rw [foldlM_deeper (fun _ _ _ => ih) _ hinner]
        exact hrest

theorem orderDependencies_deeper {depth depth' : ℕ} (hle : depth ≤ depth') {roots : List JsString}
    {r : Except JsString (List JsString)} (h : (orderDependencies dependencies cycleMessage depth roots).run = some r) :
    (orderDependencies dependencies cycleMessage depth' roots).run = some r := by
  induction hle with
  | refl => exact h
  | step _ ih =>
    unfold orderDependencies at ih ⊢
    rw [ExceptT.run_bind] at ih ⊢
    obtain ⟨inner, hinner, hrest⟩ := Option.bind_eq_some_iff.1 ih
    rw [foldlM_deeper (fun _ _ _ => visit_deeper) _ hinner]
    exact hrest

/-! ## The order -/

/-- What is below the roots, each once, after all it depends on. -/
structure IsOrder (dependencies : JsString → List JsString) (roots order : List JsString) : Prop where
  nodup : order.Nodup
  mem_iff : ∀ id, id ∈ order ↔ Below dependencies roots id
  sorted : Sorted dependencies order

theorem IsOrder.acyclic {roots order : List JsString} (h : IsOrder dependencies roots order) (id : JsString) :
    ¬ HasCycle dependencies roots id := fun hcycle => h.sorted.not_cyclic ((h.mem_iff id).2 hcycle.1) hcycle.2

/-- It returns an order, or throws at a cycle. -/
theorem orderDependencies_settles (cycleMessage : JsString → JsString)
    (hclosed : ∀ id ∈ nodes, ∀ dependency ∈ dependencies id, dependency ∈ nodes)
    {roots : List JsString} (hroots : ∀ root ∈ roots, root ∈ nodes) {depth : ℕ} (hdepth : nodes.length < depth) :
    (∃ order, (orderDependencies dependencies cycleMessage depth roots).run = some (.ok order) ∧
        IsOrder dependencies roots order) ∨
      ∃ id, (orderDependencies dependencies cycleMessage depth roots).run = some (.error (cycleMessage id)) ∧
        HasCycle dependencies roots id := by
  have hempty : Inv dependencies nodes ⟨[], []⟩ := ⟨.nil, by simp, .nil, by simp, .nil⟩
  have hroot : ∀ s, Inv dependencies nodes s → s.visiting = [] → ∀ root ∈ roots,
      Settles dependencies cycleMessage nodes s [root] (visit dependencies cycleMessage depth s root) := by
    intro s hs hv root hmem
    refine visit_settles hclosed depth hs (hroots root hmem) ?_ ?_
    · simp [hv]
    · rw [hv, List.length_nil]
      omega
  unfold orderDependencies
  rcases settles_foldlM hroot hempty rfl with ⟨s, hrun, hvisits⟩ | ⟨id, hrun, hcycle⟩
  · refine .inl ⟨s.ordered, ?_, hvisits.inv.ordered_nodup, fun id => ⟨fun hid => ?_, ?_⟩, hvisits.inv.sorted⟩
    · rw [ExceptT.run_bind, hrun]
      rfl
    · exact (hvisits.below id hid).resolve_left List.not_mem_nil
    · exact hvisits.inv.sorted.below hvisits.added
  · refine .inr ⟨id, ?_, hcycle⟩
    rw [ExceptT.run_bind, hrun]
    rfl

/-- Ordering a finite graph ends within a depth of one more than its ids. It throws
exactly when a cycle is below the roots, at an id of one, and otherwise returns
what is below the roots in order. -/
theorem orderDependencies_topological (dependencies : JsString → List JsString) (cycleMessage : JsString → JsString)
    (nodes roots : List JsString) (hclosed : ∀ id ∈ nodes, ∀ dependency ∈ dependencies id, dependency ∈ nodes)
    (hroots : ∀ root ∈ roots, root ∈ nodes) :
    ∃ result : Except JsString (List JsString),
      (∀ depth, nodes.length < depth → (orderDependencies dependencies cycleMessage depth roots).run = some result) ∧
        ((∃ message, result = .error message) ↔ ∃ id, HasCycle dependencies roots id) ∧
        (∀ message, result = .error message → ∃ id, HasCycle dependencies roots id ∧ message = cycleMessage id) ∧
        ∀ order, result = .ok order → IsOrder dependencies roots order := by
  have hdeeper : ∀ {r : Except JsString (List JsString)},
      (orderDependencies dependencies cycleMessage (nodes.length + 1) roots).run = some r → ∀ depth, nodes.length < depth →
        (orderDependencies dependencies cycleMessage depth roots).run = some r :=
    fun hrun depth hdepth => orderDependencies_deeper hdepth hrun
  rcases orderDependencies_settles cycleMessage hclosed hroots (Nat.lt_succ_self _) with
    ⟨order, hrun, horder⟩ | ⟨id, hrun, hcycle⟩
  · refine ⟨.ok order, hdeeper hrun, ⟨nofun, ?_⟩, nofun, fun _ h => by cases h; exact horder⟩
    rintro ⟨id, hcycle⟩
    exact absurd hcycle (horder.acyclic id)
  · refine ⟨.error (cycleMessage id), hdeeper hrun, ⟨fun _ => ⟨id, hcycle⟩, fun _ => ⟨_, rfl⟩⟩, ?_, nofun⟩
    rintro message h
    cases h
    exact ⟨id, hcycle, rfl⟩

/-- Two ids share a dependency, which is a root as well. -/
def sharedDependencies (id : JsString) : List JsString :=
  if id = lit "app" then [lit "ui", lit "core"] else if id = lit "ui" then [lit "core"] else []

theorem orderDependencies_shared :
    IsOrder sharedDependencies [lit "app", lit "core", lit "app"] [lit "core", lit "ui", lit "app"] := by
  obtain ⟨result, hrun, -, -, horder⟩ := orderDependencies_topological sharedDependencies id [lit "app", lit "ui", lit "core"]
    [lit "app", lit "core", lit "app"] (by decide) (by decide)
  have hresult : (orderDependencies sharedDependencies id 4 [lit "app", lit "core", lit "app"]).run =
      some (.ok [lit "core", lit "ui", lit "app"]) := by decide
  rw [hrun 4 (by decide)] at hresult
  exact horder _ (Option.some_inj.1 hresult)

end Leitwerk.DependencyOrder
