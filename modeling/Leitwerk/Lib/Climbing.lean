import Mathlib.Data.List.Nodup
import Mathlib.Data.List.Chain
import Mathlib.Data.List.Perm.Subperm
import Mathlib.Logic.Relation
/-!
# Climbing parent links

A climb follows `up` from a node until it meets a goal, leaves the tree or comes
to a node it has visited. Nodes are told apart by a key. A climb that may pass
every node of a finite tree finds every goal above its start, cycles or not.
-/

namespace Climbing

variable {α κ : Type} [DecidableEq κ] (key : α → κ) (up : α → Option α) (goal : α → Bool)

/-- The nodes a climb passes before it ends, and whether it ended at a goal. -/
@[grind =]
def climb : Nat → List κ → Option α → List α × Bool
  | 0, _, _ => ([], false)
  | _ + 1, _, none => ([], false)
  | fuel + 1, visited, some a =>
    if key a ∈ visited then ([], false)
    else if goal a then ([], true)
    else
      let above := climb fuel (key a :: visited) (up a)
      (a :: above.1, above.2)

/-- One step up. -/
def Parent (a b : α) : Prop := up a = some b

/-- `b` is `a` or above it. -/
def Above (a b : α) : Prop := Relation.ReflTransGen (Parent up) a b

variable {key up goal} {fuel : Nat} {visited : List κ} {a b : α} {start : Option α}

/-! ## What a climb passes -/

theorem climb_some (hv : key a ∉ visited) (hg : goal a = false) :
    climb key up goal (fuel + 1) visited (some a) =
      (a :: (climb key up goal fuel (key a :: visited) (up a)).1, (climb key up goal fuel (key a :: visited) (up a)).2) := by
  rw [climb, if_neg hv, hg]
  rfl

/-- The first node a climb passes is where it starts. -/
theorem climb_head (h : a ∈ (climb key up goal fuel visited start).1.head?) : start = some a := by
  unfold climb at h
  split at h
  · simp at h
  · simp at h
  · split at h
    · simp at h
    · split at h
      · simp at h
      · simpa using h

theorem climb_chain : List.IsChain (Parent up) (climb key up goal fuel visited start).1 := by
  induction fuel generalizing visited start with
  | zero => exact .nil
  | succ fuel ih =>
    cases start with
    | none => exact .nil
    | some a =>
      rw [climb]
      split
      · exact .nil
      split
      · exact .nil
      · exact List.isChain_cons.2 ⟨fun b hb => climb_head hb, ih⟩

/-- A climb passes no goal and nothing twice. -/
theorem climb_passes : ((climb key up goal fuel visited start).1.map key).Nodup ∧
    ∀ a ∈ (climb key up goal fuel visited start).1, goal a = false ∧ key a ∉ visited := by
  induction fuel generalizing visited start with
  | zero => simp [climb]
  | succ fuel ih =>
    cases start with
    | none => simp [climb]
    | some a =>
      by_cases hv : key a ∈ visited
      · simp [climb, hv]
      by_cases hg : goal a = true
      · simp [climb, hv, hg]
      · rw [Bool.not_eq_true] at hg
        rw [climb_some hv hg]
        obtain ⟨hnodup, hpass⟩ := @ih (key a :: visited) (up a)
        refine ⟨?_, ?_⟩
        · rw [List.map_cons, List.nodup_cons]
          refine ⟨fun hmem => ?_, hnodup⟩
          obtain ⟨b, hb, hkey⟩ := List.mem_map.1 hmem
          exact (hpass b hb).2 (hkey ▸ List.mem_cons_self)
        · intro b hb
          rcases List.mem_cons.1 hb with rfl | hb
          · exact ⟨hg, hv⟩
          · exact ⟨(hpass b hb).1, fun hmem => (hpass b hb).2 (List.mem_cons_of_mem _ hmem)⟩

/-- All that a climb passes is above its start. -/
theorem climb_above (h : b ∈ (climb key up goal fuel visited start).1) : ∃ a, start = some a ∧ Above up a b := by
  induction fuel generalizing visited start with
  | zero => cases h
  | succ fuel ih =>
    cases start with
    | none => cases h
    | some a =>
      refine ⟨a, rfl, ?_⟩
      rw [climb] at h
      split at h
      · cases h
      split at h
      · cases h
      rcases List.mem_cons.1 h with rfl | h
      · exact .refl
      · obtain ⟨c, hc, hb⟩ := ih h
        exact .head hc hb

/-! ## What a climb finds -/

/-- A climb that ends at a goal found one above its start. -/
theorem above_of_climb (h : (climb key up goal fuel visited start).2 = true) :
    ∃ a b, start = some a ∧ Above up a b ∧ goal b = true := by
  induction fuel generalizing visited start with
  | zero => cases h
  | succ fuel ih =>
    cases start with
    | none => cases h
    | some a =>
      rw [climb] at h
      split at h
      · cases h
      split at h
      · rename_i hg
        exact ⟨a, a, rfl, .refl, hg⟩
      · obtain ⟨c, b, hc, hb, hg⟩ := ih h
        exact ⟨a, b, rfl, .head hc hb, hg⟩

/-- A finite tree: `up` stays in it, and keys tell its nodes apart. -/
structure Tree (key : α → κ) (up : α → Option α) (nodes : List α) : Prop where
  closed : ∀ a b, up a = some b → b ∈ nodes
  keyed : ∀ a ∈ nodes, ∀ b ∈ nodes, key a = key b → a = b

variable {nodes : List α}

/-- What was visited is of the tree, and leads on to what was visited or to where the climb is. -/
structure Visited (key : α → κ) (up : α → Option α) (goal : α → Bool) (nodes : List α) (visited : List κ)
    (start : Option α) : Prop where
  nodup : visited.Nodup
  known : ∀ k ∈ visited, ∃ a ∈ nodes, key a = k
  misses : ∀ a ∈ nodes, key a ∈ visited → goal a = false
  leads : ∀ a ∈ nodes, key a ∈ visited → ∀ b, up a = some b → key b ∈ visited ∨ start = some b

omit [DecidableEq κ] in
theorem Visited.length_le (h : Visited key up goal nodes visited start) : visited.length ≤ nodes.length := by
  have hsub : visited ⊆ nodes.map key := fun k hk => by
    obtain ⟨a, ha, rfl⟩ := h.known k hk
    exact List.mem_map_of_mem ha
  simpa using (List.subperm_of_subset h.nodup hsub).length_le

omit [DecidableEq κ] in
/-- Nothing above a visited node is a goal once the climb is back at one. -/
theorem Visited.above (h : Visited key up goal nodes visited start) (ht : Tree key up nodes)
    (hback : ∀ b, start = some b → key b ∈ visited) (ha : a ∈ nodes) (hk : key a ∈ visited) (hab : Above up a b) :
    goal b = false := by
  have hstay : b ∈ nodes ∧ key b ∈ visited := by
    induction hab with
    | refl => exact ⟨ha, hk⟩
    | tail _ hstep ih =>
      refine ⟨ht.closed _ _ hstep, ?_⟩
      rcases h.leads _ ih.1 ih.2 _ hstep with hv | hs
      · exact hv
      · exact hback _ hs
  exact h.misses b hstay.1 hstay.2

theorem climb_false (ht : Tree key up nodes) (hv : Visited key up goal nodes visited start)
    (hfuel : nodes.length < visited.length + fuel) (hstart : ∀ a, start = some a → a ∈ nodes)
    (h : (climb key up goal fuel visited start).2 = false) (ha : start = some a) (hab : Above up a b) : goal b = false := by
  induction fuel generalizing visited start a with
  | zero => exact absurd hv.length_le (by omega)
  | succ fuel ih =>
    subst ha
    have hmem := hstart a rfl
    by_cases hk : key a ∈ visited
    · exact hv.above ht (fun c hc => Option.some.inj hc ▸ hk) hmem hk hab
    by_cases hg : goal a = true
    · simp [climb, hk, hg] at h
    rw [Bool.not_eq_true] at hg
    rw [climb_some hk hg] at h
    rcases Relation.ReflTransGen.cases_head hab with rfl | ⟨c, hc, hcb⟩
    · exact hg
    have hnow : Visited key up goal nodes (key a :: visited) (up a) := by
      refine ⟨List.nodup_cons.2 ⟨hk, hv.nodup⟩, ?_, ?_, ?_⟩
      · intro k hk'
        rcases List.mem_cons.1 hk' with rfl | hk'
        · exact ⟨a, hmem, rfl⟩
        · exact hv.known k hk'
      · intro d hd hkd
        rcases List.mem_cons.1 hkd with hsame | hkd
        · exact ht.keyed d hd a hmem hsame ▸ hg
        · exact hv.misses d hd hkd
      · intro d hd hkd e he
        rcases List.mem_cons.1 hkd with hsame | hkd
        · rw [ht.keyed d hd a hmem hsame] at he
          exact .inr he
        · -- an older node leads to a visited one, or to the one that is visited now
          rcases hv.leads d hd hkd e he with hold | hnow
          · exact .inl (List.mem_cons_of_mem _ hold)
          · exact .inl (Option.some.inj hnow ▸ List.mem_cons_self)
    exact ih hnow (by simp only [List.length_cons]; omega) (fun d hd => ht.closed a d hd) h hc hcb

/-- A climb that may pass every node ends at a goal exactly when there is one above its start. -/
theorem climb_iff (ht : Tree key up nodes) (ha : a ∈ nodes) (hfuel : nodes.length < fuel) :
    (climb key up goal fuel [] (some a)).2 = true ↔ ∃ b, Above up a b ∧ goal b = true := by
  constructor
  · intro h
    obtain ⟨a', b, heq, hab, hg⟩ := above_of_climb h
    cases heq
    exact ⟨b, hab, hg⟩
  · rintro ⟨b, hab, hg⟩
    by_contra hfalse
    rw [Bool.not_eq_true] at hfalse
    have hmiss := climb_false ht ⟨List.nodup_nil, by simp, by simp, by simp⟩ (by simpa using hfuel)
      (fun c hc => Option.some.inj hc ▸ ha) hfalse rfl hab
    rw [hg] at hmiss
    cases hmiss

end Climbing
