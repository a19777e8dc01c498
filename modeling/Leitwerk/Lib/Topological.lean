import Mathlib.Data.List.Basic
import Mathlib.Logic.Relation
/-!
# Topological lists

A graph gives each vertex the list of those it depends on. A list is `Sorted`
when every vertex comes after all it depends on. Such a list holds all that its
vertices reach, and none of them is on a cycle.
-/

namespace Topological

open Relation (ReflTransGen TransGen)

variable {V : Type} (next : V → List V)

def Step (v w : V) : Prop := w ∈ next v

/-- What the roots depend on, themselves included. -/
def Below (roots : List V) (v : V) : Prop := ∃ root ∈ roots, ReflTransGen (Step next) root v

/-- A vertex that depends on itself, directly or not. -/
def Cyclic (v : V) : Prop := TransGen (Step next) v v

/-- Every vertex comes after all it depends on. -/
def Sorted (l : List V) : Prop := ∀ before v after, l = before ++ v :: after → ∀ w ∈ next v, w ∈ before

variable {next} {l : List V} {v w : V}

theorem Sorted.nil : Sorted next ([] : List V) := by
  intro before v after h
  simp at h

/-- A vertex is added once all it depends on is there. -/
theorem Sorted.concat (h : Sorted next l) (hv : ∀ w ∈ next v, w ∈ l) : Sorted next (l ++ [v]) := by
  intro before u after heq w hw
  rcases List.eq_nil_or_concat after with rfl | ⟨rest, last, rfl⟩
  · obtain ⟨rfl, hu⟩ := List.append_inj' heq rfl
    cases hu
    exact hv w hw
  · have heq : l ++ [v] = (before ++ u :: rest) ++ [last] := by simpa using heq
    exact h before u rest (List.append_inj' heq rfl).1 w hw

theorem Sorted.step (h : Sorted next l) (hv : v ∈ l) (hw : Step next v w) : w ∈ l := by
  obtain ⟨before, after, rfl⟩ := List.append_of_mem hv
  exact List.mem_append_left _ (h before v after rfl w hw)

theorem Sorted.reaches (h : Sorted next l) (hv : v ∈ l) (hw : ReflTransGen (Step next) v w) : w ∈ l := by
  induction hw with
  | refl => exact hv
  | tail _ hstep ih => exact h.step ih hstep

/-- Dependencies come earlier. -/
theorem Sorted.idxOf_lt [DecidableEq V] (h : Sorted next l) (hv : v ∈ l) (hw : TransGen (Step next) v w) :
    l.idxOf w < l.idxOf v := by
  have hstep : ∀ {v w : V}, v ∈ l → Step next v w → l.idxOf w < l.idxOf v := by
    intro v w hv hw
    obtain ⟨before, after, heq, hnew⟩ := List.eq_append_cons_of_mem hv
    have hmem := h before v after heq w hw
    rw [heq, List.idxOf_append_of_mem hmem, List.idxOf_append_of_notMem hnew, List.idxOf_cons_self, Nat.add_zero]
    exact List.idxOf_lt_length_of_mem hmem
  induction hw with
  | single hw => exact hstep hv hw
  | tail hreach hw ih => exact Nat.lt_trans (hstep (h.reaches hv hreach.to_reflTransGen) hw) ih

theorem Sorted.not_cyclic (h : Sorted next l) (hv : v ∈ l) : ¬ Cyclic next v := by
  classical
  exact fun hcycle => Nat.lt_irrefl _ (h.idxOf_lt hv hcycle)

/-! ## What is below -/

theorem below_root {roots : List V} (h : v ∈ roots) : Below next roots v := ⟨v, h, .refl⟩

theorem Below.mono {roots roots' : List V} (h : Below next roots v) (hsub : ∀ root ∈ roots, root ∈ roots') :
    Below next roots' v := by
  obtain ⟨root, hroot, hreach⟩ := h
  exact ⟨root, hsub root hroot, hreach⟩

/-- What is below the dependencies of a vertex is below the vertex. -/
theorem below_of_next (h : Below next (next v) w) : Below next [v] w := by
  obtain ⟨u, hu, hreach⟩ := h
  exact ⟨v, List.mem_singleton_self v, .head hu hreach⟩

theorem Sorted.below {roots : List V} (h : Sorted next l) (hroots : ∀ root ∈ roots, root ∈ l) (hv : Below next roots v) :
    v ∈ l := by
  obtain ⟨root, hroot, hreach⟩ := hv
  exact h.reaches (hroots root hroot) hreach

end Topological
