import Leitwerk.Lib.Tracks
import Leitwerk.WorkflowGraph.Route
/-!
# Straight segments that keep away from boxes

A segment enters a box when it meets the box's interior, the box widened by a
margin. `simplify` joins segments of one line, so a polyline that is straight
and avoids the boxes stays so.
-/

namespace Leitwerk.WorkflowGraph

open Tracks (Meets)

/-- Horizontal or vertical. -/
def Straight (a b : Point) : Prop := a.x = b.x ∨ a.y = b.y

/-- The segment meets the interior of the node's box, widened by a margin. -/
def Enters (margin : ℚ) (a b : Point) (node : WorkflowNode) : Prop :=
  Meets a.x b.x (node.x - margin) (node.x + node.width + margin) ∧
    Meets a.y b.y (node.y - margin) (node.y + node.height + margin)

def Avoids (margin : ℚ) (nodes : List WorkflowNode) (a b : Point) : Prop := ∀ node ∈ nodes, ¬ Enters margin a b node

/-- A segment a route may have. -/
def Open (margin : ℚ) (nodes : List WorkflowNode) (a b : Point) : Prop := Straight a b ∧ Avoids margin nodes a b

/-- No box has a negative size. -/
def Sized (nodes : List WorkflowNode) : Prop := ∀ node ∈ nodes, 0 ≤ node.width ∧ 0 ≤ node.height

/-- Every box has an interior, once it is widened by the margin. -/
def Interior (margin : ℚ) (nodes : List WorkflowNode) : Prop :=
  ∀ node ∈ nodes, 0 < node.width + 2 * margin ∧ 0 < node.height + 2 * margin

theorem Sized.interior {nodes : List WorkflowNode} (h : Sized nodes) {margin : ℚ} (hmargin : 0 < margin) : Interior margin nodes := by
  intro node hnode
  obtain ⟨hwidth, hheight⟩ := h node hnode
  constructor <;> linarith

/-! ## Segments -/

theorem Straight.symm {a b : Point} (h : Straight a b) : Straight b a := h.imp Eq.symm Eq.symm

theorem Avoids.symm {margin : ℚ} {nodes : List WorkflowNode} {a b : Point} (h : Avoids margin nodes a b) :
    Avoids margin nodes b a :=
  fun node hnode henters => h node hnode ⟨henters.1.symm, henters.2.symm⟩

theorem Open.symm {margin : ℚ} {nodes : List WorkflowNode} {a b : Point} (h : Open margin nodes a b) : Open margin nodes b a :=
  ⟨h.1.symm, h.2.symm⟩

/-- Two open segments of one line join to one. -/
theorem Open.join {margin : ℚ} {nodes : List WorkflowNode} (hinterior : Interior margin nodes) {a b c : Point}
    (hab : Open margin nodes a b) (hbc : Open margin nodes b c) (hline : (a.x = b.x ∧ b.x = c.x) ∨ (a.y = b.y ∧ b.y = c.y)) :
    Open margin nodes a c := by
  refine ⟨hline.imp (fun h => h.1.trans h.2) (fun h => h.1.trans h.2), fun node hnode henters => ?_⟩
  obtain ⟨hwidth, hheight⟩ := hinterior node hnode
  rcases hline with ⟨h₁, h₂⟩ | ⟨h₁, h₂⟩
  · have hx := henters.1
    rcases henters.2.split (b := b.y) (by linarith) with hy | hy
    · exact hab.2 node hnode ⟨by rw [h₁, h₂] at hx ⊢; exact hx, hy⟩
    · exact hbc.2 node hnode ⟨by rw [h₁, h₂] at hx; rw [h₂]; exact hx, hy⟩
  · have hy := henters.2
    rcases henters.1.split (b := b.x) (by linarith) with hx | hx
    · exact hab.2 node hnode ⟨hx, by rw [h₁, h₂] at hy ⊢; exact hy⟩
    · exact hbc.2 node hnode ⟨hx, by rw [h₁, h₂] at hy; rw [h₂]; exact hy⟩

/-- What keeps away by a margin keeps away by a smaller one. -/
theorem Avoids.of_le {m m' : ℚ} (hle : m' ≤ m) {nodes : List WorkflowNode} {a b : Point} (h : Avoids m nodes a b) :
    Avoids m' nodes a b := by
  intro node hnode henters
  refine h node hnode ⟨henters.1.mono (le_refl _) (le_refl _) ?_ ?_, henters.2.mono (le_refl _) (le_refl _) ?_ ?_⟩ <;> linarith

theorem clearSegment_iff {nodes : List WorkflowNode} (hsized : Sized nodes) {a b : Point} :
    clearSegment a b nodes = true ↔ Avoids 10 nodes a b := by
  have hnode : ∀ node ∈ nodes, strictBoundsOverlap a b ⟨node.x - 10, node.y - 10⟩
      ⟨node.x + node.width + 10, node.y + node.height + 10⟩ = true ↔ Enters 10 a b node := by
    intro node hnode
    obtain ⟨hwidth, hheight⟩ := hsized node hnode
    have hx : node.x - 10 ≤ node.x + node.width + 10 := by linarith
    have hy : node.y - 10 ≤ node.y + node.height + 10 := by linarith
    simp only [strictBoundsOverlap, Enters, Meets, min_eq_left hx, max_eq_right hx, min_eq_left hy, max_eq_right hy,
      gt_iff_lt, Bool.and_eq_true, decide_eq_true_eq, and_assoc]
  unfold clearSegment Avoids
  rw [Bool.not_eq_true', List.any_eq_false]
  exact forall₂_congr fun node h => not_congr (hnode node h)

/-! ## Polylines -/

theorem forall_segments_iff {R : Point → Point → Prop} {points : List Point} :
    (∀ segment ∈ segments points, R segment.1 segment.2) ↔ points.IsChain R := by
  induction points with
  | nil => simp [segments]
  | cons a points ih =>
    cases points with
    | nil => simp [segments]
    | cons b points =>
      rw [List.isChain_cons_cons, ← ih]
      simp [segments]

section Simplify

variable {R : Point → Point → Prop}

/-- The relation holds of the joined segment where it holds of two on one line. -/
def Joins (R : Point → Point → Prop) : Prop :=
  ∀ a b c, R a b → R b c → ((a.x = b.x ∧ b.x = c.x) ∨ (a.y = b.y ∧ b.y = c.y)) → R a c

/-- One more point: it comes last, the first one stays, and so does the relation. -/
theorem simplifyPoint_spec (hjoin : Joins R) {last point : Point} {result : List Point}
    (hchain : (last :: result).IsChain (flip R)) (h : R last point) :
    ∃ result', simplifyPoint (last :: result) point = point :: result' ∧ (point :: result').IsChain (flip R) ∧
      (point :: result').getLast? = (last :: result).getLast? := by
  cases result with
  | nil =>
    by_cases heq : last = point
    · subst heq
      exact ⟨[], by simp [simplifyPoint], hchain, rfl⟩
    · exact ⟨[last], by simp [simplifyPoint, heq], List.isChain_cons_cons.2 ⟨h, hchain⟩, rfl⟩
  | cons before result =>
    by_cases heq : last = point
    · subst heq
      exact ⟨before :: result, by simp [simplifyPoint], hchain, rfl⟩
    · obtain ⟨hbefore, hrest⟩ := List.isChain_cons_cons.1 hchain
      by_cases hline : (before.x = last.x ∧ last.x = point.x) ∨ (before.y = last.y ∧ last.y = point.y)
      · refine ⟨before :: result, by rw [simplifyPoint, if_neg heq, if_pos hline], ?_, by simp⟩
        exact List.isChain_cons_cons.2 ⟨hjoin before last point hbefore h hline, hrest⟩
      · refine ⟨last :: before :: result, by rw [simplifyPoint, if_neg heq, if_neg hline], ?_, by simp⟩
        exact List.isChain_cons_cons.2 ⟨h, hchain⟩

theorem foldl_simplifyPoint_spec (hjoin : Joins R) (points : List Point) {last : Point} {result : List Point}
    (hchain : (last :: result).IsChain (flip R)) (h : (last :: points).IsChain R) :
    (points.foldl simplifyPoint (last :: result)).IsChain (flip R) ∧
      (points.foldl simplifyPoint (last :: result)).head? = (last :: points).getLast? ∧
      (points.foldl simplifyPoint (last :: result)).getLast? = (last :: result).getLast? := by
  induction points generalizing last result with
  | nil => exact ⟨hchain, rfl, rfl⟩
  | cons point points ih =>
    obtain ⟨hpoint, hpoints⟩ := List.isChain_cons_cons.1 h
    obtain ⟨result', hstep, hchain', hlast⟩ := simplifyPoint_spec hjoin hchain hpoint
    rw [List.foldl_cons, hstep]
    obtain ⟨h₁, h₂, h₃⟩ := ih hchain' hpoints
    exact ⟨h₁, by rw [h₂, List.getLast?_cons_cons], h₃.trans hlast⟩

/-- A simplified polyline keeps its ends, and what holds of its segments. -/
theorem simplify_spec (hjoin : Joins R) {points : List Point} (h : points.IsChain R) :
    (simplify points).IsChain R ∧ (simplify points).head? = points.head? ∧ (simplify points).getLast? = points.getLast? := by
  cases points with
  | nil => simp [simplify]
  | cons point points =>
    obtain ⟨h₁, h₂, h₃⟩ := foldl_simplifyPoint_spec hjoin points (List.isChain_singleton (R := flip R) point) h
    unfold simplify
    rw [List.foldl_cons]
    refine ⟨List.isChain_reverse.2 h₁, ?_, ?_⟩
    · rw [List.head?_reverse]
      exact h₃
    · rw [List.getLast?_reverse]
      exact h₂

end Simplify

/-- Straight segments stay straight when they join. -/
theorem joins_straight : Joins Straight :=
  fun _ _ _ _ _ hline => hline.imp (fun h => h.1.trans h.2) (fun h => h.1.trans h.2)

theorem joins_open {margin : ℚ} {nodes : List WorkflowNode} (hinterior : Interior margin nodes) : Joins (Open margin nodes) :=
  fun _ _ _ hab hbc hline => hab.join hinterior hbc hline

end Leitwerk.WorkflowGraph
