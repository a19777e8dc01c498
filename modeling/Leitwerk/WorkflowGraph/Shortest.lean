import Leitwerk.WorkflowGraph.Routing
/-!
# The grid route is a shortest one

A path along the lines of the grid is a way of the same length in the search's
graph, and the distance to the finish is an estimate no step undercuts. So
`gridRoute` returns a shortest path, and fails only where there is none.
-/

namespace Leitwerk.WorkflowGraph

open Search (Way Weighs Consistent)

/-! ## Lengths -/

def pathLength (points : List Point) : ℚ := ((segments points).map fun segment => length segment.1 segment.2).sum

@[simp] theorem pathLength_nil : pathLength [] = 0 := rfl

@[simp] theorem pathLength_singleton (a : Point) : pathLength [a] = 0 := rfl

@[simp] theorem pathLength_cons_cons (a b : Point) (points : List Point) :
    pathLength (a :: b :: points) = length a b + pathLength (b :: points) := by
  simp [pathLength, segments]

theorem length_comm (a b : Point) : length a b = length b a := by
  simp only [length, abs_sub_comm a.x, abs_sub_comm a.y]

@[simp] theorem length_self (a : Point) : length a a = 0 := by simp [length]

theorem length_triangle (a b c : Point) : length a c ≤ length a b + length b c := by
  have hx := abs_sub_le a.x b.x c.x
  have hy := abs_sub_le a.y b.y c.y
  simp only [length]
  linarith

theorem length_nonneg (a b : Point) : 0 ≤ length a b := add_nonneg (abs_nonneg _) (abs_nonneg _)

theorem pathLength_concat (points : List Point) (b a : Point) :
    pathLength (points ++ [b, a]) = pathLength (points ++ [b]) + length b a := by
  induction points with
  | nil => simp
  | cons c points ih =>
    cases points with
    | nil => simp
    | cons d points =>
      simp only [List.cons_append, pathLength_cons_cons] at ih ⊢
      rw [ih]
      ring

theorem pathLength_reverse (points : List Point) : pathLength points.reverse = pathLength points := by
  induction points with
  | nil => rfl
  | cons a points ih =>
    cases points with
    | nil => rfl
    | cons b points =>
      rw [List.reverse_cons, List.reverse_cons] at *
      rw [List.append_assoc, List.singleton_append, pathLength_concat, ih, pathLength_cons_cons, length_comm b a]
      ring

/-! ## Simplified polylines are no longer -/

theorem simplifyPoint_length (last point : Point) (result : List Point) :
    ∃ result', simplifyPoint (last :: result) point = point :: result' ∧
      pathLength (point :: result') ≤ pathLength (last :: result) + length last point := by
  cases result with
  | nil =>
    by_cases heq : last = point
    · exact ⟨[], by simp [simplifyPoint, heq], by simp [heq]⟩
    · exact ⟨[last], by simp [simplifyPoint, heq], by simp [length_comm point last]⟩
  | cons before result =>
    by_cases heq : last = point
    · exact ⟨before :: result, by simp [simplifyPoint, heq], by simp [heq]⟩
    · by_cases hline : (before.x = last.x ∧ last.x = point.x) ∨ (before.y = last.y ∧ last.y = point.y)
      · refine ⟨before :: result, by rw [simplifyPoint, if_neg heq, if_pos hline], ?_⟩
        have htriangle := length_triangle point last before
        rw [length_comm point last] at htriangle
        simp only [pathLength_cons_cons]
        linarith
      · refine ⟨last :: before :: result, by rw [simplifyPoint, if_neg heq, if_neg hline], ?_⟩
        rw [pathLength_cons_cons, length_comm point last]
        linarith

theorem pathLength_simplify (points : List Point) : pathLength (simplify points) ≤ pathLength points := by
  have hfold : ∀ (points : List Point) (last : Point) (result : List Point),
      pathLength (points.foldl simplifyPoint (last :: result)) ≤ pathLength (last :: result) + pathLength (last :: points) := by
    intro points
    induction points with
    | nil => simp
    | cons point points ih =>
      intro last result
      obtain ⟨result', hstep, hle⟩ := simplifyPoint_length last point result
      rw [List.foldl_cons, hstep, pathLength_cons_cons]
      have hrest := ih point result'
      linarith
  cases points with
  | nil => simp [simplify]
  | cons point points =>
    rw [simplify, pathLength_reverse, List.foldl_cons]
    simpa [simplifyPoint] using hfold points point []

/-- Simplifying adds no points. -/
theorem mem_simplify {points : List Point} {p : Point} (h : p ∈ simplify points) : p ∈ points := by
  have hstep : ∀ (result : List Point) (point : Point), simplifyPoint result point ⊆ point :: result := by
    intro result point
    match result with
    | [] => exact List.Subset.refl _
    | [last] =>
      rw [simplifyPoint]
      split
      · exact List.subset_cons_self _ _
      · exact List.Subset.refl _
    | last :: before :: result =>
      rw [simplifyPoint]
      split
      · exact List.subset_cons_self _ _
      · split
        · exact List.cons_subset_cons _ (List.subset_cons_self _ _)
        · exact List.Subset.refl _
  have hfold : ∀ (points result : List Point), points.foldl simplifyPoint result ⊆ points ++ result := by
    intro points
    induction points with
    | nil => exact fun result => List.Subset.refl _
    | cons point points ih =>
      intro result q hq
      rcases List.mem_append.1 (ih _ hq) with hq | hq
      · exact List.mem_append_left _ (List.mem_cons_of_mem _ hq)
      · rcases List.mem_cons.1 (hstep result point hq) with rfl | hq
        · exact List.mem_append_left _ List.mem_cons_self
        · exact List.mem_append_right _ hq
  simpa using hfold points [] (List.mem_reverse.1 h)

/-! ## Paths along the grid -/

/-- A rectilinear path along the lines of the grid whose segments keep ten away from all boxes. -/
structure GridPath (xs ys : List ℚ) (nodes : List WorkflowNode) (start finish : Point) (points : List Point) : Prop
    extends IsRoute 10 nodes start finish points where
  grid : ∀ p ∈ points, OnGrid xs ys p

section Grid

variable {xs ys : List ℚ} {nodes : List WorkflowNode} {start finish : Point}

/-- Steps both ways between all numbers from `i` to `i'` make a way as long as they lie apart. -/
theorem way_line {V : Type} {g : Search.Graph V} {place : ℕ → V} {coordinate : ℕ → ℚ} {i i' : ℕ}
    (hmono : ∀ a, min i i' ≤ a → a + 1 ≤ max i i' → coordinate a ≤ coordinate (a + 1))
    (hstep : ∀ a, min i i' ≤ a → a + 1 ≤ max i i' →
      (place (a + 1), |coordinate a - coordinate (a + 1)|) ∈ g.neighbours (place a) ∧
        (place a, |coordinate a - coordinate (a + 1)|) ∈ g.neighbours (place (a + 1))) :
    Way g (place i) (place i') |coordinate i - coordinate i'| := by
  -- both directions, from the lower number on
  have hline : ∀ low k, min i i' ≤ low → low + k ≤ max i i' →
      coordinate low ≤ coordinate (low + k) ∧ Way g (place low) (place (low + k)) (coordinate (low + k) - coordinate low) ∧
        Way g (place (low + k)) (place low) (coordinate (low + k) - coordinate low) := by
    intro low k hlow
    induction k with
    | zero => exact fun _ => ⟨le_refl _, by simpa using Way.refl _, by simpa using Way.refl _⟩
    | succ k ih =>
      intro hhigh
      obtain ⟨hle, hup, hdown⟩ := ih (by omega)
      have hle' := hmono (low + k) (by omega) (by omega)
      obtain ⟨hforth, hback⟩ := hstep (low + k) (by omega) (by omega)
      rw [abs_of_nonpos (by linarith)] at hforth hback
      rw [← Nat.add_assoc]
      have hsum : coordinate (low + k + 1) - coordinate low =
          (coordinate (low + k) - coordinate low) + -(coordinate (low + k) - coordinate (low + k + 1)) := by ring
      refine ⟨hle.trans hle', hsum ▸ hup.step hforth, ?_⟩
      have hsum' : coordinate (low + k + 1) - coordinate low =
          -(coordinate (low + k) - coordinate (low + k + 1)) + (coordinate (low + k) - coordinate low) := by ring
      have hfirst : Way g (place (low + k + 1)) (place (low + k)) (-(coordinate (low + k) - coordinate (low + k + 1))) := by
        simpa using (Way.refl _).step hback
      exact hsum' ▸ hfirst.trans hdown
  rcases Nat.le_total i i' with hle | hle
  · obtain ⟨k, rfl⟩ := Nat.exists_eq_add_of_le hle
    obtain ⟨hcoordinate, hup, -⟩ := hline i k (by omega) (by omega)
    rw [abs_of_nonpos (by linarith), neg_sub]
    exact hup
  · obtain ⟨k, rfl⟩ := Nat.exists_eq_add_of_le hle
    obtain ⟨hcoordinate, -, hdown⟩ := hline i' k (by omega) (by omega)
    rw [abs_of_nonneg (by linarith)]
    exact hdown

/-- An open segment between points of the grid is a way as long as it is. -/
theorem way_of_walk (hsized : Sized nodes) (hxs : xs.Pairwise (· < ·)) (hys : ys.Pairwise (· < ·)) (finish : Point) {a b : Point}
    (h : Walk xs ys nodes a b) : Way (gridGraph xs ys nodes finish) (indexOf xs ys a) (indexOf xs ys b) (length a b) := by
  obtain ⟨ha, hb, hstraight, havoids⟩ := h
  have hlength : length a b = length (pointAt xs ys (indexOf xs ys a)) (pointAt xs ys (indexOf xs ys b)) := by
    rw [pointAt_indexOf ha, pointAt_indexOf hb]
  rw [← pointAt_indexOf ha, ← pointAt_indexOf hb] at havoids
  rw [hlength]
  have hxa := List.idxOf_lt_length_iff.2 ha.1
  have hxb := List.idxOf_lt_length_iff.2 hb.1
  have hya := List.idxOf_lt_length_iff.2 ha.2
  have hyb := List.idxOf_lt_length_iff.2 hb.2
  rcases hstraight with hx | hy
  · have hcolumn : indexOf xs ys b = ((indexOf xs ys a).1, (indexOf xs ys b).2) := by simp [indexOf, hx]
    rw [hcolumn] at havoids ⊢
    have hway := @way_line _ (gridGraph xs ys nodes finish) (fun j => ((indexOf xs ys a).1, j)) (fun j => ys.getD j 0)
      (indexOf xs ys a).2 (indexOf xs ys b).2 ?_ ?_
    · simpa [length, pointAt] using hway
    · exact fun j _ hhigh => (getD_lt hys (lt_of_le_of_lt hhigh (max_lt hya hyb))).le
    · intro j hlow hhigh
      obtain ⟨hmin, hmax⟩ := step_between hys hya hyb hlow hhigh
      have hstep : Avoids 10 nodes (pointAt xs ys ((indexOf xs ys a).1, j)) (pointAt xs ys ((indexOf xs ys a).1, j + 1)) :=
        havoids.part_column hmin hmax
      have hbound := lt_of_le_of_lt hhigh (max_lt hya hyb)
      exact ⟨(mem_neighbours hsized).2 ⟨mem_around.2 (.inr ⟨rfl, .inr ⟨rfl, hbound⟩⟩), hstep, by simp [length, pointAt]⟩,
        (mem_neighbours hsized).2 ⟨mem_around.2 (.inr ⟨rfl, .inl rfl⟩), hstep.symm, by simp [length, pointAt, abs_sub_comm]⟩⟩
  · have hrow : indexOf xs ys b = ((indexOf xs ys b).1, (indexOf xs ys a).2) := by simp [indexOf, hy]
    rw [hrow] at havoids ⊢
    have hway := @way_line _ (gridGraph xs ys nodes finish) (fun i => (i, (indexOf xs ys a).2)) (fun i => xs.getD i 0)
      (indexOf xs ys a).1 (indexOf xs ys b).1 ?_ ?_
    · simpa [length, pointAt] using hway
    · exact fun i _ hhigh => (getD_lt hxs (lt_of_le_of_lt hhigh (max_lt hxa hxb))).le
    · intro i hlow hhigh
      obtain ⟨hmin, hmax⟩ := step_between hxs hxa hxb hlow hhigh
      have hstep : Avoids 10 nodes (pointAt xs ys (i, (indexOf xs ys a).2)) (pointAt xs ys (i + 1, (indexOf xs ys a).2)) :=
        havoids.part_row hmin hmax
      have hbound := lt_of_le_of_lt hhigh (max_lt hxa hxb)
      exact ⟨(mem_neighbours hsized).2 ⟨mem_around.2 (.inl ⟨rfl, .inr ⟨rfl, hbound⟩⟩), hstep, by simp [length, pointAt]⟩,
        (mem_neighbours hsized).2 ⟨mem_around.2 (.inl ⟨rfl, .inl rfl⟩), hstep.symm, by simp [length, pointAt, abs_sub_comm]⟩⟩

/-- A path along the grid is a way as long as it is. -/
theorem GridPath.way (hsized : Sized nodes) (hxs : xs.Pairwise (· < ·)) (hys : ys.Pairwise (· < ·)) (goal : Point)
    {points : List Point} (h : GridPath xs ys nodes start finish points) :
    Way (gridGraph xs ys nodes goal) (indexOf xs ys start) (indexOf xs ys finish) (pathLength points) := by
  obtain ⟨⟨hchain, hhead, hlast⟩, hgrid⟩ := h
  induction points generalizing start with
  | nil => cases hhead
  | cons a points ih =>
    obtain rfl : a = start := by simpa using hhead
    cases points with
    | nil =>
      obtain rfl : a = finish := by simpa using hlast
      exact Way.refl _
    | cons b points =>
      obtain ⟨hopen, hrest⟩ := List.isChain_cons_cons.1 hchain
      have hwalk : Walk xs ys nodes a b := ⟨hgrid a (by simp), hgrid b (by simp), hopen⟩
      rw [pathLength_cons_cons]
      exact (way_of_walk hsized hxs hys goal hwalk).trans
        (ih (fun p hp => hgrid p (List.mem_cons_of_mem _ hp)) hrest rfl (by rwa [List.getLast?_cons_cons] at hlast))

/-- The vertices of a way weigh what their points are long. -/
theorem pathLength_of_weighs (hsized : Sized nodes) {vertices : List (ℕ × ℕ)} {w : ℚ}
    (h : Weighs (gridGraph xs ys nodes finish) vertices w) : pathLength (vertices.map (pointAt xs ys)) = w := by
  induction vertices generalizing w with
  | nil => exact h.symm
  | cons a vertices ih =>
    cases vertices with
    | nil => exact h.symm
    | cons b vertices =>
      obtain ⟨d, hedge, hrest⟩ := h
      obtain ⟨-, -, rfl⟩ := (mem_neighbours hsized).1 hedge
      have hlength := ih hrest
      simp only [List.map_cons, pathLength_cons_cons] at hlength ⊢
      rw [hlength]
      ring

/-- The distance to the finish is an estimate no step undercuts. -/
theorem gridGraph_consistent (hsized : Sized nodes) (hfinish : OnGrid xs ys finish) :
    Consistent (gridGraph xs ys nodes finish) (indexOf xs ys finish) where
  edge index x hx := by
    obtain ⟨next, d⟩ := x
    obtain ⟨-, -, rfl⟩ := (mem_neighbours hsized).1 hx
    exact length_triangle _ _ _
  goal := by
    show length (pointAt xs ys (indexOf xs ys finish)) finish = 0
    rw [pointAt_indexOf hfinish, length_self]

end Grid

/-- What the grid router answers: a shortest path, or the error where there is no path. -/
def RouteAnswer (xs ys : List ℚ) (nodes : List WorkflowNode) (start finish : Point) : Except String (List Point) → Prop
  | .ok points =>
    GridPath xs ys nodes start finish points ∧
      ∀ other, GridPath xs ys nodes start finish other → pathLength points ≤ pathLength other
  | .error message => message = "Workflow route has no clear corridor" ∧ ∀ other, ¬ GridPath xs ys nodes start finish other

/-- What the router makes of the search's answer. -/
def gridAnswer (xs ys : List ℚ) : Option (List (ℕ × ℕ)) → Except String (List Point)
  | none => .error "Workflow route has no clear corridor"
  | some way => .ok (simplify (way.map (pointAt xs ys)))

/-- The search's answer is the router's. -/
theorem RouteAnswer.of_answer {xs ys : List ℚ} {nodes : List WorkflowNode} {start finish : Point} (hsized : Sized nodes)
    (hxs : xs.Pairwise (· < ·)) (hys : ys.Pairwise (· < ·)) (hstart : OnGrid xs ys start) (hfinish : OnGrid xs ys finish)
    {answer : Option (List (ℕ × ℕ))}
    (h : Search.Answer (gridGraph xs ys nodes finish) (indexOf xs ys start) (indexOf xs ys finish) answer) :
    RouteAnswer xs ys nodes start finish (gridAnswer xs ys answer) := by
  cases answer with
  | none => exact ⟨rfl, fun other hother => h _ (hother.way hsized hxs hys finish)⟩
  | some way =>
    obtain ⟨hhead, hlast, hsub, hchain, w, hweighs, hleast⟩ := h
    have hroute : IsRoute 10 nodes start finish (way.map (pointAt xs ys)) := by
      refine ⟨(List.isChain_map _).2 (hchain.imp fun a b hab => open_of_adjacent hsized hab), ?_, ?_⟩
      · rw [List.head?_map, hhead, Option.map_some, pointAt_indexOf hstart]
      · rw [List.getLast?_map, hlast, Option.map_some, pointAt_indexOf hfinish]
    refine ⟨⟨hroute.simplify (hsized.interior (by norm_num)), fun p hp => ?_⟩, fun other hother => ?_⟩
    · obtain ⟨index, hindex, rfl⟩ := List.mem_map.1 (mem_simplify hp)
      have hvertex := mem_vertices.1 (hsub hindex)
      exact ⟨getD_mem hvertex.1, getD_mem hvertex.2⟩
    · calc pathLength (simplify (way.map (pointAt xs ys)))
          ≤ pathLength (way.map (pointAt xs ys)) := pathLength_simplify _
        _ = w := pathLength_of_weighs hsized hweighs
        _ ≤ pathLength other := hleast (gridGraph_consistent hsized hfinish) _ (hother.way hsized hxs hys finish)

theorem GridPath.perm {xs xs' ys ys' : List ℚ} {nodes : List WorkflowNode} {start finish : Point} {points : List Point}
    (hxs : xs.Perm xs') (hys : ys.Perm ys') (h : GridPath xs ys nodes start finish points) :
    GridPath xs' ys' nodes start finish points :=
  ⟨h.toIsRoute, fun p hp => ⟨hxs.mem_iff.1 (h.grid p hp).1, hys.mem_iff.1 (h.grid p hp).2⟩⟩

/-- The order of the lines does not matter to the answer. -/
theorem RouteAnswer.perm {xs xs' ys ys' : List ℚ} {nodes : List WorkflowNode} {start finish : Point}
    {result : Except String (List Point)} (hxs : xs.Perm xs') (hys : ys.Perm ys')
    (h : RouteAnswer xs ys nodes start finish result) : RouteAnswer xs' ys' nodes start finish result := by
  cases result with
  | ok points => exact ⟨h.1.perm hxs hys, fun other hother => h.2 other (hother.perm hxs.symm hys.symm)⟩
  | error message => exact ⟨h.1, fun other hother => h.2 other (hother.perm hxs.symm hys.symm)⟩

/-- On lines that meet in the start and in the finish, the router comes to an end, with its answer. -/
theorem gridRoute_answers {xs ys : List ℚ} {nodes : List WorkflowNode} {start finish : Point} (hsized : Sized nodes)
    (hxs : xs.Nodup) (hys : ys.Nodup) (hstart : OnGrid xs ys start) (hfinish : OnGrid xs ys finish) :
    ∃ n result, (∀ m, n ≤ m → gridRoute m start finish xs ys nodes = some result) ∧
      RouteAnswer xs ys nodes start finish result := by
  have hgrid : ∀ p, OnGrid xs ys p → OnGrid xs.mergeSort ys.mergeSort p :=
    fun p hp => ⟨List.mem_mergeSort.2 hp.1, List.mem_mergeSort.2 hp.2⟩
  have hxs' := mergeSort_strict hxs
  have hys' := mergeSort_strict hys
  obtain ⟨unit, hw⟩ := gridGraph_weighted hsized hxs' hys' finish
  have hfirst : indexOf xs.mergeSort ys.mergeSort start ∈ (gridGraph xs.mergeSort ys.mergeSort nodes finish).vertices :=
    mem_vertices.2 ⟨List.idxOf_lt_length_iff.2 (hgrid start hstart).1, List.idxOf_lt_length_iff.2 (hgrid start hstart).2⟩
  obtain ⟨n, answer, hsearch, hanswer⟩ := Search.search_answers hw hfirst (indexOf xs.mergeSort ys.mergeSort finish)
  have hroute := RouteAnswer.of_answer hsized hxs' hys' (hgrid start hstart) (hgrid finish hfinish) hanswer
  refine ⟨n, gridAnswer xs.mergeSort ys.mergeSort answer, fun m hm => ?_,
    hroute.perm (List.mergeSort_perm xs _) (List.mergeSort_perm ys _)⟩
  unfold gridRoute
  dsimp only
  rw [hsearch m hm]
  cases answer <;> rfl

/-- On the lines `route` makes of boxes, `gridRoute` comes to an end, with a shortest path or
where there is none. -/
theorem gridRoute_shortest (nodes : List WorkflowNode) (hsized : Sized nodes) (start finish : Point) (preferredY : Option ℚ) :
    let xs := routeXs start finish nodes
    let ys := routeYs start finish nodes preferredY
    ∃ n result, (∀ m, n ≤ m → gridRoute m start finish xs ys nodes = some result) ∧
      RouteAnswer xs ys nodes start finish result :=
  gridRoute_answers hsized (nodup_eraseDups _) (nodup_eraseDups _) ⟨by simp [routeXs], by simp [routeYs]⟩
    ⟨by simp [routeXs], by simp [routeYs]⟩

/-- Two boxes side by side. -/
def twoBoxes : List WorkflowNode :=
  [⟨.turnId "plan", some "plan", [], .turn .llm, false, 0, 0, 0, 0, 40, 40, none⟩,
    ⟨.turnId "build", some "build", [], .turn .llm, false, 1, 0, 100, 0, 40, 40, none⟩]

theorem gridRoute_shortest_demo :
    ∃ n result,
      (∀ m, n ≤ m → gridRoute m ⟨0, 20⟩ ⟨140, 20⟩ (routeXs ⟨0, 20⟩ ⟨140, 20⟩ twoBoxes) (routeYs ⟨0, 20⟩ ⟨140, 20⟩ twoBoxes none)
        twoBoxes = some result) ∧
      RouteAnswer (routeXs ⟨0, 20⟩ ⟨140, 20⟩ twoBoxes) (routeYs ⟨0, 20⟩ ⟨140, 20⟩ twoBoxes none) twoBoxes ⟨0, 20⟩ ⟨140, 20⟩
        result :=
  gridRoute_shortest twoBoxes (by simp [Sized, twoBoxes]) ⟨0, 20⟩ ⟨140, 20⟩ none

end Leitwerk.WorkflowGraph
