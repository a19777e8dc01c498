import Leitwerk.WorkflowGraph.Clearance
import Mathlib.Data.List.GetD
import Mathlib.Data.Nat.SuccPred
import Mathlib.Order.SuccPred.Relation
/-!
# The grid search finds a way when there is one

A way along the lines of the grid is a sequence of open segments between points
of the grid. Its steps from crossing to crossing are steps of the search's
graph, so `gridRoute` finds a route whose segments are open, and `route` too.
-/

namespace Leitwerk.WorkflowGraph

open Search (Adjacent)

/-- A point where two of the lines cross. -/
def OnGrid (xs ys : List ℚ) (point : Point) : Prop := point.x ∈ xs ∧ point.y ∈ ys

/-- An open segment between two points of the grid. -/
def Walk (xs ys : List ℚ) (nodes : List WorkflowNode) (a b : Point) : Prop :=
  OnGrid xs ys a ∧ OnGrid xs ys b ∧ Open 10 nodes a b

theorem Walk.symm {xs ys : List ℚ} {nodes : List WorkflowNode} {a b : Point} (h : Walk xs ys nodes a b) :
    Walk xs ys nodes b a :=
  ⟨h.2.1, h.1, h.2.2.symm⟩

/-! ## Lists of coordinates -/

theorem nodup_eraseDups {α : Type} [DecidableEq α] (l : List α) : l.eraseDups.Nodup := by
  generalize hlength : l.length = n
  induction n using Nat.strong_induction_on generalizing l with
  | _ n ih =>
    cases l with
    | nil => simp
    | cons q l =>
      rw [List.eraseDups_cons, List.nodup_cons]
      constructor
      · simp
      · refine ih _ ?_ _ rfl
        have hle := List.length_filter_le (fun b => !b == q) l
        simp only [List.length_cons] at hlength
        omega

/-- Sorted coordinates without repetition go up strictly. -/
theorem mergeSort_strict {α : Type} [LinearOrder α] {l : List α} (h : l.Nodup) : l.mergeSort.Pairwise (· < ·) := by
  have hle : l.mergeSort.Pairwise (· ≤ ·) := by
    have hsorted : l.mergeSort.Pairwise (fun a b => decide (a ≤ b) = true) :=
      List.pairwise_mergeSort (by simpa using fun a b c => le_trans) (by simpa using fun a b => le_total a b) l
    exact hsorted.imp (by simp)
  have hne : l.mergeSort.Pairwise (· ≠ ·) := (List.mergeSort_perm l _).nodup_iff.2 h
  exact (hle.and hne).imp fun h => lt_of_le_of_ne h.1 h.2

/-- Finitely many rationals are multiples of one unit. -/
theorem exists_unit (l : List ℚ) : ∃ unit : ℚ, 0 < unit ∧ ∀ q ∈ l, ∃ z : ℤ, q = z * unit := by
  induction l with
  | nil => exact ⟨1, one_pos, by simp⟩
  | cons q l ih =>
    obtain ⟨unit, hpos, hall⟩ := ih
    obtain ⟨a, b, hb, hq⟩ : ∃ a b : ℤ, 0 < b ∧ q / unit = a / b :=
      ⟨(q / unit).num, (q / unit).den, by exact_mod_cast (q / unit).pos, (Rat.num_div_den _).symm⟩
    have hb' : (0 : ℚ) < b := by exact_mod_cast hb
    refine ⟨unit / b, by positivity, fun r hr => ?_⟩
    rcases List.mem_cons.1 hr with rfl | hr
    · refine ⟨a, ?_⟩
      rw [div_eq_iff hpos.ne'] at hq
      rw [hq]
      ring
    · obtain ⟨z, hz⟩ := hall r hr
      refine ⟨z * b, ?_⟩
      rw [hz]
      push_cast
      field_simp

/-! ## Steps along a line -/

section Grid

variable {xs ys : List ℚ} {nodes : List WorkflowNode} {finish : Point}

theorem pointAt_indexOf {point : Point} (h : OnGrid xs ys point) : pointAt xs ys (indexOf xs ys point) = point := by
  have hx := List.idxOf_lt_length_iff.2 h.1
  have hy := List.idxOf_lt_length_iff.2 h.2
  simp [pointAt, indexOf, List.getD_eq_getElem?_getD, List.getElem?_eq_getElem hx, List.getElem?_eq_getElem hy]

theorem mem_vertices {index : ℕ × ℕ} :
    index ∈ (gridGraph xs ys nodes finish).vertices ↔ index.1 < xs.length ∧ index.2 < ys.length := by
  obtain ⟨i, j⟩ := index
  simp [gridGraph]

theorem mem_neighbours (hsized : Sized nodes) {index next : ℕ × ℕ} {d : ℚ} :
    (next, d) ∈ (gridGraph xs ys nodes finish).neighbours index ↔
      next ∈ around xs ys index ∧ Avoids 10 nodes (pointAt xs ys index) (pointAt xs ys next) ∧
        d = length (pointAt xs ys index) (pointAt xs ys next) := by
  simp only [gridGraph, List.mem_map, List.mem_filter, Prod.mk.injEq, clearSegment_iff hsized]
  constructor
  · rintro ⟨a, ⟨ha, hclear⟩, rfl, rfl⟩
    exact ⟨ha, hclear, rfl⟩
  · rintro ⟨ha, hclear, rfl⟩
    exact ⟨next, ⟨ha, hclear⟩, rfl, rfl⟩

/-- A neighbour is one column or one row away. -/
theorem mem_around {index next : ℕ × ℕ} :
    next ∈ around xs ys index ↔
      (next.2 = index.2 ∧ (next.1 + 1 = index.1 ∨ next.1 = index.1 + 1 ∧ next.1 < xs.length)) ∨
        (next.1 = index.1 ∧ (next.2 + 1 = index.2 ∨ next.2 = index.2 + 1 ∧ next.2 < ys.length)) := by
  obtain ⟨i, j⟩ := index
  obtain ⟨i', j'⟩ := next
  simp only [around, List.mem_append, List.mem_ite_nil_right, List.mem_singleton, Prod.mk.injEq]
  omega

/-- Two coordinates of a strictly sorted list that follow each other lie between two others around them. -/
theorem step_between {l : List ℚ} (hl : l.Pairwise (· < ·)) {i i' a : ℕ} (hi : i < l.length) (hi' : i' < l.length)
    (hlow : min i i' ≤ a) (hhigh : a + 1 ≤ max i i') :
    min (l.getD i 0) (l.getD i' 0) ≤ min (l.getD a 0) (l.getD (a + 1) 0) ∧
      max (l.getD a 0) (l.getD (a + 1) 0) ≤ max (l.getD i 0) (l.getD i' 0) := by
  have hmono : ∀ {b c : ℕ}, b ≤ c → c < l.length → l.getD b 0 ≤ l.getD c 0 := by
    intro b c hbc hc
    rw [List.getD_eq_getElem _ _ (lt_of_le_of_lt hbc hc), List.getD_eq_getElem _ _ hc]
    rcases Nat.eq_or_lt_of_le hbc with rfl | hlt
    · exact le_refl _
    · exact (List.pairwise_iff_getElem.1 hl b c (lt_of_le_of_lt hbc hc) hc hlt).le
  have ha : a + 1 < l.length := lt_of_le_of_lt hhigh (max_lt hi hi')
  have hstep := hmono (Nat.le_succ a) ha
  rw [min_eq_left hstep, max_eq_right hstep]
  constructor
  · rcases min_le_iff.1 hlow with h | h
    · exact min_le_of_left_le (hmono h (by omega))
    · exact min_le_of_right_le (hmono h (by omega))
  · rcases le_max_iff.1 hhigh with h | h
    · exact le_max_of_le_left (hmono h hi)
    · exact le_max_of_le_right (hmono h hi')

/-- Steps both ways between all numbers from `i` to `i'` lead there. -/
theorem reach_line {R : ℕ → ℕ → Prop} {i i' : ℕ}
    (hstep : ∀ a, min i i' ≤ a → a + 1 ≤ max i i' → R a (a + 1) ∧ R (a + 1) a) : Relation.ReflTransGen R i i' := by
  refine reflTransGen_of_succ R ?_ ?_
  · rintro a ⟨hia, hai'⟩
    exact (hstep a (min_le_of_left_le hia) (le_max_of_le_right hai')).1
  · rintro a ⟨hi'a, hai⟩
    exact (hstep a (min_le_of_right_le hi'a) (le_max_of_le_left hai)).2

end Grid

section Reach

variable {xs ys : List ℚ} {nodes : List WorkflowNode} {finish : Point}

/-- The step between neighbouring crossings of an open stretch, both ways. -/
theorem adjacent_of_avoids (hsized : Sized nodes) {index next : ℕ × ℕ} (haround : next ∈ around xs ys index)
    (havoids : Avoids 10 nodes (pointAt xs ys index) (pointAt xs ys next)) :
    Adjacent (gridGraph xs ys nodes finish) index next :=
  ⟨_, (mem_neighbours hsized).2 ⟨haround, havoids, rfl⟩⟩

/-- Part of an open stretch of a row. -/
theorem Avoids.part_row {a b c d y : ℚ} (h : Avoids 10 nodes ⟨a, y⟩ ⟨b, y⟩) (hmin : min a b ≤ min c d) (hmax : max c d ≤ max a b) :
    Avoids 10 nodes ⟨c, y⟩ ⟨d, y⟩ :=
  fun node hnode henters => h node hnode ⟨henters.1.mono hmin hmax (le_refl _) (le_refl _), henters.2⟩

theorem Avoids.part_column {a b c d x : ℚ} (h : Avoids 10 nodes ⟨x, a⟩ ⟨x, b⟩) (hmin : min a b ≤ min c d)
    (hmax : max c d ≤ max a b) : Avoids 10 nodes ⟨x, c⟩ ⟨x, d⟩ :=
  fun node hnode henters => h node hnode ⟨henters.1, henters.2.mono hmin hmax (le_refl _) (le_refl _)⟩

/-- Along an open stretch of a row the search gets from crossing to crossing. -/
theorem reach_row (hsized : Sized nodes) (hxs : xs.Pairwise (· < ·)) {i i' j : ℕ} (hi : i < xs.length) (hi' : i' < xs.length)
    (h : Avoids 10 nodes (pointAt xs ys (i, j)) (pointAt xs ys (i', j))) :
    Relation.ReflTransGen (Adjacent (gridGraph xs ys nodes finish)) (i, j) (i', j) := by
  have hline : Relation.ReflTransGen (fun a b => Adjacent (gridGraph xs ys nodes finish) (a, j) (b, j)) i i' := by
    refine reach_line fun a hlow hhigh => ?_
    obtain ⟨hmin, hmax⟩ := step_between hxs hi hi' hlow hhigh
    have havoids : Avoids 10 nodes (pointAt xs ys (a, j)) (pointAt xs ys (a + 1, j)) := h.part_row hmin hmax
    have hlength : a + 1 < xs.length := lt_of_le_of_lt hhigh (max_lt hi hi')
    exact ⟨adjacent_of_avoids hsized (mem_around.2 (.inl ⟨rfl, .inr ⟨rfl, hlength⟩⟩)) havoids,
      adjacent_of_avoids hsized (mem_around.2 (.inl ⟨rfl, .inl rfl⟩)) havoids.symm⟩
  exact hline.lift (fun a => (a, j)) fun _ _ hab => hab

theorem reach_column (hsized : Sized nodes) (hys : ys.Pairwise (· < ·)) {i j j' : ℕ} (hj : j < ys.length) (hj' : j' < ys.length)
    (h : Avoids 10 nodes (pointAt xs ys (i, j)) (pointAt xs ys (i, j'))) :
    Relation.ReflTransGen (Adjacent (gridGraph xs ys nodes finish)) (i, j) (i, j') := by
  have hline : Relation.ReflTransGen (fun a b => Adjacent (gridGraph xs ys nodes finish) (i, a) (i, b)) j j' := by
    refine reach_line fun a hlow hhigh => ?_
    obtain ⟨hmin, hmax⟩ := step_between hys hj hj' hlow hhigh
    have havoids : Avoids 10 nodes (pointAt xs ys (i, a)) (pointAt xs ys (i, a + 1)) := h.part_column hmin hmax
    have hlength : a + 1 < ys.length := lt_of_le_of_lt hhigh (max_lt hj hj')
    exact ⟨adjacent_of_avoids hsized (mem_around.2 (.inr ⟨rfl, .inr ⟨rfl, hlength⟩⟩)) havoids,
      adjacent_of_avoids hsized (mem_around.2 (.inr ⟨rfl, .inl rfl⟩)) havoids.symm⟩
  exact hline.lift (fun a => (i, a)) fun _ _ hab => hab

/-- What a walk along the lines leads to the search reaches. -/
theorem reach_of_walk (hsized : Sized nodes) (hxs : xs.Pairwise (· < ·)) (hys : ys.Pairwise (· < ·)) (finish : Point)
    {a b : Point} (h : Relation.ReflTransGen (Walk xs ys nodes) a b) :
    Relation.ReflTransGen (Adjacent (gridGraph xs ys nodes finish)) (indexOf xs ys a) (indexOf xs ys b) := by
  refine Relation.ReflTransGen.lift' (indexOf xs ys) (fun a b hab => ?_) a b h
  show Relation.ReflTransGen (Adjacent (gridGraph xs ys nodes finish)) (indexOf xs ys a) (indexOf xs ys b)
  obtain ⟨ha, hb, hstraight, havoids⟩ := hab
  rw [← pointAt_indexOf ha, ← pointAt_indexOf hb] at havoids
  rcases hstraight with hx | hy
  · have hcolumn : indexOf xs ys b = ((indexOf xs ys a).1, (indexOf xs ys b).2) := by simp [indexOf, hx]
    rw [hcolumn] at havoids ⊢
    exact reach_column hsized hys (List.idxOf_lt_length_iff.2 ha.2) (List.idxOf_lt_length_iff.2 hb.2) havoids
  · have hrow : indexOf xs ys b = ((indexOf xs ys b).1, (indexOf xs ys a).2) := by simp [indexOf, hy]
    rw [hrow] at havoids ⊢
    exact reach_row hsized hxs (List.idxOf_lt_length_iff.2 ha.1) (List.idxOf_lt_length_iff.2 hb.1) havoids

end Reach

/-! ## The routes that are found -/

/-- A polyline of open segments from one point to another. -/
structure IsRoute (margin : ℚ) (nodes : List WorkflowNode) (start finish : Point) (points : List Point) : Prop where
  chain : points.IsChain (Open margin nodes)
  head : points.head? = some start
  last : points.getLast? = some finish

theorem IsRoute.simplify {margin : ℚ} {nodes : List WorkflowNode} (hinterior : Interior margin nodes)
    {start finish : Point} {points : List Point} (h : IsRoute margin nodes start finish points) :
    IsRoute margin nodes start finish (simplify points) := by
  obtain ⟨hchain, hhead, hlast⟩ := simplify_spec (joins_open hinterior) h.chain
  exact ⟨hchain, hhead.trans h.head, hlast.trans h.last⟩

section Routes

variable {xs ys : List ℚ} {nodes : List WorkflowNode} {start finish : Point}

/-- Two multiples of a unit that differ are a positive multiple apart. -/
theorem distance_multiple {unit q r : ℚ} (hunit : 0 < unit) (hq : ∃ z : ℤ, q = z * unit) (hr : ∃ z : ℤ, r = z * unit)
    (hne : q ≠ r) : ∃ k : ℕ, 0 < k ∧ |q - r| = k * unit := by
  obtain ⟨z, rfl⟩ := hq
  obtain ⟨w, rfl⟩ := hr
  have hzw : z ≠ w := fun h => hne (by rw [h])
  refine ⟨(z - w).natAbs, Int.natAbs_pos.2 (sub_ne_zero.2 hzw), ?_⟩
  rw [← sub_mul, abs_mul, abs_of_pos hunit, ← Int.cast_sub, ← Int.cast_abs, Int.abs_eq_natAbs, Int.cast_natCast]

theorem getD_lt {l : List ℚ} (hl : l.Pairwise (· < ·)) {i : ℕ} (hi : i + 1 < l.length) : l.getD i 0 < l.getD (i + 1) 0 := by
  rw [List.getD_eq_getElem _ _ (Nat.lt_of_succ_lt hi), List.getD_eq_getElem _ _ hi]
  exact List.pairwise_iff_getElem.1 hl i (i + 1) _ hi (Nat.lt_succ_self i)

theorem getD_mem {l : List ℚ} {i : ℕ} (hi : i < l.length) : l.getD i 0 ∈ l := by
  rw [List.getD_eq_getElem _ _ hi]
  exact List.getElem_mem hi

/-- The steps of the grid have lengths that are multiples of one unit. -/
theorem gridGraph_weighted (hsized : Sized nodes) (hxs : xs.Pairwise (· < ·)) (hys : ys.Pairwise (· < ·)) (finish : Point) :
    ∃ unit, Search.Weighted (gridGraph xs ys nodes finish) unit := by
  obtain ⟨unit, hunit, hall⟩ := exists_unit (xs ++ ys)
  have hclosed : ∀ v ∈ (gridGraph xs ys nodes finish).vertices, ∀ x ∈ (gridGraph xs ys nodes finish).neighbours v,
      x.1 ∈ (gridGraph xs ys nodes finish).vertices := by
    intro v hv x hx
    obtain ⟨haround, -, -⟩ := (mem_neighbours hsized).1 hx
    rw [mem_vertices] at hv ⊢
    rw [mem_around] at haround
    omega
  refine ⟨unit, hunit, hclosed, fun v hv x hx => ?_⟩
  obtain ⟨i, j⟩ := v
  obtain ⟨⟨i', j'⟩, d⟩ := x
  have hnext := mem_vertices.1 (hclosed _ hv _ hx)
  rw [mem_vertices] at hv
  obtain ⟨haround, -, rfl⟩ := (mem_neighbours hsized).1 hx
  have hcolumns : ∀ a < xs.length, ∃ z : ℤ, xs.getD a 0 = z * unit := fun a ha => hall _ (List.mem_append_left _ (getD_mem ha))
  have hrows : ∀ b < ys.length, ∃ z : ℤ, ys.getD b 0 = z * unit := fun b hb => hall _ (List.mem_append_right _ (getD_mem hb))
  rcases mem_around.1 haround with ⟨hrow, hcolumn⟩ | ⟨hcolumn, hrow⟩
  · dsimp only at hrow hcolumn hv hnext
    subst hrow
    have hne : xs.getD i 0 ≠ xs.getD i' 0 := by
      rcases hcolumn with rfl | ⟨rfl, h⟩
      · exact (getD_lt hxs hv.1).ne'
      · exact (getD_lt hxs h).ne
    obtain ⟨k, hk, hd⟩ := distance_multiple hunit (hcolumns i hv.1) (hcolumns i' hnext.1) hne
    exact ⟨k, hk, by simp [length, pointAt, ← hd]⟩
  · dsimp only at hrow hcolumn hv hnext
    subst hcolumn
    have hne : ys.getD j 0 ≠ ys.getD j' 0 := by
      rcases hrow with rfl | ⟨rfl, h⟩
      · exact (getD_lt hys hv.2).ne'
      · exact (getD_lt hys h).ne
    obtain ⟨k, hk, hd⟩ := distance_multiple hunit (hrows j hv.2) (hrows j' hnext.2) hne
    exact ⟨k, hk, by simp [length, pointAt, ← hd]⟩

/-- A step of the search is an open segment. -/
theorem open_of_adjacent (hsized : Sized nodes) {a b : ℕ × ℕ} (h : Adjacent (gridGraph xs ys nodes finish) a b) :
    Open 10 nodes (pointAt xs ys a) (pointAt xs ys b) := by
  obtain ⟨d, hd⟩ := h
  obtain ⟨haround, havoids, -⟩ := (mem_neighbours hsized).1 hd
  refine ⟨?_, havoids⟩
  rcases mem_around.1 haround with ⟨hrow, -⟩ | ⟨hcolumn, -⟩
  · exact .inr (by simp [pointAt, hrow])
  · exact .inl (by simp [pointAt, hcolumn])

/-- The grid search follows some walk along the lines. -/
theorem gridRoute_spec (hsized : Sized nodes) (hxs : xs.Nodup) (hys : ys.Nodup) (hstart : OnGrid xs ys start)
    (hfinish : OnGrid xs ys finish) (hwalk : Relation.ReflTransGen (Walk xs ys nodes) start finish) :
    ∃ n points, (∀ m, n ≤ m → gridRoute m start finish xs ys nodes = some (.ok points)) ∧
      IsRoute 10 nodes start finish points := by
  have hgrid : ∀ p, OnGrid xs ys p → OnGrid xs.mergeSort ys.mergeSort p :=
    fun p hp => ⟨List.mem_mergeSort.2 hp.1, List.mem_mergeSort.2 hp.2⟩
  have hxs' := mergeSort_strict hxs
  have hys' := mergeSort_strict hys
  obtain ⟨unit, hw⟩ := gridGraph_weighted hsized hxs' hys' finish
  have hreach := reach_of_walk hsized hxs' hys' finish
    (Relation.ReflTransGen.mono (fun a b hab => ⟨hgrid a hab.1, hgrid b hab.2.1, hab.2.2⟩) _ _ hwalk)
  have hfirst : indexOf xs.mergeSort ys.mergeSort start ∈ (gridGraph xs.mergeSort ys.mergeSort nodes finish).vertices :=
    mem_vertices.2 ⟨List.idxOf_lt_length_iff.2 (hgrid start hstart).1, List.idxOf_lt_length_iff.2 (hgrid start hstart).2⟩
  obtain ⟨n, way, hsearch, hlast, -, hchain⟩ := Search.search_finds hw hfirst hreach
  refine ⟨n, simplify ((indexOf xs.mergeSort ys.mergeSort start :: way).map (pointAt xs.mergeSort ys.mergeSort)),
    fun m hm => ?_, ?_⟩
  · unfold gridRoute
    dsimp only
    rw [hsearch m hm]
  · refine IsRoute.simplify (hsized.interior (by norm_num)) ⟨?_, ?_, ?_⟩
    · exact (List.isChain_map _).2 (hchain.imp fun a b h => open_of_adjacent hsized h)
    · rw [List.map_cons, List.head?_cons, pointAt_indexOf (hgrid start hstart)]
    · rw [List.getLast?_map, hlast, Option.map_some, pointAt_indexOf (hgrid finish hfinish)]

end Routes

/-- The candidates go straight from the start to the finish. -/
theorem candidates_spec {start finish : Point} {xs ys : List ℚ} {preferredY : Option ℚ} {points : List Point}
    (h : points ∈ candidates start finish xs ys preferredY) :
    points.IsChain Straight ∧ points.head? = some start ∧ points.getLast? = some finish := by
  cases preferredY with
  | some y =>
    obtain rfl := List.mem_singleton.1 h
    simp [Straight]
  | none =>
    simp only [candidates, List.mem_append, List.mem_ite_nil_right, List.mem_map, List.mem_cons,
      List.not_mem_nil, or_false] at h
    rcases h with ((⟨hline, rfl⟩ | rfl | rfl) | ⟨x, -, rfl⟩) | ⟨y, -, rfl⟩
    · simpa [Straight] using hline
    all_goals simp [Straight]

/-- Where the lines lead from one point to the other, a route is found. -/
theorem route_spec {start finish : Point} {nodes : List WorkflowNode} (hsized : Sized nodes) (previous : List (List Point))
    (preferredY : Option ℚ)
    (hwalk : Relation.ReflTransGen (Walk (routeXs start finish nodes) (routeYs start finish nodes preferredY) nodes) start finish) :
    ∃ n points, (∀ m, n ≤ m → route m start finish nodes previous preferredY = some (.ok points)) ∧
      IsRoute 10 nodes start finish points := by
  unfold route
  dsimp only
  generalize hlegal : List.filter _ _ = legal
  cases hsort : legal.mergeSort fun a b => score previous a ≤ score previous b with
  | nil =>
    refine gridRoute_spec hsized (nodup_eraseDups _) (nodup_eraseDups _) ?_ ?_ hwalk
    · exact ⟨by simp [routeXs], by simp [routeYs]⟩
    · exact ⟨by simp [routeXs], by simp [routeYs]⟩
  | cons points others =>
    refine ⟨0, points, fun m _ => rfl, ?_⟩
    have hmem : points ∈ legal := List.mem_mergeSort.1 (hsort ▸ List.mem_cons_self)
    rw [← hlegal, List.mem_filter, List.mem_map, List.all_eq_true] at hmem
    obtain ⟨⟨candidate, hcandidate, rfl⟩, hclear⟩ := hmem
    obtain ⟨hstraight, hhead, hlast⟩ := candidates_spec hcandidate
    obtain ⟨hstraight', hhead', hlast'⟩ := simplify_spec joins_straight hstraight
    refine ⟨forall_segments_iff.1 fun segment hsegment => ?_, hhead'.trans hhead, hlast'.trans hlast⟩
    exact ⟨forall_segments_iff.2 hstraight' segment hsegment, (clearSegment_iff hsized).1 (hclear segment hsegment)⟩

end Leitwerk.WorkflowGraph
