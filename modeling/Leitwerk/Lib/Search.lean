import Mathlib.Algebra.Order.BigOperators.Group.List
import Mathlib.Algebra.Order.Field.Rat
import Mathlib.Data.List.Chain
import Mathlib.Data.List.Perm.Subperm
import Mathlib.Data.Prod.Lex
import Mathlib.Data.Rat.Floor
import Mathlib.Logic.Relation
import Mathlib.Order.WellFounded
import Mathlib.Tactic.Linarith
import Mathlib.Tactic.Positivity
import Mathlib.Tactic.Ring
/-!
# Label-correcting search

A search keeps a cost and a parent for each vertex it has met and a frontier of
the vertices whose neighbours it has yet to look at; a vertex whose cost drops
comes back to the frontier. Whatever estimate picks the next vertex, the search
ends, and it finds the goal when there is a way to it. With an estimate that no
edge undercuts the way it finds is a shortest one.
-/

namespace Search

/-- A graph with weighted edges over a list of vertices, and the estimate that guides a search. -/
structure Graph (V : Type) where
  vertices : List V
  neighbours : V → List (V × ℚ)
  estimate : V → ℚ

/-- What a search knows of the vertices. -/
structure Labels (V : Type) where
  frontier : List V
  cost : V → Option ℚ
  parent : V → Option V

variable {V : Type} [DecidableEq V]

/-- The first vertex of the frontier with the least estimated cost. -/
def pick (g : Graph V) (first : V) (labels : Labels V) : V :=
  (labels.frontier.foldl
    (fun best v =>
      let cost := (labels.cost v).getD 0 + g.estimate v
      if best.2.any (· ≤ cost) then best else (v, some cost))
    ((first, none) : V × Option ℚ)).1

/-- A neighbour at a distance from the vertex that is looked at. -/
def relax (current : V) (labels : Labels V) (next : V × ℚ) : Labels V :=
  let cost := (labels.cost current).getD 0 + next.2
  if (labels.cost next.1).any (· ≤ cost) then labels
  else
    { frontier := if next.1 ∈ labels.frontier then labels.frontier else labels.frontier ++ [next.1]
      cost := Function.update labels.cost next.1 (some cost)
      parent := Function.update labels.parent next.1 (some current) }

/-- The neighbours of a vertex that leaves the frontier. -/
def expand (g : Graph V) (labels : Labels V) (current : V) : Labels V :=
  (g.neighbours current).foldl (relax current) { labels with frontier := labels.frontier.erase current }

/-- The way to a vertex by its parents. -/
def trace (parent : V → Option V) : Nat → V → List V → List V
  | 0, v, way => v :: way
  | fuel + 1, v, way =>
    match parent v with
    | some p => trace parent fuel p (v :: way)
    | none => v :: way

/-- The loop: out of fuel, no way, or the way that was found. -/
def search (g : Graph V) (first goal : V) : Nat → Labels V → Option (Option (List V))
  | 0, _ => none
  | fuel + 1, labels =>
    if labels.frontier = [] then some none
    else
      let current := pick g first labels
      if current = goal then some (some (trace labels.parent g.vertices.length current []))
      else search g first goal fuel (expand g labels current)

def start (first : V) : Labels V where
  frontier := [first]
  cost := Function.update (fun _ => none) first (some 0)
  parent := fun _ => none

def Adjacent (g : Graph V) (a b : V) : Prop := ∃ d, (b, d) ∈ g.neighbours a

/-- Neighbours are vertices, and the weights are positive multiples of a unit. -/
structure Weighted (g : Graph V) (unit : ℚ) : Prop where
  unit_pos : 0 < unit
  closed : ∀ v ∈ g.vertices, ∀ x ∈ g.neighbours v, x.1 ∈ g.vertices
  multiple : ∀ v ∈ g.vertices, ∀ x ∈ g.neighbours v, ∃ k : ℕ, 0 < k ∧ x.2 = k * unit

/-! ## The invariant -/

/-- What the labels say, while `current` is looked at. -/
structure Labelled (g : Graph V) (unit : ℚ) (first goal : V) (looked : V → Prop) (labels : Labels V) : Prop where
  start : labels.cost first = some 0
  root : labels.parent first = none
  vertex : ∀ v c, labels.cost v = some c → v ∈ g.vertices ∧ ∃ k : ℕ, c = k * unit
  parent : ∀ v p, labels.parent v = some p →
    ∃ d c c', (v, d) ∈ g.neighbours p ∧ labels.cost p = some c ∧ labels.cost v = some c' ∧ c + d ≤ c'
  rooted : ∀ v, labels.cost v ≠ none → v ≠ first → labels.parent v ≠ none
  frontier : ∀ v ∈ labels.frontier, labels.cost v ≠ none
  settled : ∀ v c, labels.cost v = some c → v ∉ labels.frontier → ¬ looked v →
    ∀ x ∈ g.neighbours v, ∃ c', labels.cost x.1 = some c' ∧ c' ≤ c + x.2
  goal : labels.cost goal ≠ none → goal ∈ labels.frontier

section Invariant

variable {g : Graph V} {unit : ℚ} {first goal current : V} {labels : Labels V}

theorem start_labelled (hfirst : first ∈ g.vertices) : Labelled g unit first goal (fun _ => False) (start first) := by
  have hcost : ∀ v, (start first).cost v ≠ none → v = first := by
    intro v hv
    by_contra hne
    exact hv (by simp [start, hne])
  refine ⟨by simp [start], rfl, ?_, ?_, ?_, ?_, ?_, ?_⟩
  · intro v c hc
    obtain rfl := hcost v (by simp [hc])
    have hzero : (0 : ℚ) = c := by simpa [start] using hc
    exact ⟨hfirst, 0, by simp [← hzero]⟩
  · intro v p hp
    cases hp
  · intro v hv hne
    exact absurd (hcost v hv) hne
  · intro v hv
    rw [List.mem_singleton.1 hv]
    simp [start]
  · intro v c hc hfrontier
    exact absurd (List.mem_singleton.2 (hcost v (by simp [hc]))) hfrontier
  · intro hgoal
    exact List.mem_singleton.2 (hcost goal hgoal)

/-- Labels are kept or become lower. -/
def NoHigher (labels labels' : Labels V) : Prop := ∀ v c, labels.cost v = some c → ∃ c', labels'.cost v = some c' ∧ c' ≤ c

omit [DecidableEq V] in
theorem NoHigher.trans {labels labels' labels'' : Labels V} (h : NoHigher labels labels') (h' : NoHigher labels' labels'') :
    NoHigher labels labels'' := by
  intro v c hc
  obtain ⟨c', hc', hle⟩ := h v c hc
  obtain ⟨c'', hc'', hle'⟩ := h' v c' hc'
  exact ⟨c'', hc'', hle'.trans hle⟩

/-- Relaxing an edge of the vertex that is looked at keeps the labels, and labels its end. -/
theorem relax_labelled (hw : Weighted g unit) {next : V × ℚ} (hmem : next ∈ g.neighbours current) {c : ℚ}
    (hc : labels.cost current = some c) (h : Labelled g unit first goal (· = current) labels) :
    Labelled g unit first goal (· = current) (relax current labels next) ∧ NoHigher labels (relax current labels next) ∧
      (relax current labels next).cost current = some c ∧
      ∃ c', (relax current labels next).cost next.1 = some c' ∧ c' ≤ c + next.2 := by
  obtain ⟨hvertex, k, hk⟩ := h.vertex current c hc
  obtain ⟨m, hm, hd⟩ := hw.multiple current hvertex next hmem
  have hpos : 0 < next.2 := by
    rw [hd]
    have := hw.unit_pos
    positivity
  have hnonneg : 0 ≤ c := by
    rw [hk]
    have := hw.unit_pos
    positivity
  unfold relax
  rw [hc, Option.getD_some]
  by_cases hkeep : (labels.cost next.1).any (· ≤ c + next.2) = true
  · rw [if_pos hkeep]
    refine ⟨h, fun v c hv => ⟨c, hv, le_refl _⟩, hc, ?_⟩
    cases hc' : labels.cost next.1 with
    | none => simp [hc'] at hkeep
    | some c' => exact ⟨c', rfl, by simpa [hc'] using hkeep⟩
  · rw [if_neg hkeep]
    have hdrop : ∀ c', labels.cost next.1 = some c' → c + next.2 < c' := by
      intro c' hc'
      simpa [hc'] using hkeep
    have hfirst : first ≠ next.1 := by
      intro heq
      have := hdrop 0 (heq ▸ h.start)
      linarith
    have hself : current ≠ next.1 := by
      intro heq
      have := hdrop c (heq ▸ hc)
      linarith
    have hlabelled : ∀ v, Function.update labels.cost next.1 (some (c + next.2)) v ≠ none ↔ v = next.1 ∨ labels.cost v ≠ none := by
      intro v
      by_cases hv : v = next.1
      · simp [hv]
      · simp [hv]
    have hadded : ∀ v, v ∈ (if next.1 ∈ labels.frontier then labels.frontier else labels.frontier ++ [next.1]) ↔
        v = next.1 ∨ v ∈ labels.frontier := by
      intro v
      split
      · exact ⟨.inr, fun hv => hv.elim (fun heq => heq ▸ ‹_›) id⟩
      · simp [or_comm]
    have hlower : ∀ v c', labels.cost v = some c' →
        ∃ c'', Function.update labels.cost next.1 (some (c + next.2)) v = some c'' ∧ c'' ≤ c' := by
      intro v c' hc'
      by_cases hv : v = next.1
      · exact ⟨c + next.2, by simp [hv], (hdrop c' (hv ▸ hc')).le⟩
      · exact ⟨c', by simp [hv, hc'], le_refl _⟩
    refine ⟨⟨?_, ?_, ?_, ?_, ?_, ?_, ?_, ?_⟩, hlower, by simp [hself, hc], c + next.2, by simp, le_refl _⟩
    · simp [hfirst, h.start]
    · simp [hfirst, h.root]
    · intro v c' hc'
      by_cases hv : v = next.1
      · subst hv
        refine ⟨hw.closed current hvertex next hmem, k + m, ?_⟩
        simp only [Function.update_self, Option.some.injEq] at hc'
        rw [← hc', hk, hd]
        push_cast
        ring
      · exact h.vertex v c' (by simpa [hv] using hc')
    · intro v p hp
      by_cases hv : v = next.1
      · subst hv
        simp only [Function.update_self, Option.some.injEq] at hp
        subst hp
        exact ⟨next.2, c, c + next.2, hmem, by simp [hself, hc], by simp, le_refl _⟩
      · obtain ⟨d, cp, cv, hedge, hcp, hcv, hle⟩ := h.parent v p (by simpa [hv] using hp)
        by_cases hpn : p = next.1
        · have hlt := hdrop cp (hpn ▸ hcp)
          exact ⟨d, c + next.2, cv, hedge, by simp [hpn], by simp [hv, hcv], by linarith⟩
        · exact ⟨d, cp, cv, hedge, by simp [hpn, hcp], by simp [hv, hcv], hle⟩
    · intro v hv hne
      by_cases hvn : v = next.1
      · simp [hvn]
      · simpa [hvn] using h.rooted v (((hlabelled v).1 hv).resolve_left hvn) hne
    · intro v hv
      exact (hlabelled v).2 (((hadded v).1 hv).imp_right (h.frontier v))
    · intro v cv hv hfrontier hlooked x hx
      have hout := fun hin => hfrontier ((hadded v).2 hin)
      have hvn : v ≠ next.1 := fun heq => hout (.inl heq)
      have hold : labels.cost v = some cv := by simpa [hvn] using hv
      obtain ⟨cx, hcx, hle⟩ := h.settled v cv hold (fun hin => hout (.inr hin)) hlooked x hx
      obtain ⟨cx', hcx', hle'⟩ := hlower x.1 cx hcx
      exact ⟨cx', hcx', hle'.trans hle⟩
    · intro hgoal
      exact (hadded goal).2 (((hlabelled goal).1 hgoal).imp_right h.goal)

end Invariant

/-! ## The way back -/

section Trace

variable {R : Type} [Preorder R] {parent : V → Option V}

omit [DecidableEq V] in
/-- Parents of ever lower rank lead back to a vertex without one, through no vertex twice. -/
theorem trace_spec (vertices : List V) (rank : V → R) (hrank : ∀ v p, parent v = some p → rank p < rank v)
    (hclosed : ∀ v p, parent v = some p → p ∈ vertices) {v : V} (hv : v ∈ vertices) :
    ∃ root way, trace parent vertices.length v [] = root :: way ∧ parent root = none ∧
      (root :: way).getLast? = some v ∧ (root :: way).Nodup ∧ root :: way ⊆ vertices ∧
      (root :: way).IsChain (fun a b => parent b = some a) := by
  -- the fuel and the way so far count at least all vertices
  have htrace : ∀ fuel u way, vertices.length ≤ fuel + way.length → (∀ w ∈ way, rank u < rank w) →
      (u :: way).Nodup → u :: way ⊆ vertices → (u :: way).IsChain (fun a b => parent b = some a) →
      (u :: way).getLast? = some v →
      ∃ root way', trace parent fuel u way = root :: way' ∧ parent root = none ∧
        (root :: way').getLast? = some v ∧ (root :: way').Nodup ∧ root :: way' ⊆ vertices ∧
        (root :: way').IsChain (fun a b => parent b = some a) := by
    intro fuel
    induction fuel with
    | zero =>
      intro u way hlength _ hnodup hsub _ _
      have hle := (hnodup.subperm hsub).length_le
      simp only [List.length_cons] at hle
      omega
    | succ fuel ih =>
      intro u way hlength hlower hnodup hsub hchain hlast
      rw [trace]
      cases hp : parent u with
      | none => exact ⟨u, way, rfl, hp, hlast, hnodup, hsub, hchain⟩
      | some p =>
        have hlt := hrank u p hp
        have hbelow : ∀ w ∈ u :: way, rank p < rank w := by
          intro w hw
          rcases List.mem_cons.1 hw with rfl | hw
          · exact hlt
          · exact lt_trans hlt (hlower w hw)
        refine ih p (u :: way) ?_ hbelow ?_ ?_ ?_ ?_
        · simp only [List.length_cons]
          omega
        · exact List.nodup_cons.2 ⟨fun hin => lt_irrefl _ (hbelow p hin), hnodup⟩
        · exact List.cons_subset.2 ⟨hclosed u p hp, hsub⟩
        · exact List.isChain_cons_cons.2 ⟨hp, hchain⟩
        · rw [List.getLast?_cons_cons]
          exact hlast
  exact htrace vertices.length v [] (by simp) (by simp) (by simp) (by simpa using hv) (by simp) (by simp)

end Trace

/-! ## The search ends -/

/-- How many vertices have no label. -/
def unlabelled (g : Graph V) (cost : V → Option ℚ) : Nat :=
  (g.vertices.map fun v => if cost v = none then 1 else 0).sum

/-- The costs together, in units. -/
def units (g : Graph V) (unit : ℚ) (cost : V → Option ℚ) : Nat :=
  (g.vertices.map fun v => ⌊(cost v).getD 0 / unit⌋₊).sum

/-- What a vertex that is looked at lowers: the unlabelled vertices, or else the costs. -/
def measure (g : Graph V) (unit : ℚ) (cost : V → Option ℚ) : Nat ×ₗ Nat :=
  toLex (unlabelled g cost, units g unit cost)

section Ends

variable {g : Graph V} {unit : ℚ} {first goal current : V} {labels : Labels V}

/-- A label for a vertex that had none, or a lower one, lowers the measure. -/
theorem measure_update_lt (hunit : 0 < unit) {v : V} (hv : v ∈ g.vertices) {cost : V → Option ℚ} {k : ℕ}
    (hlower : ∀ c, cost v = some c → ∃ m : ℕ, c = m * unit ∧ k < m) :
    measure g unit (Function.update cost v (some (k * unit))) < measure g unit cost := by
  have hfloor : ∀ m : ℕ, ⌊(m * unit : ℚ) / unit⌋₊ = m := by
    intro m
    rw [mul_div_cancel_right₀ _ hunit.ne', Nat.floor_natCast]
  unfold measure
  rw [Prod.Lex.toLex_lt_toLex]
  cases hc : cost v with
  | none =>
    left
    refine List.sum_lt_sum _ _ (fun w _ => ?_) ⟨v, hv, ?_⟩
    · by_cases hw : w = v
      · simp [hw]
      · simp [hw]
    · simp [hc]
  | some c =>
    obtain ⟨m, rfl, hkm⟩ := hlower c hc
    right
    constructor
    · refine congrArg List.sum (List.map_congr_left fun w _ => ?_)
      by_cases hw : w = v
      · simp [hw, hc]
      · simp [hw]
    · refine List.sum_lt_sum _ _ (fun w _ => ?_) ⟨v, hv, ?_⟩
      · by_cases hw : w = v
        · simp only [hw, Function.update_self, hc, Option.getD_some, hfloor]
          exact hkm.le
        · simp [hw]
      · simp only [Function.update_self, hc, Option.getD_some, hfloor]
        exact hkm

/-- Relaxing an edge changes nothing or lowers the measure. -/
theorem relax_lowers (hw : Weighted g unit) {next : V × ℚ} (hmem : next ∈ g.neighbours current)
    (hcurrent : labels.cost current ≠ none) (h : Labelled g unit first goal (· = current) labels) :
    relax current labels next = labels ∨ measure g unit (relax current labels next).cost < measure g unit labels.cost := by
  obtain ⟨c, hc⟩ := Option.ne_none_iff_exists'.1 hcurrent
  obtain ⟨hvertex, k, hk⟩ := h.vertex current c hc
  obtain ⟨m, hm, hd⟩ := hw.multiple current hvertex next hmem
  have hsum : c + next.2 = ((k + m : ℕ) : ℚ) * unit := by
    rw [hk, hd]
    push_cast
    ring
  unfold relax
  rw [hc, Option.getD_some]
  by_cases hkeep : (labels.cost next.1).any (· ≤ c + next.2) = true
  · exact .inl (if_pos hkeep)
  · right
    rw [if_neg hkeep]
    dsimp only
    rw [hsum]
    refine measure_update_lt hw.unit_pos (hw.closed current hvertex next hmem) fun c' hc' => ?_
    obtain ⟨-, m', hm'⟩ := h.vertex next.1 c' hc'
    have hlt : c + next.2 < c' := by simpa [hc'] using hkeep
    rw [hsum, hm'] at hlt
    exact ⟨m', hm', by exact_mod_cast lt_of_mul_lt_mul_right hlt hw.unit_pos.le⟩

/-- The neighbours that were relaxed have labels no higher than over this vertex, and the measure does not rise. -/
theorem foldl_relax_labelled (hw : Weighted g unit) (rest : List (V × ℚ)) (hsub : rest ⊆ g.neighbours current)
    (labels : Labels V) {c : ℚ} (hc : labels.cost current = some c) (h : Labelled g unit first goal (· = current) labels) :
    Labelled g unit first goal (· = current) (rest.foldl (relax current) labels) ∧
      NoHigher labels (rest.foldl (relax current) labels) ∧ (rest.foldl (relax current) labels).cost current = some c ∧
      (∀ x ∈ rest, ∃ c', (rest.foldl (relax current) labels).cost x.1 = some c' ∧ c' ≤ c + x.2) ∧
      (rest.foldl (relax current) labels = labels ∨
        measure g unit (rest.foldl (relax current) labels).cost < measure g unit labels.cost) := by
  induction rest generalizing labels with
  | nil => exact ⟨h, fun _ c hv => ⟨c, hv, le_refl _⟩, hc, by simp, .inl rfl⟩
  | cons x rest ih =>
    obtain ⟨hx, hrest⟩ := List.cons_subset.1 hsub
    obtain ⟨h', hlower, hcurrent, hlabelled⟩ := relax_labelled hw hx hc h
    obtain ⟨h'', hlower', hcurrent', hall, hmeasure⟩ := ih hrest _ hcurrent h'
    refine ⟨h'', hlower.trans hlower', hcurrent', fun y hy => ?_, ?_⟩
    · rcases List.mem_cons.1 hy with rfl | hy
      · obtain ⟨cy, hcy, hle⟩ := hlabelled
        obtain ⟨cy', hcy', hle'⟩ := hlower' _ cy hcy
        exact ⟨cy', hcy', hle'.trans hle⟩
      · exact hall y hy
    · rw [List.foldl_cons]
      rcases relax_lowers hw hx (by simp [hc]) h with hsame | hlt
      · rwa [hsame] at hmeasure ⊢
      · rcases hmeasure with hsame | hlt'
        · rw [hsame]
          exact .inr hlt
        · exact .inr (lt_trans hlt' hlt)

/-- Looking at a vertex leaves the labels in order, and lowers the measure or shortens the frontier. -/
theorem expand_labelled (hw : Weighted g unit) (h : Labelled g unit first goal (fun _ => False) labels)
    (hcurrent : current ∈ labels.frontier) (hne : current ≠ goal) :
    Labelled g unit first goal (fun _ => False) (expand g labels current) ∧
      toLex (measure g unit (expand g labels current).cost, (expand g labels current).frontier.length) <
        toLex (measure g unit labels.cost, labels.frontier.length) := by
  have herased : Labelled g unit first goal (· = current) { labels with frontier := labels.frontier.erase current } := by
    refine ⟨h.start, h.root, h.vertex, h.parent, h.rooted, fun v hv => h.frontier v (List.mem_of_mem_erase hv), ?_, ?_⟩
    · intro v c hc hfrontier hlooked
      exact h.settled v c hc (fun hin => hfrontier ((List.mem_erase_of_ne hlooked).2 hin)) id
    · intro hgoal
      exact (List.mem_erase_of_ne hne.symm).2 (h.goal hgoal)
  obtain ⟨c, hc⟩ := Option.ne_none_iff_exists'.1 (h.frontier current hcurrent)
  obtain ⟨hl, -, hcost, hall, hlower⟩ := foldl_relax_labelled hw (g.neighbours current) (List.Subset.refl _)
    { labels with frontier := labels.frontier.erase current } hc herased
  constructor
  · refine ⟨hl.start, hl.root, hl.vertex, hl.parent, hl.rooted, hl.frontier, ?_, hl.goal⟩
    intro v cv hv hfrontier _ x hx
    by_cases hvc : v = current
    · subst hvc
      have hsame : some cv = some c := hv.symm.trans hcost
      rw [Option.some.inj hsame]
      exact hall x hx
    · exact hl.settled v cv hv hfrontier hvc x hx
  · rw [Prod.Lex.toLex_lt_toLex]
    unfold expand
    rcases hlower with hsame | hlt
    · right
      rw [hsame]
      refine ⟨rfl, ?_⟩
      have hpos := List.length_pos_of_mem hcurrent
      dsimp only
      rw [List.length_erase_of_mem hcurrent]
      omega
    · exact .inl hlt

/-- The cost and the estimate of a vertex together. -/
def total (g : Graph V) (labels : Labels V) (v : V) : ℚ := (labels.cost v).getD 0 + g.estimate v

/-- The best of the vertices that were seen. -/
structure Best (g : Graph V) (labels : Labels V) (seen : List V) (best : V × Option ℚ) : Prop where
  unseen : best.2 = none → seen = []
  mem : best.2 ≠ none → best.1 ∈ seen
  cost : ∀ cost, best.2 = some cost → cost = total g labels best.1
  least : ∀ cost, best.2 = some cost → ∀ v ∈ seen, cost ≤ total g labels v

omit [DecidableEq V] in
theorem Best.foldl (rest : List V) {seen : List V} {best : V × Option ℚ} (h : Best g labels seen best) :
    Best g labels (seen ++ rest) (rest.foldl (fun best v =>
      let cost := (labels.cost v).getD 0 + g.estimate v
      if best.2.any (· ≤ cost) then best else (v, some cost)) best) := by
  induction rest generalizing seen best with
  | nil => simpa using h
  | cons v rest ih =>
    rw [List.foldl_cons, ← List.singleton_append, ← List.append_assoc]
    apply ih
    dsimp only
    by_cases hkeep : best.2.any (· ≤ (labels.cost v).getD 0 + g.estimate v) = true
    · rw [if_pos hkeep]
      refine ⟨fun hbest => by simp [hbest] at hkeep, fun hbest => List.mem_append_left _ (h.mem hbest), h.cost, ?_⟩
      intro cost hcost u hu
      rcases List.mem_append.1 hu with hu | hu
      · exact h.least cost hcost u hu
      · rw [List.mem_singleton.1 hu]
        have hle : cost ≤ (labels.cost v).getD 0 + g.estimate v := by simpa [hcost] using hkeep
        exact hle
    · rw [if_neg hkeep]
      refine ⟨fun hbest => absurd hbest (by simp), fun _ => List.mem_append_right _ (List.mem_singleton_self v),
        fun cost hcost => (Option.some.inj hcost).symm, ?_⟩
      intro cost hcost u hu
      obtain rfl := Option.some.inj hcost
      rcases List.mem_append.1 hu with hu | hu
      · cases hbest : best.2 with
        | none =>
          rw [h.unseen hbest] at hu
          cases hu
        | some cost =>
          have hlt : (labels.cost v).getD 0 + g.estimate v < cost := by simpa [hbest] using hkeep
          exact hlt.le.trans (h.least cost hbest u hu)
      · rw [List.mem_singleton.1 hu]
        exact le_refl _

omit [DecidableEq V] in
/-- A frontier that is not empty has the vertex that is picked, and no other one is better. -/
theorem pick_spec (first : V) (hne : labels.frontier ≠ []) :
    pick g first labels ∈ labels.frontier ∧ ∀ v ∈ labels.frontier, total g labels (pick g first labels) ≤ total g labels v := by
  have hstart : Best g labels [] (first, none) := ⟨fun _ => rfl, fun h => absurd rfl h, by simp, by simp⟩
  have hbest := hstart.foldl labels.frontier
  rw [List.nil_append] at hbest
  unfold pick
  generalize (labels.frontier.foldl (fun best v =>
    let cost := (labels.cost v).getD 0 + g.estimate v
    if best.2.any (· ≤ cost) then best else (v, some cost)) ((first, none) : V × Option ℚ)) = best at hbest
  obtain ⟨cost, hcost⟩ := Option.ne_none_iff_exists'.1 fun hnone => hne (hbest.unseen hnone)
  exact ⟨hbest.mem (by simp [hcost]), fun v hv => hbest.cost cost hcost ▸ hbest.least cost hcost v hv⟩

/-! ## Ways and their weights -/

/-- A way of a weight. -/
inductive Way (g : Graph V) : V → V → ℚ → Prop where
  | refl (a : V) : Way g a a 0
  | step {a b c : V} {w d : ℚ} : Way g a b w → (c, d) ∈ g.neighbours b → Way g a c (w + d)

omit [DecidableEq V] in
theorem Way.trans {a b c : V} {w w' : ℚ} (h : Way g a b w) (h' : Way g b c w') : Way g a c (w + w') := by
  induction h' with
  | refl => simpa using h
  | step _ hedge ih =>
    rw [← add_assoc]
    exact ih.step hedge

omit [DecidableEq V] in
theorem Way.of_reachable {a b : V} (h : Relation.ReflTransGen (Adjacent g) a b) : ∃ w, Way g a b w := by
  induction h with
  | refl => exact ⟨0, .refl a⟩
  | tail _ hedge ih =>
    obtain ⟨w, hw⟩ := ih
    obtain ⟨d, hd⟩ := hedge
    exact ⟨w + d, hw.step hd⟩

/-- The vertices of a way, and its weight. -/
def Weighs (g : Graph V) : List V → ℚ → Prop
  | [], w => w = 0
  | [_], w => w = 0
  | a :: b :: way, w => ∃ d, (b, d) ∈ g.neighbours a ∧ Weighs g (b :: way) (w - d)

omit [DecidableEq V] in
/-- Where every vertex has been looked at, what the first one leads to is labelled. -/
theorem labelled_of_way (h : Labelled g unit first goal (fun _ => False) labels) (hdone : labels.frontier = []) {v : V} {w : ℚ}
    (hway : Way g first v w) : labels.cost v ≠ none := by
  induction hway with
  | refl => simp [h.start]
  | step _ hedge ih =>
    obtain ⟨c, hc⟩ := Option.ne_none_iff_exists'.1 ih
    obtain ⟨c', hc', -⟩ := h.settled _ c hc (by simp [hdone]) id _ hedge
    simp [hc']

/-- An estimate that no edge undercuts and that is zero at the goal. -/
structure Consistent (g : Graph V) (goal : V) : Prop where
  edge : ∀ v, ∀ x ∈ g.neighbours v, g.estimate v ≤ x.2 + g.estimate x.1
  goal : g.estimate goal = 0

omit [DecidableEq V] in
/-- Along a way there is a vertex of the frontier whose total the way does not undercut, or else the label does not exceed it. -/
theorem way_label (hconsistent : Consistent g goal) (h : Labelled g unit first goal (fun _ => False) labels) {v : V} {w : ℚ}
    (hway : Way g first v w) :
    (∃ u ∈ labels.frontier, total g labels u ≤ w + g.estimate v) ∨ ∃ c, labels.cost v = some c ∧ c ≤ w := by
  induction hway with
  | refl => exact .inr ⟨0, h.start, le_refl _⟩
  | step _ hedge ih =>
    rename_i b x w d _
    have hestimate := hconsistent.edge b _ hedge
    dsimp only at hestimate
    rcases ih with ⟨u, hu, hle⟩ | ⟨c, hc, hle⟩
    · exact .inl ⟨u, hu, by linarith⟩
    · by_cases hb : b ∈ labels.frontier
      · refine .inl ⟨b, hb, ?_⟩
        rw [total, hc, Option.getD_some]
        linarith
      · obtain ⟨c', hc', hle'⟩ := h.settled b c hc hb id _ hedge
        dsimp only at hle'
        exact .inr ⟨c', hc', by linarith⟩

omit [DecidableEq V] in
/-- When the goal is picked no way to it is shorter than its label. -/
theorem label_le_way (hconsistent : Consistent g goal) (h : Labelled g unit first goal (fun _ => False) labels)
    (hne : labels.frontier ≠ []) (hpick : pick g first labels = goal) {c w : ℚ} (hc : labels.cost goal = some c)
    (hway : Way g first goal w) : c ≤ w := by
  obtain ⟨-, hleast⟩ := @pick_spec V g labels first hne
  rcases way_label hconsistent h hway with ⟨u, hu, hle⟩ | ⟨c', hc', hle⟩
  · have htotal := hleast u hu
    have hgoal := hconsistent.goal
    rw [hpick, total, hc, Option.getD_some] at htotal
    linarith
  · rw [hc] at hc'
    exact Option.some.inj hc' ▸ hle

omit [DecidableEq V] in
/-- The parents' ways weigh no more than the labels say. -/
theorem weighs_of_parents {looked : V → Prop} (h : Labelled g unit first goal looked labels) (vertices : List V)
    (hchain : vertices.IsChain (fun a b => labels.parent b = some a)) {root v : V} (hlast : vertices.getLast? = some v) {c c' : ℚ} :
    vertices.head? = some root → labels.cost root = some c → labels.cost v = some c' → ∃ w, Weighs g vertices w ∧ w ≤ c' - c := by
  intro hhead hc hc'
  induction vertices generalizing root c with
  | nil => cases hhead
  | cons a vertices ih =>
    obtain rfl : a = root := by simpa using hhead
    cases vertices with
    | nil =>
      obtain rfl : a = v := by simpa using hlast
      rw [hc] at hc'
      exact ⟨0, rfl, by rw [Option.some.inj hc', sub_self]⟩
    | cons b vertices =>
      obtain ⟨hparent, hrest⟩ := List.isChain_cons_cons.1 hchain
      obtain ⟨d, ca, cb, hedge, hca, hcb, hle⟩ := h.parent b a hparent
      obtain ⟨w, hweighs, hw⟩ := ih hrest (by simpa using hlast) rfl hcb
      rw [hc] at hca
      obtain rfl := Option.some.inj hca
      exact ⟨w + d, ⟨d, hedge, by simpa using hweighs⟩, by linarith⟩

/-- The parents of a labelled vertex make a way to it from the first one. -/
theorem trace_labelled (hw : Weighted g unit) (h : Labelled g unit first goal (fun _ => False) labels) {v : V}
    {c : ℚ} (hc : labels.cost v = some c) :
    ∃ way, trace labels.parent g.vertices.length v [] = first :: way ∧ (first :: way).getLast? = some v ∧
      first :: way ⊆ g.vertices ∧ (first :: way).IsChain (Adjacent g) ∧ ∃ w, Weighs g (first :: way) w ∧ w ≤ c := by
  have hrank : ∀ v p, labels.parent v = some p → (labels.cost p).getD 0 < (labels.cost v).getD 0 := by
    intro v p hp
    obtain ⟨d, cp, cv, hedge, hcp, hcv, hle⟩ := h.parent v p hp
    obtain ⟨m, hm, hd⟩ := hw.multiple p (h.vertex p cp hcp).1 _ hedge
    have hpos : 0 < d := by
      rw [show d = m * unit from hd]
      have := hw.unit_pos
      positivity
    rw [hcp, hcv, Option.getD_some, Option.getD_some]
    linarith
  have hclosed : ∀ v p, labels.parent v = some p → p ∈ g.vertices := by
    intro v p hp
    obtain ⟨d, cp, cv, -, hcp, -, -⟩ := h.parent v p hp
    exact (h.vertex p cp hcp).1
  obtain ⟨root, way, htrace, hroot, hlast, -, hsub, hchain⟩ :=
    trace_spec g.vertices (fun v => (labels.cost v).getD 0) hrank hclosed (h.vertex v c hc).1
  have hadjacent : (root :: way).IsChain (Adjacent g) := hchain.imp fun a b hp => by
    obtain ⟨d, cp, cv, hedge, -⟩ := h.parent b a hp
    exact ⟨d, hedge⟩
  -- a vertex without a parent is the first one, for every vertex on the way is labelled
  have hlabelled : labels.cost root ≠ none := by
    cases way with
    | nil =>
      obtain rfl : root = v := by simpa using hlast
      simp [hc]
    | cons w way =>
      obtain ⟨d, cp, cv, -, hcp, -⟩ := h.parent w root (List.isChain_cons_cons.1 hchain).1
      simp [hcp]
  obtain rfl : root = first := by
    by_contra hne
    exact h.rooted root hlabelled hne hroot
  obtain ⟨w, hweighs, hle⟩ := weighs_of_parents h (root :: way) hchain hlast rfl h.start hc
  exact ⟨way, htrace, hlast, hsub, hadjacent, w, hweighs, by simpa using hle⟩

/-- What a search answers: no way, or a way that is a shortest one where the estimate is consistent. -/
def Answer (g : Graph V) (first goal : V) : Option (List V) → Prop
  | none => ∀ w, ¬ Way g first goal w
  | some vertices =>
    vertices.head? = some first ∧ vertices.getLast? = some goal ∧ vertices ⊆ g.vertices ∧ vertices.IsChain (Adjacent g) ∧
      ∃ w, Weighs g vertices w ∧ (Consistent g goal → ∀ w', Way g first goal w' → w ≤ w')

/-- From labels in order the search comes to an end, with its answer. -/
theorem search_labelled (hw : Weighted g unit) (labels : Labels V) (h : Labelled g unit first goal (fun _ => False) labels) :
    ∃ n answer, (∀ m, n ≤ m → search g first goal m labels = some answer) ∧ Answer g first goal answer := by
  generalize hrank : toLex (measure g unit labels.cost, labels.frontier.length) = rank
  induction rank using WellFoundedLT.induction generalizing labels with
  | ind rank ih =>
    subst hrank
    by_cases hne : labels.frontier = []
    · refine ⟨1, none, fun m hm => ?_, fun w hway => ?_⟩
      · obtain ⟨m, rfl⟩ := Nat.exists_eq_add_of_le' hm
        rw [search, if_pos hne]
      · have hgoal := h.goal (labelled_of_way h hne hway)
        simp [hne] at hgoal
    · have hpick := (@pick_spec V g labels first hne).1
      by_cases hgoal : pick g first labels = goal
      · obtain ⟨c, hc⟩ := Option.ne_none_iff_exists'.1 (h.frontier _ hpick)
        obtain ⟨way, htrace, hlast, hsub, hchain, w, hweighs, hle⟩ := trace_labelled hw h hc
        refine ⟨1, some (first :: way), fun m hm => ?_, rfl, hgoal ▸ hlast, hsub, hchain, w, hweighs, fun hconsistent w' hw' => ?_⟩
        · obtain ⟨m, rfl⟩ := Nat.exists_eq_add_of_le' hm
          rw [search, if_neg hne]
          dsimp only
          rw [if_pos hgoal, htrace]
        · exact hle.trans (label_le_way hconsistent h hne hgoal (hgoal ▸ hc) hw')
      · obtain ⟨hexpand, hlt⟩ := expand_labelled hw h hpick hgoal
        obtain ⟨n, answer, hsearch, hanswer⟩ := ih _ hlt _ hexpand rfl
        refine ⟨n + 1, answer, fun m hm => ?_, hanswer⟩
        obtain ⟨m, rfl⟩ := Nat.exists_eq_add_of_le' (Nat.le_of_add_left_le hm)
        rw [search, if_neg hne]
        dsimp only
        rw [if_neg hgoal]
        exact hsearch m (by omega)

/-- A search from a vertex comes to an end, with its answer. -/
theorem search_answers (hw : Weighted g unit) (hfirst : first ∈ g.vertices) (goal : V) :
    ∃ n answer, (∀ m, n ≤ m → search g first goal m (start first) = some answer) ∧ Answer g first goal answer :=
  search_labelled hw (start first) (start_labelled hfirst)

/-- A search from a vertex finds what the vertex leads to. -/
theorem search_finds (hw : Weighted g unit) (hfirst : first ∈ g.vertices)
    (hreach : Relation.ReflTransGen (Adjacent g) first goal) :
    ∃ n way, (∀ m, n ≤ m → search g first goal m (start first) = some (some (first :: way))) ∧
      (first :: way).getLast? = some goal ∧ first :: way ⊆ g.vertices ∧ (first :: way).IsChain (Adjacent g) := by
  obtain ⟨n, answer, hsearch, hanswer⟩ := search_answers hw hfirst goal
  cases answer with
  | none =>
    obtain ⟨w, hway⟩ := Way.of_reachable hreach
    exact absurd hway (hanswer w)
  | some vertices =>
    obtain ⟨hhead, hlast, hsub, hchain, -⟩ := hanswer
    obtain ⟨way, rfl⟩ := List.head?_eq_some_iff.1 hhead
    exact ⟨n, way, hsearch, hlast, hsub, hchain⟩

end Ends

end Search
