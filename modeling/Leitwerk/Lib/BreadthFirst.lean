import Mathlib.Data.List.Chain
import Mathlib.Data.List.Nodup
import Mathlib.Data.List.Pairwise
import Mathlib.Logic.Relation
/-!
# Breadth-first search on a list that grows

The vertices stand in the order in which they were met, and the first `done` of
them have been looked at. The depths along the list do not fall, and span two
levels from the vertex that comes next: so no walk is shorter than the depth of
where it ends. A search from several sources, one after the other, that shares
what it has met gives each vertex to the first source that reaches it.
-/

namespace BreadthFirst

variable {V : Type} {R : V → V → Prop} {goal : V → Prop} {first : V}

/-- From `first` along `R`. -/
structure Walk (R : V → V → Prop) (first : V) (walk : List V) : Prop where
  head : walk.head? = some first
  chain : walk.IsChain R

/-- The last vertex is a goal. -/
def Ends (goal : V → Prop) (walk : List V) : Prop := ∃ v, walk.getLast? = some v ∧ goal v

/-- A shortest walk to a goal, and the first vertex alone where there is none. -/
structure Shortest (R : V → V → Prop) (goal : V → Prop) (first : V) (path : List V) : Prop where
  walk : Walk R first path
  least : ∀ walk, Walk R first walk → Ends goal walk → Ends goal path ∧ path.length ≤ walk.length
  otherwise : (∀ walk, Walk R first walk → ¬ Ends goal walk) → path = [first]

/-! ## Levels -/

/-- The vertices that were met, of which `done` have been looked at. -/
structure Levels (R : V → V → Prop) (goal : V → Prop) (first : V) (order : List V) (depth : V → ℕ) (done : ℕ) : Prop where
  start : order[0]? = some first
  zero : depth first = 0
  sorted : order.Pairwise fun v w => depth v ≤ depth w
  near : ∀ v, order[done]? = some v → ∀ w ∈ order, depth w ≤ depth v + 1
  settled : ∀ i < done, ∀ v, order[i]? = some v → ¬ goal v ∧ ∀ w, R v w → w ∈ order ∧ depth w ≤ depth v + 1

/-- The vertices that were met lead back to the first one, level by level. -/
structure Tree (R : V → V → Prop) (first : V) (order : List V) (depth : V → ℕ) (parent : V → Option V) : Prop where
  root : ∀ v ∈ order, parent v = none → v = first
  step : ∀ v p, parent v = some p → p ∈ order ∧ v ∈ order ∧ R p v ∧ depth v = depth p + 1

section Order

variable {order : List V} {depth : V → ℕ} {done : ℕ}

theorem Levels.init : Levels R goal first [first] (fun _ => 0) 0 where
  start := rfl
  zero := rfl
  sorted := List.pairwise_singleton _ _
  near := fun _ _ _ _ => Nat.zero_le _
  settled := fun _ hi => absurd hi (Nat.not_lt_zero _)

/-- The depths along the list do not fall. -/
theorem Levels.depth_le (h : Levels R goal first order depth done) {i j : ℕ} {v w : V} (hij : i ≤ j) (hv : order[i]? = some v)
    (hw : order[j]? = some w) : depth v ≤ depth w := by
  rcases Nat.eq_or_lt_of_le hij with rfl | hlt
  · rw [hv] at hw
    rw [Option.some.inj hw]
  · obtain ⟨hi, rfl⟩ := List.getElem?_eq_some_iff.1 hv
    obtain ⟨hj, rfl⟩ := List.getElem?_eq_some_iff.1 hw
    exact List.pairwise_iff_getElem.1 h.sorted i j hi hj hlt

section Push

variable [DecidableEq V]

/-- What a new vertex gets changes nothing for the others. -/
theorem update_of_mem {α : Type} {f : V → α} {a : α} {w u : V} (hw : w ∉ order) (hu : u ∈ order) : Function.update f w a u = f u := by
  have hne : u ≠ w := by
    rintro rfl
    exact hw hu
  exact Function.update_of_ne hne _ _

/-- A vertex that is met from the one that is looked at. -/
theorem Levels.push (h : Levels R goal first order depth done) {v w : V} (hv : order[done]? = some v) (hw : w ∉ order) :
    Levels R goal first (order ++ [w]) (Function.update depth w (depth v + 1)) done := by
  have hold : ∀ u ∈ order, Function.update depth w (depth v + 1) u = depth u := fun u hu => update_of_mem hw hu
  have hback : ∀ i u, i ≤ done → (order ++ [w])[i]? = some u → order[i]? = some u := by
    intro i u hi hu
    obtain ⟨hdone, -⟩ := List.getElem?_eq_some_iff.1 hv
    rwa [List.getElem?_append_left (by omega)] at hu
  have hlow : ∀ u ∈ order ++ [w], Function.update depth w (depth v + 1) u ≤ depth v + 1 := by
    intro u hu
    rcases List.mem_append.1 hu with hu | hu
    · rw [hold u hu]
      exact h.near v hv u hu
    · rw [List.mem_singleton.1 hu, Function.update_self]
  refine ⟨?_, ?_, ?_, ?_, ?_⟩
  · rw [List.getElem?_append_left (List.getElem?_eq_some_iff.1 h.start).1]
    exact h.start
  · rw [hold first (List.mem_of_getElem? h.start), h.zero]
  · refine List.pairwise_append.2 ⟨h.sorted.imp_of_mem fun hu hu' hle => ?_, List.pairwise_singleton _ _, fun u hu u' hu' => ?_⟩
    · rw [hold _ hu, hold _ hu']
      exact hle
    · rw [List.mem_singleton.1 hu', Function.update_self, hold u hu]
      exact h.near v hv u hu
  · intro u hu u' hu'
    rw [hback done u (le_refl _) hu, Option.some.injEq] at hv
    subst hv
    rw [hold u (List.mem_of_getElem? (hback done u (le_refl _) hu))]
    exact hlow u' hu'
  · intro i hi u hu
    have hu' := hback i u hi.le hu
    obtain ⟨hgoal, hnext⟩ := h.settled i hi u hu'
    refine ⟨hgoal, fun x hx => ?_⟩
    obtain ⟨hmem, hle⟩ := hnext x hx
    rw [hold x hmem, hold u (List.mem_of_getElem? hu')]
    exact ⟨List.mem_append_left _ hmem, hle⟩

theorem Tree.push {parent : V → Option V} (h : Tree R first order depth parent) {v w : V} (hv : v ∈ order) (hw : w ∉ order)
    (hstep : R v w) :
    Tree R first (order ++ [w]) (Function.update depth w (depth v + 1)) (Function.update parent w (some v)) := by
  have hold : ∀ u ∈ order, Function.update depth w (depth v + 1) u = depth u := fun u hu => update_of_mem hw hu
  refine ⟨fun u hu hnone => ?_, fun u p hp => ?_⟩
  · rcases List.mem_append.1 hu with hu | hu
    · rw [update_of_mem hw hu] at hnone
      exact h.root u hu hnone
    · rw [List.mem_singleton.1 hu, Function.update_self] at hnone
      cases hnone
  · by_cases huw : u = w
    · subst huw
      rw [Function.update_self, Option.some.injEq] at hp
      subst hp
      exact ⟨List.mem_append_left _ hv, List.mem_append_right _ (List.mem_singleton_self _), hstep,
        by rw [Function.update_self, hold v hv]⟩
    · rw [Function.update_of_ne huw] at hp
      obtain ⟨hpmem, humem, hpu, hdepth⟩ := h.step u p hp
      exact ⟨List.mem_append_left _ hpmem, List.mem_append_left _ humem, hpu, by rw [hold u humem, hold p hpmem, hdepth]⟩

end Push

/-- The vertex that was looked at is no goal, and all it leads to was met. -/
theorem Levels.advance (h : Levels R goal first order depth done) {v : V} (hv : order[done]? = some v) (hgoal : ¬ goal v)
    (hall : ∀ w, R v w → w ∈ order) : Levels R goal first order depth (done + 1) := by
  refine ⟨h.start, h.zero, h.sorted, fun u hu w hw => ?_, fun i hi u hu => ?_⟩
  · have hle := h.depth_le (Nat.le_succ done) hv hu
    have hnear := h.near v hv w hw
    omega
  · rcases Nat.lt_succ_iff_lt_or_eq.1 hi with hi | rfl
    · exact h.settled i hi u hu
    · rw [hv, Option.some.injEq] at hu
      subst hu
      exact ⟨hgoal, fun w hw => ⟨hall w hw, h.near v hv w (hall w hw)⟩⟩

/-- A walk that is not longer than the next level is deep is among the vertices that were looked at. -/
theorem Levels.walk_settled (h : Levels R goal first order depth done) {walk : List V} (hwalk : Walk R first walk)
    (hfar : ∀ v, order[done]? = some v → walk.length ≤ depth v) {i : ℕ} {w : V} (hw : walk[i]? = some w) :
    ∃ j < done, order[j]? = some w ∧ depth w ≤ i := by
  -- a vertex of the list whose depth is less than that of the next level stands before it
  have hearly : ∀ (j i : ℕ) u, i < walk.length → order[j]? = some u → depth u ≤ i → j < done := by
    intro j i u hi hu hle
    by_contra hge
    obtain ⟨hj, -⟩ := List.getElem?_eq_some_iff.1 hu
    have hlength : done < order.length := by omega
    have hdone : order[done]? = some order[done] := List.getElem?_eq_getElem hlength
    have hdeep := h.depth_le (not_lt.1 hge) hdone hu
    have := hfar _ hdone
    omega
  induction i generalizing w with
  | zero =>
    have hfirst : w = first := by
      have hhead := hwalk.head
      rw [List.head?_eq_getElem?, hw] at hhead
      exact Option.some.inj hhead
    obtain ⟨hi, -⟩ := List.getElem?_eq_some_iff.1 hw
    subst hfirst
    exact ⟨0, hearly 0 0 w hi h.start h.zero.le, h.start, h.zero.le⟩
  | succ i ih =>
    obtain ⟨hi, rfl⟩ := List.getElem?_eq_some_iff.1 hw
    obtain ⟨j, hj, hget, hle⟩ := ih (List.getElem?_eq_getElem (Nat.lt_of_succ_lt hi))
    obtain ⟨-, hnext⟩ := h.settled j hj _ hget
    obtain ⟨hmem, hle'⟩ := hnext _ (List.isChain_iff_getElem.1 hwalk.chain i hi)
    obtain ⟨k, hk⟩ := List.getElem?_of_mem hmem
    exact ⟨k, hearly k (i + 1) _ hi hk (by omega), hk, by omega⟩

/-- No walk to a goal is that short. -/
theorem Levels.far (h : Levels R goal first order depth done) {walk : List V} (hwalk : Walk R first walk) (hends : Ends goal walk) :
    ∃ v, order[done]? = some v ∧ depth v < walk.length := by
  by_contra hnone
  have hfar : ∀ v, order[done]? = some v → walk.length ≤ depth v := by
    intro v hv
    by_contra hlt
    exact hnone ⟨v, hv, not_le.1 hlt⟩
  obtain ⟨v, hlast, hgoal⟩ := hends
  rw [List.getLast?_eq_getElem?] at hlast
  obtain ⟨j, hj, hget, -⟩ := h.walk_settled hwalk hfar hlast
  exact (h.settled j hj v hget).1 hgoal

/-- Where all was looked at, no walk leads to a goal. -/
theorem Levels.exhausted (h : Levels R goal first order depth done) (hdone : order[done]? = none) :
    Shortest R goal first [first] := by
  have hnever : ∀ walk, Walk R first walk → ¬ Ends goal walk := by
    intro walk hwalk hends
    obtain ⟨v, hv, -⟩ := h.far hwalk hends
    rw [hdone] at hv
    cases hv
  exact ⟨⟨rfl, List.isChain_singleton _⟩, fun walk hwalk hends => absurd hends (hnever walk hwalk), fun _ => rfl⟩

/-- A line of children is as long as the last of them is deep. -/
theorem depth_of_chain {parent : V → Option V} (h : Tree R first order depth parent) (hzero : depth first = 0) {way : List V}
    (hchain : (first :: way).IsChain fun p v => parent v = some p) {v : V} (hlast : (first :: way).getLast? = some v) :
    (first :: way).length = depth v + 1 := by
  have hline : ∀ (way : List V) (u : V), (u :: way).IsChain (fun p v => parent v = some p) → (u :: way).getLast? = some v →
      depth u + (u :: way).length = depth v + 1 := by
    intro way
    induction way with
    | nil =>
      intro u _ hlast
      rw [List.getLast?_singleton, Option.some.injEq] at hlast
      rw [hlast]
      rfl
    | cons w way ih =>
      intro u hchain hlast
      obtain ⟨hparent, hchain⟩ := List.isChain_cons_cons.1 hchain
      obtain ⟨-, -, -, hdepth⟩ := h.step w u hparent
      rw [List.getLast?_cons_cons] at hlast
      have := ih w hchain hlast
      simp only [List.length_cons] at this ⊢
      omega
  have := hline way first hchain hlast
  omega

/-- The line of parents of a goal that comes next is a shortest walk. -/
theorem Levels.found {parent : V → Option V} (h : Levels R goal first order depth done) (htree : Tree R first order depth parent)
    {v : V} (hv : order[done]? = some v) (hgoal : goal v) {root : V} {way : List V} (hroot : parent root = none)
    (hsub : root :: way ⊆ order) (hlast : (root :: way).getLast? = some v)
    (hchain : (root :: way).IsChain fun p v => parent v = some p) : Shortest R goal first (root :: way) := by
  obtain rfl : root = first := htree.root root (hsub List.mem_cons_self) hroot
  have hlength := depth_of_chain htree h.zero hchain hlast
  have hwalk : Walk R root (root :: way) := ⟨rfl, hchain.imp fun p w hp => (htree.step w p hp).2.2.1⟩
  refine ⟨hwalk, fun walk hwalk hends => ⟨⟨v, hlast, hgoal⟩, ?_⟩, fun hnever => absurd ⟨v, hlast, hgoal⟩ (hnever _ hwalk)⟩
  obtain ⟨u, hu, hlt⟩ := h.far hwalk hends
  rw [hv, Option.some.injEq] at hu
  subst hu
  omega

end Order

/-! ## One source after the other -/

section Owners

open Relation

variable {E : V → V → Prop} {sources : List V} {s : V} {base owner : V → Option V} {found : List V} {done : ℕ}

/-- The first source that reaches a vertex along `E`. -/
def Owner (E : V → V → Prop) (sources : List V) (v : V) : Option V → Prop
  | some s => ∃ i : ℕ, sources[i]? = some s ∧ TransGen E s v ∧ ∀ j < i, ∀ t, sources[j]? = some t → ¬ TransGen E t v
  | none => ∀ s ∈ sources, ¬ TransGen E s v

/-- A search from `s` that has met `found` and leaves out what was met before. -/
structure Exploring (E : V → V → Prop) (base : V → Option V) (s : V) (found : List V) (owner : V → Option V) (done : ℕ) : Prop where
  once : found.Nodup
  met : ∀ v ∈ found, base v = none ∧ owner v = some s ∧ TransGen E s v
  others : ∀ v, v ∉ found → owner v = base v
  settled : ∀ i < done, ∀ v, (s :: found)[i]? = some v → ∀ w, E v w → owner w ≠ none

/-- What a source reaches was met with all it leads to. -/
theorem owner_closed (h : ∀ v, Owner E sources v (owner v)) {v w : V} (hv : owner v ≠ none) (hstep : E v w) : owner w ≠ none := by
  intro hw
  obtain ⟨t, ht⟩ := Option.ne_none_iff_exists'.1 hv
  have howner := h v
  rw [ht] at howner
  obtain ⟨i, hi, hreach, -⟩ := howner
  have hunreached := h w
  rw [hw] at hunreached
  exact hunreached t (List.mem_of_getElem? hi) (hreach.tail hstep)

theorem Exploring.init (base : V → Option V) (s : V) : Exploring E base s [] base 0 where
  once := List.nodup_nil
  met := fun _ hv => absurd hv List.not_mem_nil
  others := fun _ _ => rfl
  settled := fun _ hi => absurd hi (Nat.not_lt_zero _)

theorem Exploring.reach (h : Exploring E base s found owner done) {v w : V} (hv : v ∈ s :: found) (hstep : E v w) :
    TransGen E s w := by
  rcases List.mem_cons.1 hv with rfl | hv
  · exact TransGen.single hstep
  · exact (h.met v hv).2.2.tail hstep

theorem Exploring.push [DecidableEq V] (h : Exploring E base s found owner done) {v w : V} (hv : v ∈ s :: found) (hstep : E v w)
    (hdone : done ≤ found.length) (hw : owner w = none) :
    Exploring E base s (found ++ [w]) (Function.update owner w (some s)) done := by
  have hnew : w ∉ found := by
    intro hin
    rw [(h.met w hin).2.1] at hw
    cases hw
  refine ⟨?_, fun u hu => ?_, fun u hu => ?_, fun i hi u hu x hx => ?_⟩
  · exact List.nodup_append'.2 ⟨h.once, List.nodup_singleton w, by simpa using hnew⟩
  · rcases List.mem_append.1 hu with hu | hu
    · rw [update_of_mem hnew hu]
      exact h.met u hu
    · rw [List.mem_singleton.1 hu, Function.update_self]
      exact ⟨(h.others w hnew).symm.trans hw, rfl, h.reach hv hstep⟩
  · obtain ⟨hu, hne⟩ := not_or.1 (mt List.mem_append.2 hu)
    rw [Function.update_of_ne (by simpa using hne)]
    exact h.others u hu
  · rw [← List.cons_append, List.getElem?_append_left (by simp only [List.length_cons]; omega)] at hu
    have hx' := h.settled i hi u hu x hx
    by_cases hxw : x = w
    · rw [hxw, Function.update_self]
      simp
    · rwa [Function.update_of_ne hxw]

theorem Exploring.advance (h : Exploring E base s found owner done) {v : V} (hv : (s :: found)[done]? = some v)
    (hall : ∀ w, E v w → owner w ≠ none) : Exploring E base s found owner (done + 1) := by
  refine ⟨h.once, h.met, h.others, fun i hi u hu => ?_⟩
  rcases Nat.lt_succ_iff_lt_or_eq.1 hi with hi | rfl
  · exact h.settled i hi u hu
  · rw [hv, Option.some.injEq] at hu
    exact hu ▸ hall

/-- When all was looked at, the new source owns what the sources before it do not reach. -/
theorem Exploring.finish (h : Exploring E base s found owner done) (hdone : (s :: found)[done]? = none)
    (hbase : ∀ v, Owner E sources v (base v)) (v : V) : Owner E (sources ++ [s]) v (owner v) := by
  have hlooked : ∀ u ∈ s :: found, ∀ w, E u w → owner w ≠ none := by
    intro u hu
    obtain ⟨i, hi⟩ := List.getElem?_of_mem hu
    obtain ⟨hlt, -⟩ := List.getElem?_eq_some_iff.1 hi
    exact h.settled i (lt_of_lt_of_le hlt (List.getElem?_eq_none_iff.1 hdone)) u hi
  have hkept : ∀ w, base w ≠ none → owner w = base w := fun w hw => h.others w fun hin => hw (h.met w hin).1
  -- what the source reaches was met, by this search or by one before it
  have hreached : ∀ w, TransGen E s w → owner w ≠ none := by
    intro w hw
    induction hw with
    | single hstep => exact hlooked s List.mem_cons_self _ hstep
    | @tail u x _ hstep ih =>
      by_cases hu : u ∈ found
      · exact hlooked u (List.mem_cons_of_mem _ hu) x hstep
      · have hx : base x ≠ none := owner_closed hbase (h.others u hu ▸ ih) hstep
        rwa [hkept x hx]
  have hbefore := hbase v
  by_cases hv : v ∈ found
  · obtain ⟨hnone, howner, hreach⟩ := h.met v hv
    rw [hnone] at hbefore
    rw [howner]
    refine ⟨sources.length, by simp, hreach, fun j hj t ht => hbefore t ?_⟩
    rw [List.getElem?_append_left hj] at ht
    exact List.mem_of_getElem? ht
  · rw [h.others v hv]
    cases hsource : base v with
    | none =>
      rw [hsource] at hbefore
      intro t ht
      rcases List.mem_append.1 ht with ht | ht
      · exact hbefore t ht
      · rw [List.mem_singleton.1 ht]
        exact fun hreach => hreached v hreach ((h.others v hv).trans hsource)
    | some t =>
      rw [hsource] at hbefore
      obtain ⟨i, hi, hreach, hfirst⟩ := hbefore
      have hlt := (List.getElem?_eq_some_iff.1 hi).1
      refine ⟨i, by rwa [List.getElem?_append_left hlt], hreach, fun j hj u hu => ?_⟩
      rw [List.getElem?_append_left (hj.trans hlt)] at hu
      exact hfirst j hj u hu

end Owners

end BreadthFirst
