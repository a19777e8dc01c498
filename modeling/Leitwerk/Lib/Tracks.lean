import Mathlib.Algebra.Order.Field.Rat
import Mathlib.Algebra.Order.Group.MinMax
import Mathlib.Data.List.MinMax
import Mathlib.Tactic.Linarith
import Mathlib.Tactic.Ring
/-!
# Items in tracks

Along one axis items lie in tracks: items of one track share their center, and
between items of different tracks there is a gap. Beside the largest item of a
track there is a line that no item comes near, and from every item of the track
there is a way to it.
-/

namespace Tracks

/-- From `a` to `b` there is a value strictly between `lo` and `hi`. -/
def Meets (a b lo hi : ℚ) : Prop := lo < max a b ∧ min a b < hi

theorem Meets.symm {a b lo hi : ℚ} (h : Meets a b lo hi) : Meets b a lo hi := by
  rwa [Meets, max_comm, min_comm]

/-- What a part of a stretch meets the stretch meets. -/
theorem Meets.mono {a b c d lo hi lo' hi' : ℚ} (h : Meets c d lo hi) (hmin : min a b ≤ min c d) (hmax : max c d ≤ max a b)
    (hlo : lo' ≤ lo) (hhi : hi ≤ hi') : Meets a b lo' hi' :=
  ⟨lt_of_le_of_lt hlo (lt_of_lt_of_le h.1 hmax), lt_of_lt_of_le (lt_of_le_of_lt hmin h.2) hhi⟩

/-- What a stretch meets one of its two parts meets, also when the second turns back. -/
theorem Meets.split {a b c lo hi : ℚ} (hlt : lo < hi) (h : Meets a c lo hi) : Meets a b lo hi ∨ Meets b c lo hi := by
  obtain ⟨hmax, hmin⟩ := h
  rcases lt_or_ge lo b with hb | hb
  · rcases lt_or_ge b hi with hb' | hb'
    · exact .inl ⟨lt_max_of_lt_right hb, min_lt_of_right_lt hb'⟩
    · rcases min_lt_iff.1 hmin with ha | hc
      · exact .inl ⟨lt_max_of_lt_right hb, min_lt_of_left_lt ha⟩
      · exact .inr ⟨lt_max_of_lt_left hb, min_lt_of_right_lt hc⟩
  · have hb' := lt_of_le_of_lt hb hlt
    rcases lt_max_iff.1 hmax with ha | hc
    · exact .inl ⟨lt_max_of_lt_left ha, min_lt_of_right_lt hb'⟩
    · exact .inr ⟨lt_max_of_lt_right hc, min_lt_of_left_lt hb'⟩

/-- A stretch that ends before an item begins, or begins after it ends, does not meet it. -/
theorem not_meets_of_le {a b lo hi : ℚ} (h : (a ≤ lo ∧ b ≤ lo) ∨ (hi ≤ a ∧ hi ≤ b)) : ¬ Meets a b lo hi := by
  rintro ⟨hmax, hmin⟩
  rcases h with ⟨ha, hb⟩ | ⟨ha, hb⟩
  · exact absurd hmax (not_lt.2 (max_le ha hb))
  · exact absurd hmin (not_lt.2 (le_min ha hb))

/-- Items of one track share their center, and different tracks lie a gap apart. -/
structure Tracked {α ι : Type} [LinearOrder ι] (gap : ℚ) (items : List α) (track : α → ι) (low size : α → ℚ) : Prop where
  positive : ∀ m ∈ items, 0 < size m
  centered : ∀ m ∈ items, ∀ n ∈ items, track m = track n → low m + size m / 2 = low n + size n / 2
  apart : ∀ m ∈ items, ∀ n ∈ items, track m < track n → low m + size m + gap ≤ low n

/-- A way from a border of an item over an escape to a line that is clear of all items, by a margin. -/
structure Exit {α ι : Type} (items : List α) (track : α → ι) (low size : α → ℚ) (margin : ℚ) (n : α)
    (border escape line : ℚ) : Prop where
  stub : ∀ m ∈ items, (track m ≠ track n ∨ m = n) → ¬ Meets border escape (low m) (low m + size m)
  lead : ∀ m ∈ items, (track m ≠ track n ∨ m = n) → ¬ Meets escape line (low m - margin) (low m + size m + margin)
  line : ∀ m ∈ items, ¬ Meets line line (low m - margin) (low m + size m + margin)

/-- Items that fit into tracks, centered, with a gap between the tracks. -/
theorem tracked_of_center {α ι : Type} [LinearOrder ι] {gap : ℚ} {items : List α} {track : α → ι} {low size : α → ℚ}
    (center extent : ι → ℚ) (hpositive : ∀ m ∈ items, 0 < size m) (hfit : ∀ m ∈ items, size m ≤ extent (track m))
    (hlow : ∀ m ∈ items, low m = center (track m) - size m / 2)
    (hapart : ∀ m ∈ items, ∀ n ∈ items, track m < track n →
      center (track m) + extent (track m) / 2 + gap ≤ center (track n) - extent (track n) / 2) :
    Tracked gap items track low size where
  positive := hpositive
  centered m hm n hn heq := by rw [hlow m hm, hlow n hn, heq]; ring
  apart m hm n hn hlt := by
    have hgap := hapart m hm n hn hlt
    have hfitm := hfit m hm
    have hfitn := hfit n hn
    rw [hlow m hm, hlow n hn]
    linarith

section Exits

variable {α ι : Type} [LinearOrder ι] {gap : ℚ} {items : List α} {track : α → ι} {low size : α → ℚ}

/-- A value beside an item is far from the items of other tracks. -/
theorem Tracked.beside (h : Tracked gap items track low size) {m n : α} (hm : m ∈ items) (hn : n ∈ items)
    (hne : track m ≠ track n) {v margin : ℚ} (hmargin : margin ≤ gap) (hlow : low n ≤ v) (hhigh : v ≤ low n + size n) :
    ¬ Meets v v (low m - margin) (low m + size m + margin) := by
  apply not_meets_of_le
  rcases lt_or_gt_of_ne hne with hlt | hlt
  · have hapart := h.apart m hm n hn hlt
    exact .inr ⟨by linarith, by linarith⟩
  · have hapart := h.apart n hn m hm hlt
    exact .inl ⟨by linarith, by linarith⟩

/-- The largest item of a track. -/
theorem exists_largest (items : List α) (track : α → ι) (size : α → ℚ) {n : α} (hn : n ∈ items) :
    ∃ t ∈ items, track t = track n ∧ ∀ m ∈ items, track m = track n → size m ≤ size t := by
  have hmem : n ∈ items.filter fun m => track m = track n := by simp [hn]
  obtain ⟨t, ht⟩ : ∃ t, t ∈ (items.filter fun m => track m = track n).argmax size := by
    cases hmax : (items.filter fun m => track m = track n).argmax size with
    | none => rw [List.argmax_eq_none.1 hmax] at hmem; cases hmem
    | some t => exact ⟨t, rfl⟩
  have htmem := List.argmax_mem ht
  simp only [List.mem_filter, decide_eq_true_eq] at htmem
  exact ⟨t, htmem.1, htmem.2, fun m hm hmt => List.le_of_mem_argmax (by simp [hm, hmt]) ht⟩

variable (margin escape out : ℚ)

/-- Below an item, and below the largest item of its track. -/
theorem Tracked.exit_low (h : Tracked gap items track low size) (hmargin : margin ≤ escape) (hescape : 0 ≤ escape)
    (hout : escape ≤ out) (hgap : out + margin ≤ gap) (hpos : 0 ≤ margin) {n : α} (hn : n ∈ items) :
    ∃ t ∈ items, Exit items track low size margin n (low n) (low n - escape) (low t - out) := by
  obtain ⟨t, ht, htrack, hlargest⟩ := exists_largest items track size hn
  have hlow : ∀ m ∈ items, track m = track n → low t ≤ low m := by
    intro m hm hmn
    have hcenter := h.centered m hm t ht (hmn.trans htrack.symm)
    have hsize := hlargest m hm hmn
    linarith
  have htn := hlow n hn rfl
  refine ⟨t, ht, ⟨?_, ?_, ?_⟩⟩
  · rintro m hm (hne | rfl)
    · apply not_meets_of_le
      rcases lt_or_gt_of_ne hne with hlt | hlt
      · have hapart := h.apart m hm n hn hlt
        exact .inr ⟨by linarith, by linarith⟩
      · have hapart := h.apart n hn m hm hlt
        have hsize := h.positive n hn
        exact .inl ⟨by linarith, by linarith⟩
    · exact not_meets_of_le (.inl ⟨by linarith, by linarith⟩)
  · rintro m hm (hne | rfl)
    · apply not_meets_of_le
      rcases lt_or_gt_of_ne hne with hlt | hlt
      · have hapart := h.apart m hm t ht (htrack ▸ hlt)
        exact .inr ⟨by linarith, by linarith⟩
      · have hapart := h.apart n hn m hm hlt
        have hsize := h.positive n hn
        exact .inl ⟨by linarith, by linarith⟩
    · exact not_meets_of_le (.inl ⟨by linarith, by linarith⟩)
  · intro m hm
    apply not_meets_of_le
    rcases lt_trichotomy (track m) (track n) with hlt | heq | hlt
    · have hapart := h.apart m hm t ht (htrack ▸ hlt)
      exact .inr ⟨by linarith, by linarith⟩
    · have hm' := hlow m hm heq
      exact .inl ⟨by linarith, by linarith⟩
    · have hapart := h.apart t ht m hm (htrack ▸ hlt)
      have hsize := h.positive t ht
      exact .inl ⟨by linarith, by linarith⟩

/-- The same items, seen from the other end. -/
theorem Tracked.reverse (h : Tracked gap items track low size) :
    Tracked gap items (fun m => OrderDual.toDual (track m)) (fun m => -(low m + size m)) size where
  positive := h.positive
  centered m hm n hn heq := by
    have hcenter := h.centered m hm n hn (OrderDual.toDual.injective heq)
    linarith
  apart m hm n hn hlt := by
    have hapart := h.apart n hn m hm (OrderDual.toDual_lt_toDual.1 hlt)
    linarith

theorem Meets.neg {a b lo hi : ℚ} (h : Meets a b lo hi) : Meets (-a) (-b) (-hi) (-lo) := by
  rw [Meets, max_neg_neg, min_neg_neg]
  exact ⟨neg_lt_neg h.2, neg_lt_neg h.1⟩

/-- Above an item, and above the largest item of its track. -/
theorem Tracked.exit_high (h : Tracked gap items track low size) (hmargin : margin ≤ escape) (hescape : 0 ≤ escape)
    (hout : escape ≤ out) (hgap : out + margin ≤ gap) (hpos : 0 ≤ margin) {n : α} (hn : n ∈ items) :
    ∃ t ∈ items,
      Exit items track low size margin n (low n + size n) (low n + size n + escape) (low t + size t + out) := by
  obtain ⟨t, ht, hexit⟩ := h.reverse.exit_low margin escape out hmargin hescape hout hgap hpos hn
  have hne : ∀ m, (track m ≠ track n ∨ m = n) → (OrderDual.toDual (track m) ≠ OrderDual.toDual (track n) ∨ m = n) :=
    fun m hm => hm.imp_left fun hne heq => hne (OrderDual.toDual.injective heq)
  refine ⟨t, ht, ⟨fun m hm hmn hmeets => ?_, fun m hm hmn hmeets => ?_, fun m hm hmeets => ?_⟩⟩
  · refine hexit.stub m hm (hne m hmn) ?_
    convert hmeets.neg using 1 <;> ring
  · refine hexit.lead m hm (hne m hmn) ?_
    convert hmeets.neg using 1 <;> ring
  · refine hexit.line m hm ?_
    convert hmeets.neg using 1 <;> ring

end Exits

end Tracks
