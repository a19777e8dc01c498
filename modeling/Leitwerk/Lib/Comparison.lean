import Mathlib.Data.List.Sort
/-!
# Sorting with a comparison function

`sort` is the stable sort of a comparison function, which says by its sign which
of two elements is first. Where the function is a strict total order on the
elements of a list, the result does not depend on how the list was ordered.
Where some elements are tied, it depends on the order of these and on nothing
else. Where the function is no order, the result is up to the implementation.
-/

namespace Comparison

variable {α : Type}

/-- `list.sort(compare)`. -/
def sort (compare : α → α → Int) (l : List α) : List α := l.insertionSort fun a b => compare a b ≤ 0

/-- The sign changes with the order of the arguments. -/
def Antisymmetric (compare : α → α → Int) : Prop := ∀ a b, compare a b < 0 ↔ 0 < compare b a

/-- Of two elements of a list exactly one is before the other, transitively. -/
structure StrictTotalOn (compare : α → α → Int) (l : List α) : Prop where
  asymm : ∀ a ∈ l, ∀ b ∈ l, compare a b < 0 → ¬ compare b a < 0
  trans : ∀ a ∈ l, ∀ b ∈ l, ∀ c ∈ l, compare a b < 0 → compare b c < 0 → compare a c < 0
  total : ∀ a ∈ l, ∀ b ∈ l, a ≠ b → compare a b < 0 ∨ compare b a < 0

theorem Antisymmetric.self {compare : α → α → Int} (h : Antisymmetric compare) (a : α) : compare a a = 0 := by
  have := h a a
  omega

/-- In a total relation without cycles of three, being before is transitive. -/
theorem trans_of_acyclic {compare : α → α → Int} {l : List α} (hanti : Antisymmetric compare)
    (htotal : ∀ a ∈ l, ∀ b ∈ l, a ≠ b → compare a b < 0 ∨ compare b a < 0)
    (hacyclic : ∀ a ∈ l, ∀ b ∈ l, ∀ c ∈ l, ¬ (compare a b < 0 ∧ compare b c < 0 ∧ compare c a < 0)) :
    StrictTotalOn compare l := by
  refine ⟨?_, ?_, htotal⟩
  · intro a _ b _ hab hba
    have := (hanti a b).1 hab
    omega
  · intro a ha b hb c hc hab hbc
    by_cases hac : a = c
    · subst hac
      have := (hanti a b).1 hab
      omega
    · rcases htotal a ha c hc hac with h | h
      · exact h
      · exact absurd ⟨hab, hbc, h⟩ (hacyclic a ha b hb c hc)

/-- What a comparison function has to be on the elements of a list for their sorted
order to be told by it. Different elements may be tied. -/
structure Consistent (compare : α → α → Int) (l : List α) : Prop where
  antisymm : ∀ a ∈ l, ∀ b ∈ l, compare a b < 0 ↔ 0 < compare b a
  trans : ∀ a ∈ l, ∀ b ∈ l, ∀ c ∈ l, compare a b ≤ 0 → compare b c ≤ 0 → compare a c ≤ 0

theorem Consistent.pairwise_sort {compare : α → α → Int} {l : List α} (h : Consistent compare l) :
    (sort compare l).Pairwise fun a b => compare a b ≤ 0 := by
  classical
  -- the elements of the list, as a type on which the relation is total and transitive
  let le : {a // a ∈ l} → {a // a ∈ l} → Prop := fun a b => compare a b ≤ 0
  have : Std.Total le := by
    constructor
    intro a b
    have := h.antisymm b b.2 a a.2
    simp only [le]
    omega
  have : IsTrans _ le := ⟨fun a b c => h.trans a a.2 b b.2 c c.2⟩
  have hmap : sort compare l = (l.attach.insertionSort le).map Subtype.val := by
    rw [List.map_insertionSort le (fun a b => compare a b ≤ 0) Subtype.val l.attach (fun _ _ _ _ => Iff.rfl),
      List.attach_map_subtype_val]
    rfl
  rw [hmap, List.pairwise_map]
  exact List.pairwise_insertionSort le l.attach

theorem Consistent.mono {compare : α → α → Int} {l l' : List α} (h : Consistent compare l) (hl : ∀ a ∈ l', a ∈ l) :
    Consistent compare l' :=
  ⟨fun a ha b hb => h.antisymm a (hl a ha) b (hl b hb),
    fun a ha b hb c hc => h.trans a (hl a ha) b (hl b hb) c (hl c hc)⟩

/-- It is enough to look at what is compared. -/
theorem consistent_map {β : Type} {compare : α → α → Int} (compare' : β → β → Int) {f : α → β}
    (h : ∀ a b, compare a b = compare' (f a) (f b)) {l : List α} :
    Consistent compare l ↔ Consistent compare' (l.map f) := by
  constructor
  · rintro ⟨hanti, htrans⟩
    refine ⟨?_, ?_⟩
    · simp only [List.forall_mem_map, ← h]
      exact hanti
    · simp only [List.forall_mem_map, ← h]
      exact htrans
  · rintro ⟨hanti, htrans⟩
    simp only [List.forall_mem_map, ← h] at hanti htrans
    exact ⟨hanti, htrans⟩

theorem StrictTotalOn.consistent {compare : α → α → Int} {l : List α} (hanti : Antisymmetric compare)
    (h : StrictTotalOn compare l) : Consistent compare l := by
  classical
  refine ⟨fun a _ b _ => hanti a b, ?_⟩
  intro a ha b hb c hc hab hbc
  by_cases hac : a = c
  · rw [hac, hanti.self]
  · by_cases heq : a = b
    · rwa [heq]
    · by_cases heq' : b = c
      · rwa [← heq']
      · have h₁ : compare a b < 0 := (h.total a ha b hb heq).resolve_right (by have := hanti b a; omega)
        have h₂ : compare b c < 0 := (h.total b hb c hc heq').resolve_right (by have := hanti c b; omega)
        exact le_of_lt (h.trans a ha b hb c hc h₁ h₂)

theorem pairwise_sort {compare : α → α → Int} {l : List α} (hanti : Antisymmetric compare) (h : StrictTotalOn compare l) :
    (sort compare l).Pairwise fun a b => compare a b ≤ 0 := (h.consistent hanti).pairwise_sort

theorem sort_perm (compare : α → α → Int) (l : List α) : (sort compare l).Perm l := List.perm_insertionSort _ l

theorem StrictTotalOn.perm {compare : α → α → Int} {l l' : List α} (h : StrictTotalOn compare l) (hp : l.Perm l') :
    StrictTotalOn compare l' := by
  have hmem : ∀ a, a ∈ l' → a ∈ l := fun a => hp.mem_iff.2
  exact ⟨fun a ha b hb => h.asymm a (hmem a ha) b (hmem b hb),
    fun a ha b hb c hc => h.trans a (hmem a ha) b (hmem b hb) c (hmem c hc),
    fun a ha b hb => h.total a (hmem a ha) b (hmem b hb)⟩

/-- Sorting by a strict total order forgets the order of the list. -/
theorem sort_eq_of_perm {compare : α → α → Int} {l l' : List α} (hanti : Antisymmetric compare)
    (h : StrictTotalOn compare l) (hp : l.Perm l') : sort compare l = sort compare l' := by
  have hl := sort_perm compare l
  have hl' := sort_perm compare l'
  apply (hl.trans (hp.trans hl'.symm)).eq_of_pairwise _ (pairwise_sort hanti h) (pairwise_sort hanti (h.perm hp))
  intro a b ha hb hab hba
  by_contra hne
  have := hanti a b
  have := hanti b a
  rcases h.total a (hl.mem_iff.1 ha) b (hp.mem_iff.2 (hl'.mem_iff.1 hb)) hne with h | h <;> omega

/-! ## Ties -/

/-- An order in which different elements may be tied. -/
structure Preorder (compare : α → α → Int) : Prop where
  antisymm : Antisymmetric compare
  trans : ∀ a b c, compare a b ≤ 0 → compare b c ≤ 0 → compare a c ≤ 0

theorem Preorder.pairwise_sort {compare : α → α → Int} (h : Preorder compare) (l : List α) :
    (sort compare l).Pairwise fun a b => compare a b ≤ 0 := by
  have : Std.Total fun a b : α => compare a b ≤ 0 := ⟨fun a b => by have := h.antisymm b a; omega⟩
  have : IsTrans α fun a b => compare a b ≤ 0 := ⟨h.trans⟩
  exact List.pairwise_insertionSort _ l

/-- Ties of one comparison decided by another. -/
theorem Preorder.lex {compare compare' : α → α → Int} (h : Preorder compare) (h' : Preorder compare') :
    Preorder fun a b => if compare a b ≠ 0 then compare a b else compare' a b := by
  constructor
  · intro a b
    have := h.antisymm a b
    have := h.antisymm b a
    have := h'.antisymm a b
    dsimp only
    split <;> split <;> omega
  · intro a b c
    have := h.antisymm a b
    have := h.antisymm b a
    have := h.antisymm b c
    have := h.antisymm c b
    have := h.antisymm a c
    have := h.antisymm c a
    -- a tie of the outer two is one of all three
    have := h.trans a b c
    have := h.trans b c a
    have := h.trans c a b
    have := h'.trans a b c
    split <;> split <;> split <;> omega

/-- The sort is stable. -/
theorem pair_sublist_sort {compare : α → α → Int} (h : Preorder compare) {a b : α} {l : List α} (hab : compare a b ≤ 0)
    (hl : [a, b].Sublist l) : [a, b].Sublist (sort compare l) := by
  have : Std.Total fun a b : α => compare a b ≤ 0 := ⟨fun a b => by have := h.antisymm b a; omega⟩
  have : IsTrans α fun a b => compare a b ≤ 0 := ⟨h.trans⟩
  exact List.pair_sublist_insertionSort hab hl

/-- Of two elements of a list one comes first. -/
theorem pair_sublist_or {a b : α} {l : List α} (ha : a ∈ l) (hb : b ∈ l) (hne : a ≠ b) :
    [a, b].Sublist l ∨ [b, a].Sublist l := by
  induction l with
  | nil => simp at ha
  | cons c l ih =>
    rcases List.mem_cons.1 ha with rfl | ha
    · have hb : b ∈ l := (List.mem_cons.1 hb).resolve_left (Ne.symm hne)
      exact .inl ((List.singleton_sublist.2 hb).cons_cons a)
    · rcases List.mem_cons.1 hb with rfl | hb
      · have ha : a ∈ l := (List.mem_cons.1 ‹a ∈ b :: l›).resolve_left hne
        exact .inr ((List.singleton_sublist.2 ha).cons_cons b)
      · exact (ih ha hb).imp (fun h => h.cons c) fun h => h.cons c

/-- Where elements occur once, only one of two comes first. -/
theorem pair_sublist_asymm {a b : α} {l : List α} (hnodup : l.Nodup) (hab : [a, b].Sublist l) : ¬ [b, a].Sublist l := by
  intro hba
  induction l with
  | nil => simp at hab
  | cons c l ih =>
    have hc : c ∉ l := (List.nodup_cons.1 hnodup).1
    have hmem : ∀ {d e}, [d, e].Sublist (c :: l) → e ∈ l := by
      intro d e hde
      cases hde with
      | cons _ h => exact h.subset (by simp)
      | cons_cons _ h => exact List.singleton_sublist.1 h
    have htail : ∀ {d e}, d ∈ l → [d, e].Sublist (c :: l) → [d, e].Sublist l := by
      intro d e hd hde
      cases hde with
      | cons _ h => exact h
      | cons_cons _ h => exact absurd hd hc
    exact ih (List.nodup_cons.1 hnodup).2 (htail (hmem hba) hab) (htail (hmem hab) hba)

/-- The sorted list is told by its elements and the order of those that are tied. -/
theorem sort_eq_of_ties {compare : α → α → Int} {l l' : List α} (h : Preorder compare) (hnodup : l.Nodup) (hp : l.Perm l')
    (hties : ∀ a b, compare a b = 0 → [a, b].Sublist l → [a, b].Sublist l') : sort compare l = sort compare l' := by
  have hnodup' : l'.Nodup := hp.nodup_iff.1 hnodup
  -- in a sorted list a tied pair is as it was
  have hback : ∀ {m : List α}, m.Nodup → ∀ {a b}, compare a b = 0 → [a, b].Sublist (sort compare m) → [a, b].Sublist m := by
    intro m hm a b htie hab
    have hsorted : (sort compare m).Nodup := (sort_perm compare m).nodup_iff.2 hm
    have hne : a ≠ b := by simpa using hab.nodup hsorted
    have hmem : ∀ c ∈ [a, b], c ∈ m := fun c hc => (sort_perm compare m).mem_iff.1 (hab.subset hc)
    refine (pair_sublist_or (hmem a (by simp)) (hmem b (by simp)) hne).resolve_right fun hba => ?_
    have := h.antisymm a b
    have := h.antisymm b a
    exact pair_sublist_asymm hsorted hab (pair_sublist_sort h (by omega) hba)
  have hordered : ∀ {m : List α}, m.Nodup → (∀ a b, compare a b = 0 → [a, b].Sublist m → [a, b].Sublist l') →
      (sort compare m).Pairwise fun a b => compare a b < 0 ∨ compare a b = 0 ∧ [a, b].Sublist l' := by
    intro m hm hm'
    rw [List.pairwise_iff_forall_sublist]
    intro a b hab
    have hle := List.pairwise_iff_forall_sublist.1 (h.pairwise_sort m) hab
    by_cases htie : compare a b = 0
    · exact .inr ⟨htie, hm' a b htie (hback hm htie hab)⟩
    · exact .inl (by omega)
  have hl := (sort_perm compare l).trans (hp.trans (sort_perm compare l').symm)
  apply hl.eq_of_pairwise _ (hordered hnodup hties) (hordered hnodup' fun _ _ _ hab => hab)
  intro a b _ _ hab hba
  have := h.antisymm a b
  have := h.antisymm b a
  rcases hab with hlt | ⟨htie, hab⟩
  · rcases hba with hgt | ⟨htie, -⟩ <;> omega
  · rcases hba with hgt | ⟨-, hba⟩
    · omega
    · exact absurd hba (pair_sublist_asymm hnodup' hab)

/-! ## What an implementation may do -/

/-- A sort of an implementation: the stable sort where the comparison function is
consistent, and some order of the elements where it is not. -/
structure Sorts (sorter : (α → α → Int) → List α → List α) : Prop where
  perm : ∀ compare l, (sorter compare l).Perm l
  stable : ∀ compare l, Consistent compare l → sorter compare l = sort compare l

theorem sorts_sort : Sorts (sort (α := α)) := ⟨sort_perm, fun _ _ _ => rfl⟩

/-- Where a comparison function is not consistent, any order may come out. -/
theorem exists_sorter (order : List α → List α) (hperm : ∀ l, (order l).Perm l) :
    ∃ sorter : (α → α → Int) → List α → List α, Sorts sorter ∧
      ∀ compare l, ¬ Consistent compare l → sorter compare l = order l := by
  classical
  refine ⟨fun compare l => if Consistent compare l then sort compare l else order l, ⟨?_, ?_⟩, ?_⟩
  · intro compare l
    split
    · exact sort_perm compare l
    · exact hperm l
  · exact fun compare l h => if_pos h
  · exact fun compare l h => if_neg h

/-- Sorting commutes with a map that keeps the comparison. -/
theorem map_sort {β : Type} {compare : α → α → Int} (compare' : β → β → Int) {f : α → β}
    (h : ∀ a b, compare a b = compare' (f a) (f b)) (l : List α) : (sort compare l).map f = sort compare' (l.map f) := by
  unfold sort
  apply List.map_insertionSort
  intro a _ b _
  rw [h]

end Comparison
