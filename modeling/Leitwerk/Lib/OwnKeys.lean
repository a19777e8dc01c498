import Leitwerk.Lib.Comparison
import Leitwerk.Lib.JsString
/-!
# The order of own keys

The language lists the own keys of an object in an order of its own: array
indices first, ascending, then the other keys as they were created. `ordered`
is that order, on anything that has a key.
-/

namespace OwnKeys

open JsString (digits)
open Comparison

variable {α β : Type}

/-- What a key of digits counts. -/
def arrayIndex (key : JsString) : Option ℕ :=
  let n := key.foldl (fun n u => 10 * n + (u.toNat - 0x30)) 0
  if key = digits 10 n ∧ n < 4294967295 then some n else none

def isIndex (key : JsString) : Bool := (arrayIndex key).isSome

def compareIndices (left right : JsString) : Int := (arrayIndex left).getD 0 - (arrayIndex right).getD 0

/-- `OrdinaryOwnPropertyKeys`, of what was created in the order of the list. -/
def ordered (key : α → JsString) (l : List α) : List α :=
  sort (fun a b => compareIndices (key a) (key b)) (l.filter fun a => isIndex (key a)) ++ l.filter fun a => !isIndex (key a)

theorem eq_digits {key : JsString} {n : ℕ} (h : arrayIndex key = some n) : key = digits 10 n := by
  unfold arrayIndex at h
  dsimp only at h
  split at h
  · rename_i hif
    rw [← Option.some.inj h]
    exact hif.1
  · cases h

theorem ordered_perm (key : α → JsString) (l : List α) : (ordered key l).Perm l :=
  ((sort_perm _ _).append_right _).trans (List.filter_append_perm _ l)

theorem map_ordered (key : β → JsString) (f : α → β) (l : List α) :
    (ordered (fun a => key (f a)) l).map f = ordered key (l.map f) := by
  unfold ordered
  rw [List.map_append, map_sort (fun a b => compareIndices (key a) (key b)) (fun _ _ => rfl), List.filter_map,
    List.filter_map]
  rfl

theorem compareIndices_preorder : Preorder compareIndices := by
  refine ⟨fun a b => ?_, fun a b c => ?_⟩ <;> unfold compareIndices <;> omega

/-- One key may be before another. -/
def Before (a b : JsString) : Prop := isIndex b → isIndex a ∧ compareIndices a b ≤ 0

theorem pairwise_ordered (key : α → JsString) (l : List α) : (ordered key l).Pairwise fun a b => Before (key a) (key b) := by
  have hpreorder : Preorder fun a b : α => compareIndices (key a) (key b) :=
    ⟨fun a b => compareIndices_preorder.antisymm _ _, fun a b c => compareIndices_preorder.trans _ _ _⟩
  have hother : ∀ b ∈ l.filter fun a => !isIndex (key a), ∀ a, Before (key a) (key b) := by
    intro b hb a hindex
    simp [hindex] at hb
  refine List.pairwise_append.2 ⟨?_, ?_, fun a _ b hb => hother b hb a⟩
  · apply (hpreorder.pairwise_sort _).imp_of_mem
    intro a b ha _ hab _
    exact ⟨by simpa using (List.mem_filter.1 ((sort_perm _ _).mem_iff.1 ha)).2, hab⟩
  · rw [List.pairwise_iff_forall_sublist]
    exact fun {a b} h => hother b (h.subset (by simp)) a

/-- What is in the order of own keys stays so. -/
theorem ordered_of_pairwise {key : α → JsString} {l : List α} (h : l.Pairwise fun a b => Before (key a) (key b)) :
    ordered key l = l := by
  induction l with
  | nil => rfl
  | cons a l ih =>
    obtain ⟨hfirst, htail⟩ := List.pairwise_cons.1 h
    have hl := ih htail
    cases ha : isIndex (key a) with
    | true =>
      have hle : ∀ b ∈ l.filter (fun a => isIndex (key a)), compareIndices (key a) (key b) ≤ 0 := fun b hb =>
        (hfirst b (List.mem_filter.1 hb).1 (by simpa using (List.mem_filter.1 hb).2)).2
      rw [ordered, List.filter_cons_of_pos (by simpa using ha), List.filter_cons_of_neg (by simp [ha]), sort,
        List.insertionSort_cons_of_forall_rel _ (fun b hb => ?_), List.cons_append]
      · exact congrArg (a :: ·) hl
      · simpa [sort] using hle b hb
    | false =>
      have hnone : ∀ b ∈ l, isIndex (key b) = false := fun b hb => by
        by_contra hb'
        exact absurd (hfirst b hb (by simpa using hb')).1 (by simp [ha])
      have hindices : (a :: l).filter (fun a => isIndex (key a)) = [] := by
        rw [List.filter_eq_nil_iff]
        intro b hb
        rcases List.mem_cons.1 hb with rfl | hb
        · simp [ha]
        · simp [hnone b hb]
      have hothers : (a :: l).filter (fun a => !isIndex (key a)) = a :: l := by
        rw [List.filter_eq_self]
        intro b hb
        rcases List.mem_cons.1 hb with rfl | hb
        · simp [ha]
        · simp [hnone b hb]
      rw [ordered, hindices, hothers]
      rfl

@[simp] theorem ordered_ordered (key : α → JsString) (l : List α) : ordered key (ordered key l) = ordered key l :=
  ordered_of_pairwise (pairwise_ordered key l)

/-- Leaving fields out keeps the order of own keys. -/
theorem ordered_of_sublist {key : α → JsString} {l l' : List α} (hl : ordered key l = l) (h : l'.Sublist l) :
    ordered key l' = l' := by
  apply ordered_of_pairwise
  rw [← hl] at h
  exact (pairwise_ordered key l).sublist h

/-- Keys that are no indices stay as they were created. -/
theorem pair_sublist_ordered {key : α → JsString} {a b : α} {l : List α} (ha : isIndex (key a) = false)
    (hb : isIndex (key b) = false) (h : [a, b].Sublist l) : [a, b].Sublist (ordered key l) := by
  have hfilter := h.filter fun a => !isIndex (key a)
  simp only [List.filter_cons, ha, hb, Bool.not_false, if_true, List.filter_nil] at hfilter
  exact hfilter.trans (List.sublist_append_right _ _)

end OwnKeys
