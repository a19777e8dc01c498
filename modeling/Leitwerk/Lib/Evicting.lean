import Mathlib.Data.List.Basic
/-!
# Making room by age

Elements stand in a list from the least to the most recently used, and some of
them must be kept. To make room the oldest element that need not be kept is
dropped, again and again, until the rest fits.

`evict_spec` says what is left: the list without its first few elements that
need not be kept, and without no fewer does it fit. Room is made exactly if the
elements to keep fit on their own.
-/

namespace Evicting

variable {α : Type} {keep : α → Bool} {fits : List α → Bool} {l : List α}

/-- The list without its first `n` elements that need not be kept. -/
def dropOldest (keep : α → Bool) : Nat → List α → List α
  | 0, l => l
  | _ + 1, [] => []
  | n + 1, x :: l => if keep x then x :: dropOldest keep (n + 1) l else dropOldest keep n l

/-- Drops the oldest until the rest fits; it fails when all that is left must be kept. -/
def evict (keep : α → Bool) (fits : List α → Bool) : Nat → List α → List α × Bool
  | 0, l => (l, fits l)
  | n + 1, l => if fits l then (l, true) else if l.all keep then (l, false) else evict keep fits n (l.eraseP (!keep ·))

@[simp] theorem dropOldest_zero (l : List α) : dropOldest keep 0 l = l := by
  cases l <;> rfl

@[simp] theorem dropOldest_nil (n : Nat) : dropOldest keep n ([] : List α) = [] := by
  cases n <;> rfl

theorem dropOldest_succ_cons (n : Nat) (x : α) (l : List α) :
    dropOldest keep (n + 1) (x :: l) = if keep x then x :: dropOldest keep (n + 1) l else dropOldest keep n l := rfl

/-- Dropping the oldest first and then `n` more drops `n + 1`. -/
theorem dropOldest_eraseP (n : Nat) (l : List α) :
    dropOldest keep n (l.eraseP (!keep ·)) = dropOldest keep (n + 1) l := by
  induction l with
  | nil => simp
  | cons x l ih =>
    cases hx : keep x with
    | false => simp [dropOldest_succ_cons, hx]
    | true =>
      rw [List.eraseP_cons_of_neg (by simp [hx]), dropOldest_succ_cons, if_pos hx, ← ih]
      cases n with
      | zero => simp
      | succ n => rw [dropOldest_succ_cons, if_pos hx]

theorem dropOldest_sublist (n : Nat) (l : List α) : (dropOldest keep n l).Sublist l := by
  induction l generalizing n with
  | nil => simp
  | cons x l ih =>
    cases n with
    | zero => simp
    | succ n =>
      rw [dropOldest_succ_cons]
      split
      · exact (ih _).cons_cons x
      · exact (ih _).cons x

/-- What must be kept is kept, in its order. -/
theorem filter_dropOldest (n : Nat) (l : List α) : (dropOldest keep n l).filter keep = l.filter keep := by
  induction l generalizing n with
  | nil => simp
  | cons x l ih =>
    cases n with
    | zero => simp
    | succ n =>
      rw [dropOldest_succ_cons]
      cases hx : keep x <;> simp [hx, ih]

/-- Dropping everything that need not be kept leaves what must be. -/
theorem dropOldest_all {n : Nat} (h : l.countP (!keep ·) ≤ n) : dropOldest keep n l = l.filter keep := by
  induction l generalizing n with
  | nil => simp
  | cons x l ih =>
    cases hx : keep x with
    | true =>
      have hl : l.countP (!keep ·) ≤ n := by simpa [hx] using h
      cases n with
      | zero =>
        have := ih hl
        simp only [dropOldest_zero] at this
        simp [hx, ← this]
      | succ n => rw [dropOldest_succ_cons, if_pos hx, ih hl, List.filter_cons_of_pos hx]
    | false =>
      cases n with
      | zero => simp [hx] at h
      | succ n =>
        rw [dropOldest_succ_cons, if_neg (by simp [hx]), List.filter_cons_of_neg (by simp [hx])]
        apply ih
        simp [hx] at h
        omega

theorem dropOldest_congr {keep' : α → Bool} (h : ∀ x ∈ l, keep x = keep' x) (n : Nat) :
    dropOldest keep n l = dropOldest keep' n l := by
  induction l generalizing n with
  | nil => simp
  | cons x l ih =>
    have hl := fun n => ih (fun y hy => h y (List.mem_cons_of_mem _ hy)) n
    cases n with
    | zero => simp
    | succ n => rw [dropOldest_succ_cons, dropOldest_succ_cons, h x List.mem_cons_self, hl, hl]

/-- A new element that must be kept stays behind the rest. -/
theorem dropOldest_concat {x : α} (hx : keep x = true) (n : Nat) (l : List α) :
    dropOldest keep n (l ++ [x]) = dropOldest keep n l ++ [x] := by
  induction l generalizing n with
  | nil => cases n <;> simp [dropOldest, hx]
  | cons y l ih =>
    cases n with
    | zero => simp
    | succ n =>
      rw [List.cons_append, dropOldest_succ_cons, dropOldest_succ_cons, ih, ih]
      split <;> rfl

/-- What making room leaves of a list: how many are dropped, that no fewer would do, and
whether room was made. -/
structure Evicted (keep : α → Bool) (fits : List α → Bool) (l : List α) (r : List α × Bool) (n : Nat) : Prop where
  left : r.1 = dropOldest keep n l
  least : ∀ i < n, fits (dropOldest keep i l) = false
  fitted : r.2 = fits r.1
  room : r.2 = fits (l.filter keep)
  failed : r.2 = false → r.1 = l.filter keep

theorem evict_spec (hmono : ∀ l l' : List α, l'.Sublist l → fits l = true → fits l' = true) {n : Nat}
    (hn : l.countP (!keep ·) ≤ n) : ∃ k, Evicted keep fits l (evict keep fits n l) k := by
  induction n generalizing l with
  | zero =>
    -- nothing is left to drop
    have hall := dropOldest_all hn
    simp only [dropOldest_zero] at hall
    refine ⟨0, by simp [evict], by simp, rfl, ?_, fun _ => hall⟩
    rw [← hall]
    rfl
  | succ n ih =>
    rw [evict]
    split
    · rename_i hf
      exact ⟨0, by simp, by simp, hf.symm, (hmono _ _ List.filter_sublist hf).symm, by simp⟩
    · rename_i hf
      replace hf : fits l = false := by simpa using hf
      split
      · rename_i hall
        have hall' : l.filter keep = l := List.filter_eq_self.2 (by simpa using hall)
        exact ⟨0, by simp, by simp, hf.symm, by rw [hall', hf], fun _ => hall'.symm⟩
      · rename_i hall
        -- the oldest goes, and the rest is as for the list without it
        have hany : ∃ x ∈ l, (!keep x) = true := by
          simpa using hall
        have hcount : (l.eraseP (!keep ·)).countP (!keep ·) ≤ n := by
          obtain ⟨x, hx, hkx⟩ := hany
          obtain ⟨a, l₁, l₂, hl₁, ha, rfl, hl⟩ := List.exists_of_eraseP (p := (!keep ·)) hx hkx
          rw [hl]
          simp only [List.countP_append, List.countP_cons, ha, if_true] at hn ⊢
          omega
        have hfilter : (l.eraseP (!keep ·)).filter keep = l.filter keep := by
          have : (dropOldest keep 1 l).filter keep = l.filter keep := filter_dropOldest 1 l
          rwa [← dropOldest_eraseP, dropOldest_zero] at this
        obtain ⟨k, h⟩ := ih hcount
        refine ⟨k + 1, ?_, ?_, h.fitted, ?_, ?_⟩
        · rw [h.left, dropOldest_eraseP]
        · intro i hi
          cases i with
          | zero => simpa using hf
          | succ i =>
            rw [← dropOldest_eraseP]
            exact h.least i (by omega)
        · rw [h.room, hfilter]
        · intro hr
          rw [h.failed hr, hfilter]

end Evicting
