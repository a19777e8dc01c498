import Mathlib.Data.List.Nodup
/-!
# Lists with distinct keys

A list whose elements have distinct keys is a map that remembers in which order
its elements were put in, as a JavaScript `Map` does.
-/

namespace Keyed

variable {α κ : Type} [DecidableEq κ] {key : α → κ} {l : List α} {k j : κ} {a b : α}

/-- The element of a key. -/
def get (key : α → κ) (k : κ) (l : List α) : Option α := l.find? (key · == k)

/-- The list without the element of a key. -/
def delete (key : α → κ) (k : κ) (l : List α) : List α := l.eraseP (key · == k)

theorem get_some (h : get key k l = some a) : a ∈ l ∧ key a = k :=
  ⟨List.mem_of_find?_eq_some h, by simpa using List.find?_some h⟩

theorem get_iff (hn : (l.map key).Nodup) : get key k l = some a ↔ a ∈ l ∧ key a = k := by
  refine ⟨get_some, ?_⟩
  rintro ⟨ha, rfl⟩
  cases hb : get key (key a) l with
  | none =>
    have := List.find?_eq_none.1 hb a ha
    simp at this
  | some b =>
    obtain ⟨hb, hkey⟩ := get_some hb
    rw [List.inj_on_of_nodup_map hn hb ha hkey]

theorem get_none : get key k l = none ↔ ∀ a ∈ l, key a ≠ k := by
  simp [get]

theorem delete_eq_filter (hn : (l.map key).Nodup) : delete key k l = l.filter (key · != k) := by
  induction l with
  | nil => rfl
  | cons x l ih =>
    rw [List.map_cons, List.nodup_cons] at hn
    by_cases hx : key x = k
    · rw [delete, List.eraseP_cons_of_pos (by simpa using hx), List.filter_cons_of_neg (by simpa using hx)]
      symm
      apply List.filter_eq_self.2
      intro y hy
      have : key y ≠ key x := fun h => hn.1 (h ▸ List.mem_map_of_mem hy)
      simpa [hx] using this
    · rw [delete, List.eraseP_cons_of_neg (by simpa using hx), List.filter_cons_of_pos (by simpa using hx)]
      exact congrArg (x :: ·) (ih hn.2)

theorem get_delete (hn : (l.map key).Nodup) : get key j (delete key k l) = if j = k then none else get key j l := by
  have hn' : ((delete key k l).map key).Nodup := hn.sublist ((List.eraseP_sublist).map key)
  split
  · rename_i h
    subst h
    rw [delete_eq_filter hn, get_none]
    simp
  · rename_i h
    apply Option.ext
    intro a
    rw [get_iff hn', get_iff hn, delete_eq_filter hn]
    constructor
    · rintro ⟨ha, rfl⟩
      exact ⟨(List.mem_filter.1 ha).1, rfl⟩
    · rintro ⟨ha, rfl⟩
      exact ⟨List.mem_filter.2 ⟨ha, by simpa using h⟩, rfl⟩

theorem get_append : get key k (l ++ [a]) = (get key k l).or (if key a = k then some a else none) := by
  simp only [get, List.find?_append]
  congr 1
  by_cases h : key a = k <;> simp [h]

/-- An element and the list without it have the elements of the list. -/
theorem perm_delete (h : get key k l = some a) : l.Perm (a :: delete key k l) := by
  obtain ⟨hp, l₁, l₂, rfl, hl⟩ := List.find?_eq_some_iff_append.1 h
  have hd : delete key k (l₁ ++ a :: l₂) = l₁ ++ l₂ := by
    rw [delete, List.eraseP_append_right _ (by simpa using hl)]
    exact congrArg (l₁ ++ ·) (List.eraseP_cons_of_pos (p := (key · == k)) hp)
  rw [hd]
  exact List.perm_middle

end Keyed
