import Mathlib.Data.List.Induction
/-!
# Texts in lines

`split` cuts a text at a separator and `join` puts lines together again. A text
always has a line. The lemmas say how the lines of an appended text continue
those before it, and that lines which are put together end with the later ones.
-/

namespace Lines

variable {α : Type} (nl : α)

/-- `lines.join(nl)`. -/
@[grind =]
def join : List (List α) → List α
  | [] => []
  | l :: ls => l ++ ls.flatMap (nl :: ·)

theorem join_append {P : List (List α)} (hP : P ≠ []) (Q : List (List α)) :
    join nl (P ++ Q) = join nl P ++ Q.flatMap (nl :: ·) := by
  obtain ⟨l, ls, rfl⟩ := List.exists_cons_of_ne_nil hP
  simp [join, List.append_assoc]

theorem join_concat {P : List (List α)} (hP : P ≠ []) (l : List α) : join nl (P ++ [l]) = join nl P ++ nl :: l := by
  rw [join_append nl hP]
  simp

theorem mem_join {ls : List (List α)} {u : α} (h : u ∈ join nl ls) : u = nl ∨ ∃ l ∈ ls, u ∈ l := by
  cases ls with
  | nil => cases h
  | cons l ls =>
    rcases List.mem_append.1 h with h | h
    · exact .inr ⟨l, List.mem_cons_self, h⟩
    · obtain ⟨l', hl', hu⟩ := List.mem_flatMap.1 h
      rcases List.mem_cons.1 hu with rfl | hu
      · exact .inl rfl
      · exact .inr ⟨l', List.mem_cons_of_mem _ hl', hu⟩

/-- Later lines end what is put together. -/
theorem join_suffix (P Q : List (List α)) : join nl Q <:+ join nl (P ++ Q) := by
  rcases eq_or_ne P [] with rfl | hP
  · exact List.suffix_refl _
  · rw [join_append nl hP]
    rcases Q with _ | ⟨l, ls⟩
    · exact List.nil_suffix
    · exact ⟨join nl P ++ [nl], by simp [join]⟩

/-- The first of the later lines may be the end of a line. -/
theorem join_suffix_of_end (P : List (List α)) (g f : List α) (Q : List (List α)) :
    join nl (f :: Q) <:+ join nl (P ++ (g ++ f) :: Q) :=
  List.IsSuffix.trans ⟨g, by simp [join]⟩ (join_suffix nl P ((g ++ f) :: Q))

/-! ## Cutting -/

variable [DecidableEq α]

/-- `text.split(nl)`. -/
@[grind =]
def split : List α → List (List α)
  | [] => [[]]
  | u :: s => if u = nl then [] :: split s else (split s).modifyHead (u :: ·)

theorem split_ne_nil (s : List α) : split nl s ≠ [] := by
  induction s with
  | nil => simp [split]
  | cons u s ih =>
    unfold split
    split
    · simp
    · obtain ⟨l, ls, hs⟩ := List.exists_cons_of_ne_nil ih
      rw [hs]
      simp

theorem split_cons (s : List α) : ∃ t T, split nl s = t :: T := List.exists_cons_of_ne_nil (split_ne_nil nl s)

theorem split_concat (s : List α) : ∃ A q, split nl s = A ++ [q] :=
  ⟨_, _, (List.dropLast_concat_getLast (split_ne_nil nl s)).symm⟩

/-- The first line of what is appended continues the last line. -/
theorem split_append {a b q t : List α} {A T : List (List α)} (ha : split nl a = A ++ [q]) (hb : split nl b = t :: T) :
    split nl (a ++ b) = A ++ (q ++ t) :: T := by
  induction a generalizing A q with
  | nil =>
    obtain ⟨rfl, rfl⟩ : A = [] ∧ q = [] := by
      rcases A with _ | ⟨x, A⟩
      · simpa [split, eq_comm] using ha
      · simp [split] at ha
    simpa using hb
  | cons u a ih =>
    obtain ⟨A', q', ha'⟩ := split_concat nl a
    rw [List.cons_append, split]
    rw [split] at ha
    by_cases hu : u = nl
    · rw [if_pos hu] at ha ⊢
      rw [ha', ← List.cons_append] at ha
      obtain ⟨rfl, hq⟩ := List.append_inj' ha rfl
      rw [List.singleton_inj] at hq
      rw [ih ha', hq]
      rfl
    · rw [if_neg hu] at ha ⊢
      rw [ha'] at ha
      rw [ih ha']
      rcases A' with _ | ⟨x, A'⟩
      · have hnil : A = [] ∧ u :: q' = q := by
          rcases A with _ | ⟨x, A⟩
          · simpa using ha
          · simp at ha
        obtain ⟨rfl, rfl⟩ := hnil
        rfl
      · rw [List.cons_append, List.modifyHead_cons, ← List.cons_append] at ha
        obtain ⟨rfl, hq⟩ := List.append_inj' ha rfl
        rw [List.singleton_inj] at hq
        rw [hq]
        rfl

theorem split_of_notMem {l : List α} (h : nl ∉ l) : split nl l = [l] := by
  induction l with
  | nil => rfl
  | cons u l ih =>
    rw [List.mem_cons, not_or] at h
    rw [split, if_neg (Ne.symm h.1), ih h.2]
    rfl

theorem split_append_nl (a b : List α) : split nl (a ++ nl :: b) = split nl a ++ split nl b := by
  obtain ⟨A, q, ha⟩ := split_concat nl a
  have hb : split nl (nl :: b) = [] :: split nl b := by rw [split, if_pos rfl]
  rw [split_append nl ha hb, ha]
  simp

theorem join_split (s : List α) : join nl (split nl s) = s := by
  induction s with
  | nil => rfl
  | cons u s ih =>
    obtain ⟨t, T, hs⟩ := split_cons nl s
    rw [hs] at ih
    rw [split, hs]
    split
    · rename_i hu
      subst hu
      simpa [join] using ih
    · simpa [join] using ih

theorem split_join {ls : List (List α)} (hne : ls ≠ []) (h : ∀ l ∈ ls, nl ∉ l) : split nl (join nl ls) = ls := by
  induction ls using List.reverseRecOn with
  | nil => exact absurd rfl hne
  | append_singleton ls l ih =>
    rcases eq_or_ne ls [] with rfl | hls
    · simpa [join] using split_of_notMem nl (h l (by simp))
    · rw [join_concat nl hls, split_append_nl, ih hls fun x hx => h x (by simp [hx]), split_of_notMem nl (h l (by simp))]

theorem notMem_of_split {s l : List α} (h : l ∈ split nl s) : nl ∉ l := by
  induction s generalizing l with
  | nil =>
    simp only [split, List.mem_singleton] at h
    simp [h]
  | cons u s ih =>
    obtain ⟨t, T, hs⟩ := split_cons nl s
    rw [hs] at ih
    rw [split, hs] at h
    split at h
    · rcases List.mem_cons.1 h with rfl | h
      · simp
      · exact ih h
    · rename_i hu
      rw [List.modifyHead_cons] at h
      rcases List.mem_cons.1 h with rfl | h
      · simp [Ne.symm hu, ih List.mem_cons_self]
      · exact ih (List.mem_cons_of_mem _ h)

theorem mem_of_mem_split {s l : List α} {u : α} (h : l ∈ split nl s) (hu : u ∈ l) : u ∈ s := by
  induction s generalizing l with
  | nil =>
    simp only [split, List.mem_singleton] at h
    rw [h] at hu
    cases hu
  | cons v s ih =>
    obtain ⟨t, T, hs⟩ := split_cons nl s
    rw [hs] at ih
    rw [split, hs] at h
    split at h
    · rcases List.mem_cons.1 h with rfl | h
      · cases hu
      · exact List.mem_cons_of_mem _ (ih h hu)
    · rw [List.modifyHead_cons] at h
      rcases List.mem_cons.1 h with rfl | h
      · rcases List.mem_cons.1 hu with rfl | hu
        · exact List.mem_cons_self
        · exact List.mem_cons_of_mem _ (ih List.mem_cons_self hu)
      · exact List.mem_cons_of_mem _ (ih (List.mem_cons_of_mem _ h) hu)

end Lines
