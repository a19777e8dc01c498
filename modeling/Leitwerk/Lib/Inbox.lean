import Mathlib.Data.List.Basic
import Mathlib.Data.List.Nodup
import Mathlib.Data.List.Infix
/-!
# An inbox with a high-water mark

Items are numbered. An inbox holds the items still to be handled, in the order
of their numbers, and remembers only the highest number it has let go of: an
arriving item at or below that mark is taken for one that was handled before.

`Inbox.Ordered` is the invariant that makes this work, for a queue, its mark
and the items that left: numbers increase along the queue, the queue is above
the mark and what left is not, and nothing left twice. Taking a front part of
the queue keeps it (`Ordered.take`), and so does the arrival of items above the
mark (`Ordered.arrive`).
-/

namespace Inbox

variable {α : Type} {seq : α → Nat}

/-- The numbers increase along the list. -/
abbrev Increasing (seq : α → Nat) (l : List α) : Prop := l.Pairwise fun a b => seq a < seq b

/-- No two of the offered items have the same number. -/
def Numbered (seq : α → Nat) (offered : α → Prop) : Prop :=
  ∀ a b, offered a → offered b → seq a = seq b → a = b

/-- The mark after items left. -/
def mark (seq : α → Nat) (last : Nat) (items : List α) : Nat := (items.map seq).foldl max last

/-- A queue, its mark and the items that left it. -/
structure Ordered (seq : α → Nat) (offered : α → Prop) (queue : List α) (last : Nat) (gone : List α) : Prop where
  valid : ∀ i ∈ queue, offered i
  increasing : Increasing seq queue
  above : ∀ i ∈ queue, last < seq i
  goneValid : ∀ i ∈ gone, offered i
  below : ∀ i ∈ gone, seq i ≤ last
  once : gone.Nodup

/-! ## The mark -/

theorem mark_le (last : Nat) (items : List α) : last ≤ mark seq last items := by
  unfold mark
  induction items generalizing last with
  | nil => exact Nat.le_refl _
  | cons i rest ih => exact Nat.le_trans (Nat.le_max_left _ _) (ih _)

theorem le_mark {i : α} (last : Nat) {items : List α} (h : i ∈ items) : seq i ≤ mark seq last items := by
  induction items generalizing last with
  | nil => cases h
  | cons j rest ih =>
    rcases List.mem_cons.1 h with rfl | h
    · exact Nat.le_trans (Nat.le_max_right _ _) (mark_le _ rest)
    · exact ih _ h

theorem mark_lt {last n : Nat} {items : List α} (hl : last < n) (h : ∀ i ∈ items, seq i < n) :
    mark seq last items < n := by
  induction items generalizing last with
  | nil => exact hl
  | cons i rest ih =>
    refine ih (Nat.max_lt.2 ⟨hl, h i (by simp)⟩) fun j hj => h j (List.mem_cons_of_mem _ hj)

/-! ## Increasing lists -/

theorem Increasing.nodup {l : List α} (h : Increasing seq l) : l.Nodup :=
  h.imp fun h he => by simp [he] at h

/-- Numbers that do not decrease increase, where no item occurs twice. -/
theorem increasing_of_le {offered : α → Prop} {l : List α} (hn : Numbered seq offered) (ho : ∀ i ∈ l, offered i)
    (hd : l.Nodup) (h : l.Pairwise fun a b => seq a ≤ seq b) : Increasing seq l := by
  induction l with
  | nil => exact .nil
  | cons i rest ih =>
    obtain ⟨hi, hrest⟩ := List.pairwise_cons.1 h
    obtain ⟨hnot, hdrest⟩ := List.nodup_cons.1 hd
    refine List.pairwise_cons.2 ⟨fun j hj => ?_, ih (fun j hj => ho j (List.mem_cons_of_mem _ hj)) hdrest hrest⟩
    have hne : seq i ≠ seq j := by
      intro he
      rw [hn i j (ho i (by simp)) (ho j (List.mem_cons_of_mem _ hj)) he] at hnot
      exact hnot hj
    have := hi j hj
    omega

/-- In an increasing list the items that everything else exceeds come first. -/
theorem prefix_of_increasing {p l : List α} (hl : Increasing seq l) (hp : Increasing seq p)
    (hsub : ∀ i ∈ p, i ∈ l) (hrest : ∀ i ∈ l, i ∈ p ∨ ∀ j ∈ p, seq j < seq i) : p <+: l := by
  induction p generalizing l with
  | nil => exact List.nil_prefix
  | cons a p ih =>
    cases l with
    | nil => exact absurd (hsub a (by simp)) (by simp)
    | cons b l =>
      obtain ⟨hb, hl'⟩ := List.pairwise_cons.1 hl
      obtain ⟨ha, hp'⟩ := List.pairwise_cons.1 hp
      have hab : a = b := by
        rcases List.mem_cons.1 (hsub a (by simp)) with h | h
        · exact h
        · -- `b` comes before `a` in `l`, so it is neither in `p` nor above all of it
          have hlt := hb a h
          rcases hrest b (by simp) with hmem | habove
          · rcases List.mem_cons.1 hmem with rfl | hmem
            · omega
            · have := ha b hmem
              omega
          · have := habove a (by simp)
            omega
      subst hab
      refine List.cons_prefix_cons.2 ⟨rfl, ih hl' hp' (fun i hi => ?_) (fun i hi => ?_)⟩
      · rcases List.mem_cons.1 (hsub i (List.mem_cons_of_mem _ hi)) with rfl | h
        · exact absurd (ha i hi) (Nat.lt_irrefl _)
        · exact h
      · rcases hrest i (List.mem_cons_of_mem _ hi) with h | h
        · rcases List.mem_cons.1 h with rfl | h
          · exact absurd (hb i hi) (Nat.lt_irrefl _)
          · exact .inl h
        · exact .inr fun j hj => h j (List.mem_cons_of_mem _ hj)

/-! ## The invariant -/

section
variable {offered : α → Prop} {queue p q gone incoming : List α} {last : Nat}

theorem Ordered.empty : Ordered seq offered [] 0 [] where
  valid := by simp
  increasing := .nil
  above := by simp
  goneValid := by simp
  below := by simp
  once := .nil

/-- Taking a front part of the queue moves the mark past it. -/
theorem Ordered.take (h : Ordered seq offered (p ++ q) last gone) :
    Ordered seq offered q (mark seq last p) (gone ++ p) := by
  obtain ⟨hp, hq, hpq⟩ := List.pairwise_append.1 h.increasing
  constructor
  · exact fun i hi => h.valid i (List.mem_append_right _ hi)
  · exact hq
  · exact fun i hi => mark_lt (h.above i (List.mem_append_right _ hi)) fun j hj => hpq j hj i hi
  · intro i hi
    rcases List.mem_append.1 hi with hi | hi
    · exact h.goneValid i hi
    · exact h.valid i (List.mem_append_left _ hi)
  · intro i hi
    rcases List.mem_append.1 hi with hi | hi
    · exact Nat.le_trans (h.below i hi) (mark_le _ _)
    · exact le_mark _ hi
  · refine List.nodup_append.2 ⟨h.once, Increasing.nodup hp, ?_⟩
    rintro i hi j hj rfl
    have hle := h.below i hi
    have hlt := h.above i (List.mem_append_left _ hj)
    omega

/-- A new queue of the old items and of arrivals above the mark. -/
theorem Ordered.arrive {queue' : List α} (h : Ordered seq offered queue last gone) (hi : Increasing seq queue')
    (hmem : ∀ i ∈ queue', i ∈ queue ∨ i ∈ incoming) (hin : ∀ i ∈ incoming, offered i ∧ last < seq i) :
    Ordered seq offered queue' last gone where
  valid i hi := (hmem i hi).elim (h.valid i) fun hi => (hin i hi).1
  increasing := hi
  above i hi := (hmem i hi).elim (h.above i) fun hi => (hin i hi).2
  goneValid := h.goneValid
  below := h.below
  once := h.once

/-- What is left of the queue when a front part of it is filtered out by names. -/
theorem filter_front {ι : Type} [DecidableEq ι] {name : α → ι} (hd : ((p ++ q).map name).Nodup) :
    (p ++ q).filter (fun i => !(p.map name).contains (name i)) = q := by
  rw [List.filter_append]
  have hp : p.filter (fun i => !(p.map name).contains (name i)) = [] := by
    refine List.filter_eq_nil_iff.2 fun i hi => ?_
    simpa using ⟨i, hi, rfl⟩
  have hq : q.filter (fun i => !(p.map name).contains (name i)) = q := by
    refine List.filter_eq_self.2 fun i hi => ?_
    rw [List.map_append, List.nodup_append] at hd
    simp only [List.contains_eq_mem, Bool.not_eq_true', decide_eq_false_iff_not]
    exact fun h => hd.2.2 _ h _ (List.mem_map_of_mem hi) rfl
  rw [hp, hq]
  rfl

end

end Inbox
