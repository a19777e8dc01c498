import Mathlib.Data.List.Perm.Basic
/-!
# Nestings of merges

A list can be merged under many bracketings. Where the operation is commutative
and associative on what it is given, and has a unit, they all come to the same.
-/

/-- A bracketing of the list of its leaves. -/
inductive Nesting (α : Type)
  | leaf (a : α)
  | node (left right : Nesting α)

namespace Nesting

variable {α β : Type}

def leaves : Nesting α → List α
  | leaf a => [a]
  | node left right => left.leaves ++ right.leaves

/-- The merge of the leaves, from the innermost brackets outwards. -/
def merge (op : α → α → α) : Nesting α → α
  | leaf a => a
  | node left right => op (left.merge op) (right.merge op)

def map (f : α → β) : Nesting α → Nesting β
  | leaf a => leaf (f a)
  | node left right => node (left.map f) (right.map f)

@[simp] theorem leaves_leaf (a : α) : (leaf a).leaves = [a] := rfl

@[simp] theorem leaves_node (left right : Nesting α) : (node left right).leaves = left.leaves ++ right.leaves := rfl

@[simp] theorem leaves_map (f : α → β) (n : Nesting α) : (n.map f).leaves = n.leaves.map f := by
  induction n with
  | leaf a => rfl
  | node left right ihl ihr => simp [map, ihl, ihr]

/-- The bracketing from the right. -/
def ofList (a : α) : List α → Nesting α
  | [] => leaf a
  | b :: l => node (leaf a) (ofList b l)

@[simp] theorem leaves_ofList (a : α) (l : List α) : (ofList a l).leaves = a :: l := by
  induction l generalizing a with
  | nil => rfl
  | cons b l ih => simp [ofList, ih]

/-- What the order and the bracketing of a merge may rest on. -/
structure Commutes (op : α → α → α) (unit : α) (P : α → Prop) : Prop where
  unit_mem : P unit
  closed : ∀ a b, P a → P b → P (op a b)
  left_unit : ∀ a, op unit a = a
  right_unit : ∀ a, op a unit = a
  comm : ∀ a b, op a b = op b a
  assoc : ∀ a b c, P a → P b → P c → op (op a b) c = op a (op b c)

namespace Commutes

variable {op : α → α → α} {unit : α} {P : α → Prop}

theorem foldr_mem (h : Commutes op unit P) {l : List α} (hl : ∀ a ∈ l, P a) : P (l.foldr op unit) := by
  induction l with
  | nil => exact h.unit_mem
  | cons a l ih => exact h.closed _ _ (hl a (by simp)) (ih fun b hb => hl b (by simp [hb]))

theorem foldr_append (h : Commutes op unit P) {l l' : List α} (hl : ∀ a ∈ l, P a) (hl' : ∀ a ∈ l', P a) :
    (l ++ l').foldr op unit = op (l.foldr op unit) (l'.foldr op unit) := by
  induction l with
  | nil => exact (h.left_unit _).symm
  | cons a l ih =>
    have hrest : ∀ b ∈ l, P b := fun b hb => hl b (by simp [hb])
    simp only [List.cons_append, List.foldr_cons]
    rw [ih hrest, h.assoc _ _ _ (hl a (by simp)) (h.foldr_mem hrest) (h.foldr_mem hl')]

theorem foldr_perm (h : Commutes op unit P) {l l' : List α} (hl : ∀ a ∈ l, P a) (hperm : l.Perm l') :
    l.foldr op unit = l'.foldr op unit := by
  induction hperm with
  | nil => rfl
  | cons a _ ih =>
    simp only [List.foldr_cons]
    rw [ih fun b hb => hl b (by simp [hb])]
  | swap a b l =>
    have hrest : P (l.foldr op unit) := h.foldr_mem fun c hc => hl c (by simp [hc])
    have ha : P a := hl a (by simp)
    have hb : P b := hl b (by simp)
    simp only [List.foldr_cons]
    rw [← h.assoc _ _ _ hb ha hrest, h.comm b a, h.assoc _ _ _ ha hb hrest]
  | trans hperm _ ih ih' => exact (ih hl).trans (ih' fun a ha => hl a (hperm.mem_iff.2 ha))

/-- A merge is the fold over its leaves. -/
theorem merge_eq_foldr (h : Commutes op unit P) {n : Nesting α} (hn : ∀ a ∈ n.leaves, P a) :
    n.merge op = n.leaves.foldr op unit := by
  induction n with
  | leaf a => exact (h.right_unit a).symm
  | node left right ihl ihr =>
    have hl : ∀ a ∈ left.leaves, P a := fun a ha => hn a (by simp [ha])
    have hr : ∀ a ∈ right.leaves, P a := fun a ha => hn a (by simp [ha])
    rw [merge, ihl hl, ihr hr, leaves_node, h.foldr_append hl hr]

/-- Neither order nor bracketing matter. -/
theorem merge_perm (h : Commutes op unit P) {n m : Nesting α} (hn : ∀ a ∈ n.leaves, P a) (hperm : n.leaves.Perm m.leaves) :
    n.merge op = m.merge op := by
  rw [h.merge_eq_foldr hn, h.merge_eq_foldr fun a ha => hn a (hperm.mem_iff.2 ha), h.foldr_perm hn hperm]

end Commutes

/-- What holds of the leaves and is kept by the operation holds of the merge. -/
theorem merge_mem {op : α → α → α} {P : α → Prop} (hclosed : ∀ a b, P a → P b → P (op a b)) {n : Nesting α}
    (hn : ∀ a ∈ n.leaves, P a) : P (n.merge op) := by
  induction n with
  | leaf a => exact hn a (by simp)
  | node left right ihl ihr =>
    exact hclosed _ _ (ihl fun a ha => hn a (by simp [ha])) (ihr fun a ha => hn a (by simp [ha]))

end Nesting
