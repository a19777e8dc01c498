import Mathlib.Data.List.Basic
import Mathlib.Data.List.Nodup
/-!
# Tables with a primary key

A `Table` is a list of rows in insertion order whose keys are distinct, as a
field of the type: two rows of one key cannot be built. `create` refuses a key
that is taken, `modify` changes the row of one key and keeps every other. The
lemmas read a row of the table after each of them.
-/

structure Table (κ α : Type) where
  rows : List (κ × α)
  nodup : (rows.map Prod.fst).Nodup

namespace Table

variable {κ α : Type} [DecidableEq κ]

def empty : Table κ α := ⟨[], List.nodup_nil⟩

/-- The row of a key. -/
def get? (t : Table κ α) (k : κ) : Option α := t.rows.lookup k

/-- The rows, oldest first. -/
def values (t : Table κ α) : List α := t.rows.map Prod.snd

/-- `INSERT`: fails when the key is taken. -/
def create (t : Table κ α) (k : κ) (v : α) : Option (Table κ α) :=
  if h : k ∈ t.rows.map Prod.fst then none
  else some ⟨t.rows ++ [(k, v)], by
    rw [List.map_append]
    exact List.nodup_append'.2 ⟨t.nodup, List.nodup_singleton k, by simpa using h⟩⟩

/-- `UPDATE ... WHERE key = k`: no row, no change. -/
def modify (t : Table κ α) (k : κ) (f : α → α) : Table κ α :=
  ⟨t.rows.map fun r => if r.1 = k then (r.1, f r.2) else r, by
    have hkeys : (t.rows.map fun r => if r.1 = k then (r.1, f r.2) else r).map Prod.fst = t.rows.map Prod.fst := by
      rw [List.map_map]
      apply List.map_congr_left
      intro r _
      simp only [Function.comp]
      split <;> rfl
    rw [hkeys]
    exact t.nodup⟩

/-- `INSERT ... ON CONFLICT (key) DO UPDATE`: the row of a key, new or replaced. -/
def put (t : Table κ α) (k : κ) (v : α) : Table κ α :=
  match t.create k v with
  | some t => t
  | none => t.modify k fun _ => v

/-- `DELETE ... WHERE key = k`. -/
def remove (t : Table κ α) (k : κ) : Table κ α :=
  ⟨t.rows.filter fun r => r.1 ≠ k, t.nodup.sublist (List.filter_sublist.map Prod.fst)⟩

/-- `UPDATE` of every row. -/
def map (t : Table κ α) (f : α → α) : Table κ α :=
  ⟨t.rows.map fun r => (r.1, f r.2), by
    rw [List.map_map]
    exact t.nodup⟩

/-- The rows with other values under their keys. -/
def mapRows {β : Type} (t : Table κ α) (f : κ → α → β) : Table κ β :=
  ⟨t.rows.map fun r => (r.1, f r.1 r.2), by
    rw [List.map_map]
    exact t.nodup⟩

/-- `DELETE` of the rows a predicate does not keep. -/
def filter (t : Table κ α) (p : κ → α → Bool) : Table κ α :=
  ⟨t.rows.filter fun r => p r.1 r.2, t.nodup.sublist (List.filter_sublist.map Prod.fst)⟩

@[simp] theorem get?_empty (k : κ) : (empty : Table κ α).get? k = none := rfl

/-! ## Rows found by their key -/

theorem lookup_eq_none_iff {l : List (κ × α)} {k : κ} : l.lookup k = none ↔ k ∉ l.map Prod.fst := by
  induction l with
  | nil => simp
  | cons r l ih =>
    obtain ⟨k', v⟩ := r
    by_cases h : k = k'
    · simp [h]
    · simp [List.lookup_cons, beq_eq_false_iff_ne.2 h, ih, h]

theorem lookup_append {l l' : List (κ × α)} {k : κ} :
    (l ++ l').lookup k = (l.lookup k).or (l'.lookup k) := by
  induction l with
  | nil => simp
  | cons r l ih =>
    obtain ⟨k', v⟩ := r
    by_cases h : k = k'
    · simp [h]
    · simp [List.lookup_cons, beq_eq_false_iff_ne.2 h, ih]

theorem lookup_modify (l : List (κ × α)) (k k' : κ) (f : α → α) :
    (l.map fun r => if r.1 = k then (r.1, f r.2) else r).lookup k' =
      if k' = k then (l.lookup k').map f else l.lookup k' := by
  induction l with
  | nil => simp
  | cons r l ih =>
    obtain ⟨j, v⟩ := r
    by_cases hj : j = k <;> by_cases hk : k' = j
    · subst hj hk; simp
    · subst hj; simp [List.lookup_cons, beq_eq_false_iff_ne.2 hk, ih, hk]
    · subst hk; simp [hj]
    · simp [List.lookup_cons, beq_eq_false_iff_ne.2 hk, ih, hj]

/-- What a created table is: the key was free and only its row is new. -/
theorem create_eq_some {t t' : Table κ α} {k : κ} {v : α} (h : t.create k v = some t') :
    t.get? k = none ∧ ∀ j, t'.get? j = if j = k then some v else t.get? j := by
  unfold create at h
  split at h
  · cases h
  · rename_i hk
    cases h
    have hnone : t.get? k = none := lookup_eq_none_iff.2 hk
    refine ⟨hnone, fun j => ?_⟩
    show (t.rows ++ [(k, v)]).lookup j = _
    rw [lookup_append]
    by_cases hj : j = k
    · subst hj
      have : t.rows.lookup j = none := hnone
      simp [this]
    · simp [List.lookup_cons, beq_eq_false_iff_ne.2 hj, hj, get?]

theorem get?_modify (t : Table κ α) (k j : κ) (f : α → α) :
    (t.modify k f).get? j = if j = k then (t.get? j).map f else t.get? j :=
  lookup_modify t.rows k j f

theorem get?_modify_self (t : Table κ α) (k : κ) (f : α → α) : (t.modify k f).get? k = (t.get? k).map f := by
  rw [get?_modify, if_pos rfl]

theorem get?_modify_ne (t : Table κ α) {k j : κ} (f : α → α) (h : j ≠ k) : (t.modify k f).get? j = t.get? j := by
  rw [get?_modify, if_neg h]

theorem mem_of_lookup {l : List (κ × α)} {k : κ} {v : α} (h : l.lookup k = some v) : (k, v) ∈ l := by
  induction l with
  | nil => cases h
  | cons r l ih =>
    obtain ⟨j, x⟩ := r
    by_cases hj : k = j
    · subst hj
      simp only [List.lookup_cons, beq_self_eq_true, Option.some.injEq] at h
      subst h
      exact List.mem_cons_self
    · simp only [List.lookup_cons, beq_eq_false_iff_ne.2 hj] at h
      exact List.mem_cons_of_mem _ (ih h)

/-- In a table whose keys are distinct, the row of a key is the one that is found. -/
theorem lookup_of_mem {l : List (κ × α)} {k : κ} {v : α} (hl : (l.map Prod.fst).Nodup) (h : (k, v) ∈ l) :
    l.lookup k = some v := by
  induction l with
  | nil => cases h
  | cons r l ih =>
    obtain ⟨j, x⟩ := r
    rw [List.map_cons, List.nodup_cons] at hl
    rcases List.mem_cons.1 h with heq | hmem
    · cases heq
      simp
    · have hj : k ≠ j := by
        rintro rfl
        exact hl.1 (List.mem_map.2 ⟨(k, v), hmem, rfl⟩)
      simp only [List.lookup_cons, beq_eq_false_iff_ne.2 hj]
      exact ih hl.2 hmem

/-- Only the row of its key meets a condition that singles the key out. -/
theorem find_map_snd (t : Table κ α) {p : κ → Bool} {k : κ} (hp : ∀ j, p j = true ↔ j = k) :
    (t.rows.find? fun r => p r.1).map Prod.snd = t.get? k := by
  unfold get?
  induction t.rows with
  | nil => rfl
  | cons r rows ih =>
    obtain ⟨j, v⟩ := r
    by_cases h : j = k
    · subst h
      simp [List.find?, (hp j).2 rfl]
    · have hj : p j = false := by rw [← Bool.not_eq_true, hp]; exact h
      simp [List.lookup_cons, List.find?, hj, beq_eq_false_iff_ne.2 (Ne.symm h), ih]

theorem mem_values {t : Table κ α} {v : α} : v ∈ t.values ↔ ∃ k, t.get? k = some v := by
  constructor
  · intro h
    obtain ⟨⟨k, x⟩, hmem, rfl⟩ := List.mem_map.1 h
    exact ⟨k, lookup_of_mem t.nodup hmem⟩
  · rintro ⟨k, h⟩
    exact List.mem_map.2 ⟨(k, v), mem_of_lookup h, rfl⟩

theorem create_rows {t t' : Table κ α} {k : κ} {v : α} (h : t.create k v = some t') : t'.rows = t.rows ++ [(k, v)] := by
  unfold create at h
  split at h
  · cases h
  · cases h
    rfl

theorem get?_of_rows {t t' : Table κ α} {k : κ} {v : α} (h : t'.rows = t.rows ++ [(k, v)]) (j : κ) :
    t'.get? j = (t.get? j).or (if j = k then some v else none) := by
  unfold get?
  rw [h, lookup_append]
  by_cases hj : j = k
  · simp [hj]
  · simp [List.lookup_cons, beq_eq_false_iff_ne.2 hj, hj]

theorem create_eq_none {t : Table κ α} {k : κ} {v : α} (h : t.create k v = none) : ∃ w, t.get? k = some w := by
  unfold create at h
  split at h
  · rename_i hk
    rw [← Option.ne_none_iff_exists']
    exact fun hnone => lookup_eq_none_iff.1 hnone hk
  · cases h

/-- A key that is new comes last. -/
theorem rows_put {t : Table κ α} {k : κ} {v : α} (h : t.get? k = none) : (t.put k v).rows = t.rows ++ [(k, v)] := by
  unfold put
  split
  · rename_i t' hcreate
    exact create_rows hcreate
  · rename_i hcreate
    obtain ⟨w, hw⟩ := create_eq_none hcreate
    rw [h] at hw
    cases hw

theorem get?_put (t : Table κ α) (k j : κ) (v : α) : (t.put k v).get? j = if j = k then some v else t.get? j := by
  unfold put
  split
  · rename_i t' hcreate
    exact (create_eq_some hcreate).2 j
  · rename_i hcreate
    obtain ⟨w, hw⟩ := create_eq_none hcreate
    rw [get?_modify]
    split
    · rename_i hj
      rw [hj, hw]
      rfl
    · rfl

theorem get?_remove (t : Table κ α) (k j : κ) : (t.remove k).get? j = if j = k then none else t.get? j := by
  unfold remove get?
  dsimp only
  induction t.rows with
  | nil => simp
  | cons r rows ih =>
    obtain ⟨i, v⟩ := r
    by_cases hi : i = k
    · subst hi
      rw [List.filter_cons_of_neg (by simp), ih]
      by_cases hj : j = i
      · rw [if_pos hj, if_pos hj]
      · simp [List.lookup_cons, beq_eq_false_iff_ne.2 hj, hj]
    · rw [List.filter_cons_of_pos (by simpa using hi)]
      by_cases hj : j = i
      · subst hj
        simp [hi]
      · simp only [List.lookup_cons, beq_eq_false_iff_ne.2 hj]
        exact ih

theorem get?_mapRows {β : Type} (t : Table κ α) (f : κ → α → β) (k : κ) : (t.mapRows f).get? k = (t.get? k).map (f k) := by
  unfold mapRows get?
  dsimp only
  induction t.rows with
  | nil => rfl
  | cons r rows ih =>
    obtain ⟨j, v⟩ := r
    by_cases h : k = j
    · simp [h]
    · simp [List.lookup_cons, beq_eq_false_iff_ne.2 h, ih]

theorem get?_map (t : Table κ α) (f : α → α) (k : κ) : (t.map f).get? k = (t.get? k).map f := by
  unfold map get?
  dsimp only
  induction t.rows with
  | nil => rfl
  | cons r rows ih =>
    obtain ⟨j, v⟩ := r
    by_cases h : k = j
    · simp [h]
    · simp [List.lookup_cons, beq_eq_false_iff_ne.2 h, ih]

theorem get?_filter (t : Table κ α) (p : κ → α → Bool) (k : κ) : (t.filter p).get? k = (t.get? k).filter (p k) := by
  cases hk : t.get? k with
  | none =>
    refine lookup_eq_none_iff.2 fun hmem => ?_
    obtain ⟨r, hr, rfl⟩ := List.mem_map.1 hmem
    have hrow : t.get? r.1 = some r.2 := lookup_of_mem t.nodup (List.mem_of_mem_filter hr)
    rw [hk] at hrow
    cases hrow
  | some v =>
    by_cases hp : p k v = true
    · rw [Option.filter_some_pos hp]
      exact lookup_of_mem (t.filter p).nodup (List.mem_filter.2 ⟨mem_of_lookup hk, hp⟩)
    · rw [Option.filter_some_neg (by simpa using hp)]
      refine lookup_eq_none_iff.2 fun hmem => ?_
      obtain ⟨r, hr, rfl⟩ := List.mem_map.1 hmem
      obtain ⟨hr, hkeep⟩ := List.mem_filter.1 hr
      have hrow : t.get? r.1 = some r.2 := lookup_of_mem t.nodup hr
      rw [hk, Option.some.injEq] at hrow
      exact hp (hrow ▸ hkeep)

/-! ## Keys of two columns -/

section Under

variable {ι : Type} [DecidableEq ι]

/-- The rows whose key has a first column, by the second. -/
def under (t : Table (κ × ι) α) (k : κ) : List (ι × α) :=
  t.rows.filterMap fun r => if r.1.1 = k then some (r.1.2, r.2) else none

theorem mem_under {t : Table (κ × ι) α} {k : κ} {i : ι} {v : α} : (i, v) ∈ t.under k ↔ t.get? (k, i) = some v := by
  have hmem : (i, v) ∈ t.under k ↔ ((k, i), v) ∈ t.rows := by
    unfold under
    rw [List.mem_filterMap]
    constructor
    · rintro ⟨⟨⟨k', i'⟩, v'⟩, hr, hif⟩
      split at hif
      · rename_i hk
        simp only [Option.some.injEq, Prod.mk.injEq] at hif
        obtain ⟨rfl, rfl⟩ := hif
        dsimp only at hk
        rwa [← hk]
      · cases hif
    · intro hr
      exact ⟨_, hr, by simp⟩
  rw [hmem]
  exact ⟨fun h => lookup_of_mem t.nodup h, fun h => mem_of_lookup h⟩

omit [DecidableEq ι] in
theorem nodup_under (t : Table (κ × ι) α) (k : κ) : ((t.under k).map Prod.fst).Nodup := by
  obtain ⟨rows, hkeys⟩ := t
  unfold under
  induction rows with
  | nil => exact List.nodup_nil
  | cons r rows ih =>
    obtain ⟨⟨k', i⟩, v⟩ := r
    rw [List.map_cons, List.nodup_cons] at hkeys
    by_cases hk : k' = k
    · subst hk
      simp only [List.filterMap_cons, if_true, List.map_cons, List.nodup_cons]
      refine ⟨fun hi => hkeys.1 ?_, ih hkeys.2⟩
      obtain ⟨⟨i', v'⟩, hmem, rfl⟩ := List.mem_map.1 hi
      obtain ⟨⟨⟨k'', i''⟩, v''⟩, hr, hif⟩ := List.mem_filterMap.1 hmem
      split at hif
      · rename_i hk'
        simp only [Option.some.injEq, Prod.mk.injEq] at hif hk'
        obtain ⟨rfl, rfl⟩ := hif
        subst hk'
        exact List.mem_map.2 ⟨_, hr, rfl⟩
      · cases hif
    · simp only [List.filterMap_cons, if_neg hk]
      exact ih hkeys.2

end Under

end Table
