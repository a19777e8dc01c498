import Leitwerk.Lib.Table
import Leitwerk.Lib.JsString
/-!
# JSON values

The value a JSON text stands for. The fields of an object are in the order of
the text; `setField` is `{ ...object, [key]: value }`.
-/

inductive JsonValue
  | null
  | bool (b : Bool)
  | num (digits : JsString)
  | str (s : JsString)
  | arr (items : List JsonValue)
  | obj (fields : List (JsString × JsonValue))

/-- What a text parses to, `null` and the empty text apart. -/
inductive JsonText
  | empty
  /-- `JSON.parse` throws, with this message. -/
  | malformed (message : JsString)
  | value (value : JsonValue)

section Fields

variable {κ α : Type} [DecidableEq κ]

def getField (l : List (κ × α)) (k : κ) : Option α := l.lookup k

def setField (l : List (κ × α)) (k : κ) (v : α) : List (κ × α) :=
  if k ∈ l.map Prod.fst then l.map fun r => if r.1 = k then (r.1, v) else r else l ++ [(k, v)]

theorem getField_cons (l : List (κ × α)) (k j : κ) (v : α) : getField ((k, v) :: l) j = if j = k then some v else getField l j := by
  unfold getField
  by_cases h : j = k
  · simp [h]
  · simp [List.lookup_cons, beq_eq_false_iff_ne.2 h, h]

theorem getField_map {β : Type} (l : List (κ × α)) (f : α → β) (k : κ) :
    getField (l.map fun r => (r.1, f r.2)) k = (getField l k).map f := by
  induction l with
  | nil => rfl
  | cons r l ih =>
    obtain ⟨j, v⟩ := r
    rw [List.map_cons, getField_cons, getField_cons, ih]
    split <;> rfl

theorem getField_setField (l : List (κ × α)) (k j : κ) (v : α) :
    getField (setField l k v) j = if j = k then some v else getField l j := by
  unfold getField setField
  by_cases hk : k ∈ l.map Prod.fst
  · rw [if_pos hk, Table.lookup_modify l k j fun _ => v]
    by_cases hj : j = k
    · subst hj
      rw [if_pos rfl, if_pos rfl]
      cases hl : l.lookup j with
      | none => exact absurd hk (Table.lookup_eq_none_iff.1 hl)
      | some w => rfl
    · rw [if_neg hj, if_neg hj]
  · rw [if_neg hk, Table.lookup_append]
    by_cases hj : j = k
    · subst hj
      rw [Table.lookup_eq_none_iff.2 hk, if_pos rfl]
      simp
    · have hne : (j == k) = false := beq_eq_false_iff_ne.2 hj
      simp [List.lookup_cons, hne, hj]

theorem keys_setField (l : List (κ × α)) (k : κ) (v : α) :
    (setField l k v).map Prod.fst = if k ∈ l.map Prod.fst then l.map Prod.fst else l.map Prod.fst ++ [k] := by
  unfold setField
  split
  · rw [List.map_map]
    apply List.map_congr_left
    intro r _
    simp only [Function.comp]
    split <;> rfl
  · simp

theorem nodup_setField {l : List (κ × α)} (h : (l.map Prod.fst).Nodup) (k : κ) (v : α) : ((setField l k v).map Prod.fst).Nodup := by
  rw [keys_setField]
  split
  · exact h
  · rename_i hk
    exact List.nodup_append'.2 ⟨h, List.nodup_singleton k, by simpa using hk⟩

end Fields
