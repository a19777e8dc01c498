import Leitwerk.Lib.JsonText
import Leitwerk.Lib.OwnKeys
/-!
# JSON texts of objects

`stringify` writes the fields of an object in the order of own keys, whatever
the order they were created in, and `jsonParse` lists them so. What was parsed
is written as it is, on one line, and parsed as the same value again.
-/

namespace JsonSyntax

open JsString (lit)
open OwnKeys (ordered)

variable {ν : Type}

mutual

/-- The fields of every object in the order of own keys. -/
def inOrder : JsonTree ν → JsonTree ν
  | .null => .null
  | .bool b => .bool b
  | .num x => .num x
  | .str s => .str s
  | .arr items => .arr (inOrderItems items)
  | .obj fields => .obj (ordered Prod.fst (inOrderFields fields))

def inOrderItems : List (JsonTree ν) → List (JsonTree ν)
  | [] => []
  | item :: items => inOrder item :: inOrderItems items

def inOrderFields : List (JsString × JsonTree ν) → List (JsString × JsonTree ν)
  | [] => []
  | (key, value) :: fields => (key, inOrder value) :: inOrderFields fields

end

attribute [grind =] inOrder inOrderItems inOrderFields

/-- `JSON.stringify`. -/
def stringify (numbers : Numbers ν) (value : JsonTree ν) : JsString := JsonSyntax.print numbers (inOrder value)

/-- `JSON.parse`, where an object lists its fields in the order of own keys. -/
def jsonParse (numbers : Numbers ν) (s : JsString) : Option (JsonTree ν) := (parse numbers s).map inOrder

/-! ## Fields -/

theorem inOrderItems_eq (items : List (JsonTree ν)) : inOrderItems items = items.map inOrder := by
  induction items with
  | nil => rfl
  | cons item items ih => rw [inOrderItems, ih, List.map_cons]

theorem inOrderFields_eq (fields : List (JsString × JsonTree ν)) :
    inOrderFields fields = fields.map fun f => (f.1, inOrder f.2) := by
  induction fields with
  | nil => rfl
  | cons f fields ih => rw [inOrderFields, ih, List.map_cons]

theorem keys_map {α β : Type} (g : JsString × α → β) (fields : List (JsString × α)) :
    (fields.map fun f => (f.1, g f)).map Prod.fst = fields.map Prod.fst := by
  rw [List.map_map]
  rfl

theorem mem_map_value {α β : Type} {g : JsString × α → β} {fields : List (JsString × α)} {key : JsString} {w : β}
    (h : (key, w) ∈ fields.map fun f => (f.1, g f)) : ∃ v, (key, v) ∈ fields ∧ w = g (key, v) := by
  obtain ⟨⟨k, v⟩, hv, heq⟩ := List.mem_map.1 h
  obtain ⟨rfl, rfl⟩ := Prod.mk.injEq _ _ _ _ ▸ heq
  exact ⟨v, hv, rfl⟩

/-- A key has one value. -/
theorem value_unique {α : Type} {fields : List (JsString × α)} (hnodup : (fields.map Prod.fst).Nodup) {key : JsString} {v w : α}
    (hv : (key, v) ∈ fields) (hw : (key, w) ∈ fields) : v = w :=
  (Prod.mk.inj (List.inj_on_of_nodup_map hnodup hv hw rfl)).2

theorem exists_value {α : Type} {fields : List (JsString × α)} {key : JsString} (h : key ∈ fields.map Prod.fst) :
    ∃ v, (key, v) ∈ fields := by
  obtain ⟨⟨k, v⟩, hv, rfl⟩ := List.mem_map.1 h
  exact ⟨v, hv⟩

theorem key_of_mem {α : Type} {fields : List (JsString × α)} {key : JsString} {v : α} (h : (key, v) ∈ fields) :
    key ∈ fields.map Prod.fst := List.mem_map_of_mem h

/-! ## The order of own keys -/

theorem keys_inOrder (fields : List (JsString × JsonTree ν)) :
    (ordered Prod.fst (inOrderFields fields)).map Prod.fst = ordered id (fields.map Prod.fst) := by
  rw [← keys_map (fun f => inOrder f.2) fields, ← inOrderFields_eq, ← OwnKeys.map_ordered id Prod.fst]
  rfl

theorem mem_inOrder {fields : List (JsString × JsonTree ν)} {key : JsString} {w : JsonTree ν}
    (h : (key, w) ∈ ordered Prod.fst (inOrderFields fields)) : ∃ t, (key, t) ∈ fields ∧ w = inOrder t := by
  have hmem := (OwnKeys.ordered_perm Prod.fst _).mem_iff.1 h
  rw [inOrderFields_eq] at hmem
  exact mem_map_value hmem

theorem inOrder_mem {fields : List (JsString × JsonTree ν)} {key : JsString} {t : JsonTree ν} (h : (key, t) ∈ fields) :
    (key, inOrder t) ∈ ordered Prod.fst (inOrderFields fields) := by
  rw [(OwnKeys.ordered_perm Prod.fst _).mem_iff, inOrderFields_eq]
  exact List.mem_map.2 ⟨(key, t), h, rfl⟩

theorem keyed_inOrder {t : JsonTree ν} (h : JsonSyntax.Keyed t) : JsonSyntax.Keyed (inOrder t) := by
  induction h with
  | null => exact .null
  | bool b => exact .bool b
  | num x => exact .num x
  | str s => exact .str s
  | arr _ ih =>
    rw [inOrder, inOrderItems_eq]
    refine .arr fun v hv => ?_
    obtain ⟨t, ht, rfl⟩ := List.mem_map.1 hv
    exact ih t ht
  | obj hnodup _ ih =>
    rw [inOrder]
    refine .obj ?_ fun f hf => ?_
    · rw [keys_inOrder]
      exact (OwnKeys.ordered_perm id _).nodup_iff.2 hnodup
    · obtain ⟨t, ht, heq⟩ := mem_inOrder hf
      rw [heq]
      exact ih _ ht

theorem inOrder_inOrder (t : JsonTree ν) : inOrder (inOrder t) = inOrder t := by
  induction t using JsonTree.induction with
  | null => rfl
  | bool b => rfl
  | num x => rfl
  | str s => rfl
  | arr items ih =>
    rw [inOrder, inOrder, inOrderItems_eq, inOrderItems_eq, List.map_map]
    exact congrArg JsonTree.arr (List.map_congr_left ih)
  | obj fields ih =>
    have hfields : inOrderFields (ordered Prod.fst (inOrderFields fields)) = ordered Prod.fst (inOrderFields fields) := by
      rw [inOrderFields_eq (ordered _ _)]
      conv_rhs => rw [← List.map_id (ordered _ _)]
      apply List.map_congr_left
      rintro ⟨key, value⟩ hf
      obtain ⟨t, ht, rfl⟩ := mem_inOrder hf
      rw [ih (key, t) ht, id]
    rw [inOrder, inOrder, hfields, OwnKeys.ordered_ordered]

/-- An object is in order where its keys and its values are. -/
theorem inOrder_obj_iff {fields : List (JsString × JsonTree ν)} :
    inOrder (.obj fields) = .obj fields ↔ ordered Prod.fst fields = fields ∧ ∀ f ∈ fields, inOrder f.2 = f.2 := by
  have hsame (h : ∀ f ∈ fields, inOrder f.2 = f.2) : inOrderFields fields = fields := by
    rw [inOrderFields_eq]
    conv_rhs => rw [← List.map_id fields]
    apply List.map_congr_left
    rintro ⟨key, value⟩ hf
    rw [h (key, value) hf, id]
  rw [inOrder, JsonTree.obj.injEq]
  constructor
  · intro h
    have hvalues : ∀ f ∈ fields, inOrder f.2 = f.2 := by
      rintro ⟨key, value⟩ hf
      rw [← h] at hf
      obtain ⟨t, -, rfl⟩ := mem_inOrder hf
      exact inOrder_inOrder t
    rw [hsame hvalues] at h
    exact ⟨h, hvalues⟩
  · rintro ⟨hkeys, hvalues⟩
    rw [hsame hvalues, hkeys]

/-! ## What is parsed -/

section Parse

variable (numbers : Numbers ν)

theorem keyed_of_jsonParse {s : JsString} {t : JsonTree ν} (h : jsonParse numbers s = some t) : Keyed t := by
  obtain ⟨u, hu, rfl⟩ := Option.map_eq_some_iff.1 h
  exact keyed_inOrder (keyed_of_parse numbers hu)

theorem inOrder_of_jsonParse {s : JsString} {t : JsonTree ν} (h : jsonParse numbers s = some t) : inOrder t = t := by
  obtain ⟨u, -, rfl⟩ := Option.map_eq_some_iff.1 h
  exact inOrder_inOrder u

theorem jsonParse_stringify {t : JsonTree ν} (hkeyed : Keyed t) (horder : inOrder t = t) :
    jsonParse numbers (stringify numbers t) = some t := by
  rw [jsonParse, stringify, horder, parse_print numbers hkeyed, Option.map_some, horder]

theorem stringify_obj (fields : List (JsString × JsonTree ν)) : ∃ rest, stringify numbers (.obj fields) = 0x7b :: rest := by
  rw [stringify, inOrder]
  cases ordered Prod.fst (inOrderFields fields) <;> exact ⟨_, rfl⟩

end Parse

end JsonSyntax
