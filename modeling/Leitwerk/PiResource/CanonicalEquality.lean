import Leitwerk.Lib.Results
import Leitwerk.PiResource.CanonicalJson
/-!
# Which values have one canonical text

`Canonical` says what `canonicalizeJson` builds: the keys of an object sorted,
and under each key what is canonical of the value there. Two values have one
text when they are equal and keys of equal bytes are in step; such keys are
never array indices, so neither the sort nor the order of own keys moves one
past the other.
-/

namespace Leitwerk.PiResource.CanonicalJson

open JsString (lit digits)
open Utf8 (encode)
open JsonSyntax
open OwnKeys (ordered)
open Comparison
open Results (ok_of_bind ok_of_map)

variable {ν : Type}

/-! ## Keys -/

theorem compareKeys_eq_zero {k l : JsString} : compareKeys k l = 0 ↔ encode k = encode l := by
  constructor
  · exact bufferCompare_eq
  · intro h
    rw [compareKeys, h]
    exact bufferCompare_antisymm.self _

theorem compareKeys_preorder : Preorder compareKeys := by
  refine ⟨fun a b => bufferCompare_antisymm _ _, ?_⟩
  intro a b c hab hbc
  by_cases hab' : compareKeys a b = 0
  · rw [compareKeys, compareKeys_eq_zero.1 hab']
    exact hbc
  · by_cases hbc' : compareKeys b c = 0
    · rw [compareKeys, ← compareKeys_eq_zero.1 hbc']
      exact hab
    · exact le_of_lt (bufferCompare_trans (b := encode b) (lt_of_le_of_ne hab hab') (lt_of_le_of_ne hbc hbc'))

/-- An array index shares its bytes with no other key. -/
theorem eq_of_isIndex {k l : JsString} (hk : OwnKeys.isIndex k) (h : encode k = encode l) : k = l := by
  obtain ⟨n, hn⟩ := Option.isSome_iff_exists.1 hk
  have hascii : ∀ u ∈ k, u.toNat < 0x80 := by
    intro u hu
    rw [OwnKeys.eq_digits hn] at hu
    obtain ⟨c, hc, rfl⟩ := List.mem_map.1 hu
    obtain ⟨h48, h57⟩ := JsString.digit_bounds (by decide) (by decide) hc
    have hunit : c.toNat.toUInt16.toNat = c.toNat := Nat.mod_eq_of_lt (by omega)
    omega
  have hbytes : ∀ b ∈ encode k, b.toNat < 0x80 := by
    intro b hb
    rw [encode_ascii hascii] at hb
    obtain ⟨u, hu, rfl⟩ := List.mem_map.1 hb
    have := hascii u hu
    rw [Utf8.byte_toNat (by omega)]
    exact this
  exact Utf8.encode_injective (Utf8.isWellFormed_of_ascii hbytes) (Utf8.isWellFormed_of_ascii (h ▸ hbytes)) h

/-- The order of own keys keeps that of keys of equal bytes. -/
theorem pair_sublist_own {keys : List JsString} (hnodup : keys.Nodup) {k l : JsString} (htie : encode k = encode l)
    (h : [k, l].Sublist keys) : [k, l].Sublist (ordered id keys) := by
  have hne : k ≠ l := by simpa using h.nodup hnodup
  have hk : OwnKeys.isIndex k = false := by
    by_contra hk
    exact hne (eq_of_isIndex (by simpa using hk) htie)
  have hl : OwnKeys.isIndex l = false := by
    by_contra hl
    exact hne (eq_of_isIndex (by simpa using hl) htie.symm).symm
  exact OwnKeys.pair_sublist_ordered hk hl h

def sortKeys (keys : List JsString) : List JsString := sort compareKeys (ordered id keys)

theorem sortKeys_perm (keys : List JsString) : (sortKeys keys).Perm keys :=
  (sort_perm _ _).trans (OwnKeys.ordered_perm id keys)

theorem SameKeys.of_perm {keys keys' : List JsString} (h : keys.Perm keys') : SameKeys keys keys' := fun _ => h.mem_iff

theorem SameKeys.perm {keys keys' : List JsString} (h : SameKeys keys keys') (hnodup : keys.Nodup) (hnodup' : keys'.Nodup) :
    keys.Perm keys' := (List.perm_ext_iff_of_nodup hnodup hnodup').2 h

theorem inStep_own {keys : List JsString} (hnodup : keys.Nodup) : InStep keys (ordered id keys) := by
  refine ⟨.of_perm (OwnKeys.ordered_perm id keys).symm, fun k l htie h => ?_⟩
  exact pair_sublist_own ((OwnKeys.ordered_perm id keys).nodup_iff.2 hnodup) htie h

theorem inStep_sortKeys {keys : List JsString} (hnodup : keys.Nodup) : InStep keys (sortKeys keys) := by
  refine ⟨.of_perm (sortKeys_perm keys).symm, fun k l htie h => ?_⟩
  apply pair_sublist_own ((sortKeys_perm keys).nodup_iff.2 hnodup) htie
  exact pair_sublist_sort compareKeys_preorder (le_of_eq (compareKeys_eq_zero.2 htie)) h

/-- Keys in step are sorted alike. -/
theorem sortKeys_eq {keys keys' : List JsString} (hnodup : keys.Nodup) (hnodup' : keys'.Nodup) (h : InStep keys keys') :
    sortKeys keys = sortKeys keys' := by
  have hown := OwnKeys.ordered_perm id keys
  have hown' := OwnKeys.ordered_perm id keys'
  apply sort_eq_of_ties compareKeys_preorder (hown.nodup_iff.2 hnodup)
  · exact hown.trans ((h.1.perm hnodup hnodup').trans hown'.symm)
  · exact fun k l htie => h.2 k l (compareKeys_eq_zero.1 htie)

/-- Keys that come out in one order are in step. -/
theorem inStep_of_sorted {keys keys' : List JsString} (hnodup : keys.Nodup) (hnodup' : keys'.Nodup)
    (h : ordered id (sortKeys keys) = ordered id (sortKeys keys')) : InStep keys keys' := by
  have hperm : ∀ keys : List JsString, (ordered id (sortKeys keys)).Perm keys := fun keys =>
    (OwnKeys.ordered_perm id _).trans (sortKeys_perm keys)
  have hsame : keys.Perm keys' := (hperm keys).symm.trans (h ▸ hperm keys')
  refine ⟨.of_perm hsame, fun k l htie hkl => ?_⟩
  -- the other order would come out, too
  have hne : k ≠ l := by simpa using hkl.nodup ((OwnKeys.ordered_perm id keys).nodup_iff.2 hnodup)
  have hmem : ∀ m ∈ [k, l], m ∈ ordered id keys' := fun m hm =>
    (OwnKeys.ordered_perm id keys').mem_iff.2 (hsame.mem_iff.1 ((OwnKeys.ordered_perm id keys).mem_iff.1 (hkl.subset hm)))
  refine (pair_sublist_or (hmem k (by simp)) (hmem l (by simp)) hne).resolve_right fun hlk => ?_
  have hout := (inStep_sortKeys hnodup).2 k l htie hkl
  have hout' := (inStep_sortKeys hnodup').2 l k htie.symm hlk
  rw [← h] at hout'
  exact pair_sublist_asymm ((hperm keys).nodup_iff.2 hnodup) hout hout'

/-! ## Lists by item and by field -/

theorem ofItems_eq (items : List (JsonTree ν)) : ofItems items = items.map ofTree := by
  induction items with
  | nil => rfl
  | cons item items ih => rw [ofItems, ih, List.map_cons]

theorem ofFields_eq (fields : List (JsString × JsonTree ν)) : ofFields fields = fields.map fun f => (f.1, ofTree f.2) := by
  induction fields with
  | nil => rfl
  | cons f fields ih => rw [ofFields, ih, List.map_cons]

theorem canonicalizeFields_eq (zero : ν) (location : JsString) (fields : List (JsString × JsValue ν)) :
    canonicalizeFields zero location fields =
      fields.map fun f => (f.1, canonicalizeJson zero (location ++ lit "." ++ f.1) f.2) := by
  induction fields with
  | nil => rfl
  | cons f fields ih => rw [canonicalizeFields, ih, List.map_cons]

/-- Fields are told by their keys and by what is under each. -/
theorem fields_ext {α : Type} {fields fields' : List (JsString × α)} (hnodup : (fields.map Prod.fst).Nodup)
    (hkeys : fields.map Prod.fst = fields'.map Prod.fst)
    (hvalues : ∀ key v w, (key, v) ∈ fields → (key, w) ∈ fields' → v = w) : fields = fields' := by
  induction fields generalizing fields' with
  | nil => exact (List.map_eq_nil_iff.1 hkeys.symm).symm
  | cons f fields ih =>
    obtain ⟨key, v⟩ := f
    cases fields' with
    | nil => cases hkeys
    | cons f' fields' =>
      obtain ⟨key', w⟩ := f'
      obtain ⟨hkey, htail⟩ := List.cons.inj hkeys
      obtain rfl : key = key' := hkey
      rw [hvalues key v w (by simp) (by simp),
        ih (List.nodup_cons.1 hnodup).2 htail fun k x y hx hy => hvalues k x y (List.mem_cons_of_mem _ hx) (List.mem_cons_of_mem _ hy)]

theorem items_ext {α : Type} {items items' : List α} (hlength : items.length = items'.length)
    (h : ∀ (i : ℕ) v w, items[i]? = some v → items'[i]? = some w → v = w) : items = items' := by
  apply List.ext_getElem hlength
  intro i hi hi'
  exact h i _ _ (List.getElem?_eq_getElem hi) (List.getElem?_eq_getElem hi')

/-! ## What is canonical of a value -/

/-- The tree that `canonicalizeJson` builds. -/
inductive Canonical (zero : ν) : JsValue ν → JsonTree ν → Prop
  | null : Canonical zero .null .null
  | bool (b : Bool) : Canonical zero (.bool b) (.bool b)
  | num {x : JsNumber ν} {n : ν} (json : x.toJson zero = some n) : Canonical zero (.num x) (.num n)
  | str (s : JsString) : Canonical zero (.str s) (.str s)
  | arr {items : List (JsValue ν)} {trees : List (JsonTree ν)} (length : items.length = trees.length)
    (canonical : ∀ (i : ℕ) v t, items[i]? = some v → trees[i]? = some t → Canonical zero v t) :
    Canonical zero (.arr items) (.arr trees)
  | obj {fields : List (JsString × JsValue ν)} {trees : List (JsString × JsonTree ν)}
    (keys : trees.map Prod.fst = sortKeys (fields.map Prod.fst))
    (canonical : ∀ key v t, (key, v) ∈ fields → (key, t) ∈ trees → Canonical zero v t) :
    Canonical zero (.obj fields) (.obj trees)

theorem map_sortFields {α : Type} (fields : List (JsString × α)) :
    (sortFields fields).map Prod.fst = sortKeys (fields.map Prod.fst) := by
  rw [sortFields, map_sort compareKeys fun _ _ => rfl, sortKeys, ← OwnKeys.map_ordered id Prod.fst]
  rfl

theorem mem_sortFields {α : Type} {fields : List (JsString × α)} {f : JsString × α} : f ∈ sortFields fields ↔ f ∈ fields :=
  ((sort_perm _ _).trans (OwnKeys.ordered_perm Prod.fst fields)).mem_iff

theorem entriesOf_cons {key : JsString} {x : Except JsString (JsonTree ν)} {fields : List (JsString × Except JsString (JsonTree ν))} :
    entriesOf ((key, x) :: fields) = x.bind fun t => (entriesOf fields).map fun entries => (key, t) :: entries := by
  cases x with
  | error message => rfl
  | ok t =>
    unfold entriesOf
    rw [List.mapM_cons]
    rfl

theorem entriesOf_ok {fields : List (JsString × Except JsString (JsonTree ν))} {entries : List (JsString × JsonTree ν)}
    (h : entriesOf fields = .ok entries) :
    entries.map Prod.fst = fields.map Prod.fst ∧ ∀ key t, (key, t) ∈ entries → (key, .ok t) ∈ fields := by
  induction fields generalizing entries with
  | nil =>
    obtain rfl : [] = entries := Except.ok.inj h
    simp
  | cons f fields ih =>
    obtain ⟨key, x⟩ := f
    rw [entriesOf_cons] at h
    obtain ⟨t, rfl, h⟩ := ok_of_bind h
    obtain ⟨others, hothers, rfl⟩ := ok_of_map h
    obtain ⟨hkeys, hmem⟩ := ih hothers
    refine ⟨by rw [List.map_cons, List.map_cons, hkeys], fun k u hu => ?_⟩
    rcases List.mem_cons.1 hu with heq | hu
    · obtain ⟨rfl, rfl⟩ := Prod.mk.inj heq
      exact List.mem_cons_self
    · exact List.mem_cons_of_mem _ (hmem k u hu)

theorem canonicalizeItems_ok {zero : ν} {items : List (JsValue ν)} {trees : List (JsonTree ν)} {location : JsString} {index : ℕ}
    (h : canonicalizeItems zero location index items = .ok trees) :
    items.length = trees.length ∧
      ∀ (i : ℕ) v t, items[i]? = some v → trees[i]? = some t → ∃ location, canonicalizeJson zero location v = .ok t := by
  induction items generalizing trees index with
  | nil =>
    obtain rfl : [] = trees := Except.ok.inj h
    simp
  | cons item items ih =>
    obtain ⟨first, hfirst, h⟩ := ok_of_bind h
    obtain ⟨others, hothers, h⟩ := ok_of_bind h
    obtain rfl : first :: others = trees := Except.ok.inj h
    obtain ⟨hlength, hitems⟩ := ih hothers
    refine ⟨by simp [hlength], fun i v t hv ht => ?_⟩
    cases i with
    | zero =>
      obtain rfl : item = v := by simpa using hv
      obtain rfl : first = t := by simpa using ht
      exact ⟨_, hfirst⟩
    | succ i => exact hitems i v t (by simpa using hv) (by simpa using ht)

/-- Induction over values, with the hypothesis for every item and every field. -/
@[elab_as_elim]
theorem JsValue.induction {motive : JsValue ν → Prop} (null : motive .null) (bool : ∀ b, motive (.bool b))
    (num : ∀ x, motive (.num x)) (str : ∀ s, motive (.str s)) (arr : ∀ items, (∀ item ∈ items, motive item) → motive (.arr items))
    (obj : ∀ fields, (∀ field ∈ fields, motive field.2) → motive (.obj fields)) (nonPlain : motive .nonPlain)
    (nonJson : motive .nonJson) : ∀ v, motive v
  | .null => null
  | .bool b => bool b
  | .num x => num x
  | .str s => str s
  | .arr items => arr items fun item _ => JsValue.induction null bool num str arr obj nonPlain nonJson item
  | .obj fields => obj fields fun field _ => JsValue.induction null bool num str arr obj nonPlain nonJson field.2
  | .nonPlain => nonPlain
  | .nonJson => nonJson
termination_by v => sizeOf v
decreasing_by
  · have := List.sizeOf_lt_of_mem ‹item ∈ items›
    simp only [JsValue.arr.sizeOf_spec]
    omega
  · have := List.sizeOf_lt_of_mem ‹field ∈ fields›
    obtain ⟨key, value⟩ := field
    simp only [JsValue.obj.sizeOf_spec, Prod.mk.sizeOf_spec] at *
    omega

theorem canonical_of_ok {zero : ν} {v : JsValue ν} {t : JsonTree ν} {location : JsString} (hkeyed : v.Keyed)
    (h : canonicalizeJson zero location v = .ok t) : Canonical zero v t := by
  induction v using JsValue.induction generalizing t location with
  | null =>
    obtain rfl : .null = t := Except.ok.inj h
    exact .null
  | bool b =>
    obtain rfl : .bool b = t := Except.ok.inj h
    exact .bool b
  | num x =>
    rw [canonicalizeJson] at h
    split at h
    · rename_i n hn
      obtain rfl : .num n = t := Except.ok.inj h
      exact .num hn
    · cases h
  | str s =>
    obtain rfl : .str s = t := Except.ok.inj h
    exact .str s
  | arr items ih =>
    obtain ⟨⟩ | ⟨⟩ | ⟨⟩ | ⟨⟩ | hkeyed := hkeyed
    rw [canonicalizeJson] at h
    obtain ⟨trees, htrees, rfl⟩ := ok_of_map h
    obtain ⟨hlength, hitems⟩ := canonicalizeItems_ok htrees
    refine .arr hlength fun i v t hv ht => ?_
    obtain ⟨location, hok⟩ := hitems i v t hv ht
    have hmem := List.mem_of_getElem? hv
    exact ih v hmem (hkeyed v hmem) hok
  | obj fields ih =>
    obtain ⟨⟩ | ⟨⟩ | ⟨⟩ | ⟨⟩ | ⟨⟩ | ⟨hnodup, hkeyed⟩ := hkeyed
    rw [canonicalizeJson, canonicalizeFields_eq] at h
    obtain ⟨entries, hentries, rfl⟩ := ok_of_map h
    obtain ⟨hkeys, hmem⟩ := entriesOf_ok hentries
    rw [map_sortFields, keys_map] at hkeys
    have hentries_nodup : (entries.map Prod.fst).Nodup := hkeys ▸ (sortKeys_perm _).nodup_iff.2 hnodup
    rw [fromEntries, JsonSyntax.foldl_addField (by simpa using hentries_nodup), List.nil_append]
    refine .obj hkeys fun key v t hv ht => ?_
    obtain ⟨w, hw, hok⟩ := mem_map_value (mem_sortFields.1 (hmem key t ht))
    obtain rfl := value_unique hnodup hv hw
    exact ih (key, v) hv (hkeyed (key, v) hv) hok.symm
  | nonPlain => cases h
  | nonJson => cases h

/-! ## What is canonical is told by the value -/

section Canonical

variable {zero : ν}

theorem JsValue.Keyed.item {items : List (JsValue ν)} (h : (JsValue.arr items).Keyed) {i : ℕ} {v : JsValue ν}
    (hv : items[i]? = some v) : v.Keyed := by
  obtain ⟨⟩ | ⟨⟩ | ⟨⟩ | ⟨⟩ | hitems := h
  exact hitems v (List.mem_of_getElem? hv)

theorem JsValue.Keyed.nodup {fields : List (JsString × JsValue ν)} (h : (JsValue.obj fields).Keyed) :
    (fields.map Prod.fst).Nodup := by
  obtain ⟨⟩ | ⟨⟩ | ⟨⟩ | ⟨⟩ | ⟨⟩ | ⟨hnodup, -⟩ := h
  exact hnodup

theorem JsValue.Keyed.value {fields : List (JsString × JsValue ν)} (h : (JsValue.obj fields).Keyed) {key : JsString} {v : JsValue ν}
    (hv : (key, v) ∈ fields) : v.Keyed := by
  obtain ⟨⟩ | ⟨⟩ | ⟨⟩ | ⟨⟩ | ⟨⟩ | ⟨-, hfields⟩ := h
  exact hfields (key, v) hv

theorem exists_item {α β : Type} {items : List α} {items' : List β} (hlength : items.length = items'.length) {i : ℕ} {w : β}
    (hw : items'[i]? = some w) : ∃ v, items[i]? = some v := by
  obtain ⟨hi, -⟩ := List.getElem?_eq_some_iff.1 hw
  exact ⟨_, List.getElem?_eq_getElem (hlength ▸ hi)⟩

/-- Fields with sorted keys have the keys of the others. -/
theorem exists_sorted_value {α β : Type} {fields : List (JsString × α)} {trees : List (JsString × β)}
    (hkeys : trees.map Prod.fst = sortKeys (fields.map Prod.fst)) {key : JsString} {t : β} (ht : (key, t) ∈ trees) :
    ∃ v, (key, v) ∈ fields :=
  exists_value ((sortKeys_perm _).mem_iff.1 (hkeys ▸ key_of_mem ht))

theorem exists_sorted_tree {α β : Type} {fields : List (JsString × α)} {trees : List (JsString × β)}
    (hkeys : trees.map Prod.fst = sortKeys (fields.map Prod.fst)) {key : JsString} {v : α} (hv : (key, v) ∈ fields) :
    ∃ t, (key, t) ∈ trees :=
  exists_value (hkeys ▸ (sortKeys_perm _).mem_iff.2 (key_of_mem hv))

theorem sorted_nodup {α β : Type} {fields : List (JsString × α)} {trees : List (JsString × β)}
    (hkeys : trees.map Prod.fst = sortKeys (fields.map Prod.fst)) (hnodup : (fields.map Prod.fst).Nodup) :
    (trees.map Prod.fst).Nodup := hkeys ▸ (sortKeys_perm _).nodup_iff.2 hnodup

theorem Canonical.keyed {v : JsValue ν} {t : JsonTree ν} (h : Canonical zero v t) (hv : v.Keyed) : JsonSyntax.Keyed t := by
  induction h with
  | null => exact .null
  | bool b => exact .bool b
  | num _ => exact .num _
  | str s => exact .str s
  | arr hlength _ ih =>
    refine .arr fun t ht => ?_
    obtain ⟨i, hi⟩ := List.mem_iff_getElem?.1 ht
    obtain ⟨v, hvi⟩ := exists_item hlength hi
    exact ih i v t hvi hi (hv.item hvi)
  | obj hkeys _ ih =>
    refine .obj (sorted_nodup hkeys hv.nodup) fun f hf => ?_
    obtain ⟨v, hmem⟩ := exists_sorted_value hkeys hf
    exact ih f.1 v f.2 hmem hf (hv.value hmem)

theorem Canonical.unique {v : JsValue ν} {t u : JsonTree ν} (ht : Canonical zero v t) (hu : Canonical zero v u) (hv : v.Keyed) :
    t = u := by
  induction ht generalizing u with
  | null => cases hu; rfl
  | bool b => cases hu; rfl
  | num hn =>
    cases hu with
    | num hn' => rw [Option.some.inj (hn.symm.trans hn')]
  | str s => cases hu; rfl
  | arr hlength _ ih =>
    cases hu with
    | arr hlength' hcanonical =>
      rw [items_ext (hlength.symm.trans hlength')]
      intro i t u ht hu
      obtain ⟨v, hvi⟩ := exists_item hlength ht
      exact ih i v t hvi ht (hcanonical i v u hvi hu) (hv.item hvi)
  | obj hkeys _ ih =>
    cases hu with
    | obj hkeys' hcanonical =>
      rw [fields_ext (sorted_nodup hkeys hv.nodup) (hkeys.trans hkeys'.symm)]
      intro key t u ht hu
      obtain ⟨v, hmem⟩ := exists_sorted_value hkeys ht
      exact ih key v t hmem ht (hcanonical key v u hmem hu) (hv.value hmem)

/-- Equal values in step have one canonical tree. -/
theorem Canonical.alike {a b : JsValue ν} {t : JsonTree ν} (h : Canonical zero a t) (hab : SameInStep zero a b) (ha : a.Keyed)
    (hb : b.Keyed) : Canonical zero b t := by
  induction h generalizing b with
  | null => cases hab; exact .null
  | bool c => cases hab; exact .bool c
  | num hn =>
    cases hab with
    | num hleft hright => exact .num (hright.trans (hleft.symm.trans hn))
  | str s => cases hab; exact .str s
  | arr hlength _ ih =>
    cases hab with
    | arr hlength' halike =>
      refine .arr (hlength'.symm.trans hlength) fun i w t hw ht => ?_
      obtain ⟨v, hv⟩ := exists_item hlength ht
      exact ih i v t hv ht (halike i v w hv hw) (ha.item hv) (hb.item hw)
  | obj hkeys _ ih =>
    cases hab with
    | obj hinStep halike =>
      refine .obj (hkeys.trans (sortKeys_eq ha.nodup hb.nodup hinStep)) fun key w t hw ht => ?_
      obtain ⟨v, hv⟩ := exists_sorted_value hkeys ht
      exact ih key v t hv ht (halike key v w hv hw) (ha.value hv) (hb.value hw)

/-- Every own key and value is kept. -/
theorem Canonical.sameInStep {v : JsValue ν} {t : JsonTree ν} (h : Canonical zero v t) (hv : v.Keyed) :
    SameInStep zero v (ofTree t) := by
  induction h with
  | null => exact .null
  | bool b => exact .bool b
  | num hn => exact .num hn rfl
  | str s => exact .str s
  | arr hlength _ ih =>
    rw [ofTree, ofItems_eq]
    refine .arr (by simpa using hlength) fun i v w hvi hwi => ?_
    rw [List.getElem?_map] at hwi
    obtain ⟨t, ht, rfl⟩ := Option.map_eq_some_iff.1 hwi
    exact ih i v t hvi ht (hv.item hvi)
  | obj hkeys _ ih =>
    rw [ofTree, ofFields_eq]
    refine .obj ?_ fun key v w hmem hw => ?_
    · rw [keys_map, hkeys]
      exact inStep_sortKeys hv.nodup
    · obtain ⟨t, ht, rfl⟩ := mem_map_value hw
      exact ih key v t hmem ht (hv.value hmem)

theorem keyed_ofTree {t : JsonTree ν} (h : JsonSyntax.Keyed t) : (ofTree t).Keyed := by
  induction h with
  | null => exact .null
  | bool b => exact .bool b
  | num x => exact .num _
  | str s => exact .str s
  | arr _ ih =>
    rw [ofTree, ofItems_eq]
    refine .arr fun v hv => ?_
    obtain ⟨t, ht, rfl⟩ := List.mem_map.1 hv
    exact ih t ht
  | obj hnodup _ ih =>
    rw [ofTree, ofFields_eq]
    refine .obj (by rwa [keys_map]) fun f hf => ?_
    obtain ⟨t, ht, heq⟩ := mem_map_value hf
    rw [heq]
    exact ih _ ht

/-! ## What is written -/

/-- Writing an object in the order of own keys keeps it in step. -/
theorem sameInStep_inOrder {t : JsonTree ν} (h : JsonSyntax.Keyed t) : SameInStep zero (ofTree t) (ofTree (inOrder t)) := by
  induction h with
  | null => exact .null
  | bool b => exact .bool b
  | num x => exact .num rfl rfl
  | str s => exact .str s
  | arr _ ih =>
    rw [inOrder, inOrderItems_eq, ofTree, ofTree, ofItems_eq, ofItems_eq]
    refine .arr (by simp) fun i v w hv hw => ?_
    rw [List.getElem?_map] at hv hw
    obtain ⟨t, ht, rfl⟩ := Option.map_eq_some_iff.1 hv
    rw [List.getElem?_map, ht] at hw
    obtain rfl := Option.some.inj hw
    exact ih t (List.mem_of_getElem? ht)
  | obj hnodup _ ih =>
    rw [inOrder, ofTree, ofTree, ofFields_eq, ofFields_eq]
    refine .obj ?_ fun key v w hv hw => ?_
    · rw [keys_map, keys_map, keys_inOrder]
      exact inStep_own hnodup
    · obtain ⟨t, ht, rfl⟩ := mem_map_value hv
      obtain ⟨u, hu, rfl⟩ := mem_map_value hw
      obtain ⟨t', ht', rfl⟩ := mem_inOrder hu
      obtain rfl := value_unique hnodup ht ht'
      exact ih _ ht

/-- Values that are written alike are equal and in step. -/
theorem sameInStep_of_inOrder {a b : JsValue ν} {t u : JsonTree ν} (ht : Canonical zero a t) (hu : Canonical zero b u) (ha : a.Keyed)
    (hb : b.Keyed) (h : inOrder t = inOrder u) : SameInStep zero a b := by
  induction ht generalizing b u with
  | null =>
    cases hu with
    | null => exact .null
    | _ => simp [inOrder] at h
  | bool c =>
    cases hu with
    | bool c' =>
      obtain rfl : c = c' := by simpa [inOrder] using h
      exact .bool c
    | _ => simp [inOrder] at h
  | num hn =>
    cases hu with
    | num hn' =>
      simp only [inOrder, JsonTree.num.injEq] at h
      exact .num hn (h ▸ hn')
    | _ => simp [inOrder] at h
  | str s =>
    cases hu with
    | str s' =>
      obtain rfl : s = s' := by simpa [inOrder] using h
      exact .str s
    | _ => simp [inOrder] at h
  | arr hlength _ ih =>
    cases hu with
    | arr hlength' hcanonical =>
      simp only [inOrder, inOrderItems_eq, JsonTree.arr.injEq] at h
      have hlengths := congrArg List.length h
      simp only [List.length_map] at hlengths
      refine .arr (hlength.trans (hlengths.trans hlength'.symm)) fun i v w hv hw => ?_
      obtain ⟨t, ht⟩ := exists_item hlength.symm hv
      obtain ⟨u, hu⟩ := exists_item hlength'.symm hw
      have hi := congrArg (fun l => l[i]?) h
      simp only [List.getElem?_map, ht, hu, Option.map_some, Option.some.injEq] at hi
      exact ih i v t hv ht (hcanonical i w u hw hu) (ha.item hv) (hb.item hw) hi
    | _ => simp [inOrder] at h
  | obj hkeys _ ih =>
    cases hu with
    | obj hkeys' hcanonical =>
      simp only [inOrder, JsonTree.obj.injEq] at h
      have hsorted := congrArg (List.map Prod.fst) h
      rw [keys_inOrder, keys_inOrder, hkeys, hkeys'] at hsorted
      refine .obj (inStep_of_sorted ha.nodup hb.nodup hsorted) fun key v w hv hw => ?_
      obtain ⟨t, ht⟩ := exists_sorted_tree hkeys hv
      obtain ⟨u, hu⟩ := exists_sorted_tree hkeys' hw
      obtain ⟨u', hu', heq⟩ := mem_inOrder (h ▸ inOrder_mem ht)
      obtain rfl := value_unique (sorted_nodup hkeys' hb.nodup) hu hu'
      exact ih key v t hv ht (hcanonical key w u hw hu) (ha.value hv) (hb.value hw) heq
    | _ => simp [inOrder] at h

end Canonical

/-! ## Canonicalizing what is canonical -/

theorem entriesOf_isOk {fields : List (JsString × Except JsString (JsonTree ν))} (h : ∀ f ∈ fields, ∃ t, f.2 = .ok t) :
    ∃ entries, entriesOf fields = .ok entries := by
  induction fields with
  | nil => exact ⟨[], rfl⟩
  | cons f fields ih =>
    obtain ⟨key, x⟩ := f
    obtain ⟨t, rfl⟩ : ∃ t, x = .ok t := h (key, x) (by simp)
    obtain ⟨entries, hentries⟩ := ih fun f hf => h f (List.mem_cons_of_mem _ hf)
    exact ⟨(key, t) :: entries, by rw [entriesOf_cons, hentries]; rfl⟩

theorem canonicalizeItems_isOk {zero : ν} {location : JsString} {items : List (JsValue ν)}
    (h : ∀ v ∈ items, ∀ location, ∃ t, canonicalizeJson zero location v = .ok t) (index : ℕ) :
    ∃ trees, canonicalizeItems zero location index items = .ok trees := by
  induction items generalizing index with
  | nil => exact ⟨[], rfl⟩
  | cons item items ih =>
    obtain ⟨first, hfirst⟩ := h item (by simp) (location ++ lit "[" ++ digits 10 index ++ lit "]")
    obtain ⟨others, hothers⟩ := ih (fun v hv => h v (List.mem_cons_of_mem _ hv)) (index + 1)
    refine ⟨first :: others, ?_⟩
    rw [canonicalizeItems, hfirst, hothers]
    rfl

/-- A tree has nothing that is refused. -/
theorem canonicalizeJson_isOk (zero : ν) (t : JsonTree ν) (location : JsString) :
    ∃ u, canonicalizeJson zero location (ofTree t) = .ok u := by
  induction t using JsonTree.induction generalizing location with
  | null => exact ⟨_, rfl⟩
  | bool b => exact ⟨_, rfl⟩
  | num x => exact ⟨_, rfl⟩
  | str s => exact ⟨_, rfl⟩
  | arr items ih =>
    have hitems : ∀ v ∈ ofItems items, ∀ location, ∃ t, canonicalizeJson zero location v = .ok t := by
      intro v hv location
      rw [ofItems_eq] at hv
      obtain ⟨t, ht, rfl⟩ := List.mem_map.1 hv
      exact ih t ht location
    obtain ⟨trees, htrees⟩ := canonicalizeItems_isOk hitems 0
    exact ⟨.arr trees, by rw [ofTree, canonicalizeJson, htrees]; rfl⟩
  | obj fields ih =>
    have hfields : ∀ f ∈ sortFields (canonicalizeFields zero location (ofFields fields)), ∃ t, f.2 = .ok t := by
      intro f hf
      rw [mem_sortFields, canonicalizeFields_eq, ofFields_eq] at hf
      obtain ⟨v, hv, heq⟩ := mem_map_value hf
      obtain ⟨t, ht, rfl⟩ := mem_map_value hv
      obtain ⟨u, hu⟩ := ih _ ht (location ++ lit "." ++ f.1)
      exact ⟨u, heq.trans hu⟩
    obtain ⟨entries, hentries⟩ := entriesOf_isOk hfields
    exact ⟨.obj (fromEntries entries), by rw [ofTree, canonicalizeJson, hentries]; rfl⟩

/-- What is in step with a value has its canonical tree. -/
theorem canonicalizeJson_of_sameInStep {zero : ν} {v : JsValue ν} {t u : JsonTree ν} {location : JsString} (hv : v.Keyed)
    (ht : Canonical zero v t) (hu : JsonSyntax.Keyed u) (h : SameInStep zero v (ofTree u)) :
    canonicalizeJson zero location (ofTree u) = .ok t := by
  obtain ⟨w, hw⟩ := canonicalizeJson_isOk zero u location
  have hkeyed := keyed_ofTree hu
  rw [hw, (ht.alike h hv hkeyed).unique (canonical_of_ok hkeyed hw) hkeyed]

theorem Alike.mono {zero : ν} {related related' : List JsString → List JsString → Prop}
    (h : ∀ keys keys', related keys keys' → related' keys keys') {a b : JsValue ν} (hab : Alike zero related a b) :
    Alike zero related' a b := by
  induction hab with
  | null => exact .null
  | bool b => exact .bool b
  | num hleft hright => exact .num hleft hright
  | str s => exact .str s
  | arr hlength _ ih => exact .arr hlength ih
  | obj hkeys _ ih => exact .obj (h _ _ hkeys) ih

theorem SameInStep.same {zero : ν} {a b : JsValue ν} (h : SameInStep zero a b) : Same zero a b :=
  Alike.mono (fun _ _ hkeys => hkeys.1) h

/-- Texts are equal where values are equal and in step. -/
theorem canonicalJsonEqual_iff_sameInStep (numbers : Numbers ν) {zero : ν} {a b : JsValue ν} {t u : JsonTree ν} (ha : a.Keyed)
    (hb : b.Keyed) (ht : canonicalizeJson zero (lit "value") a = .ok t) (hu : canonicalizeJson zero (lit "value") b = .ok u) :
    canonicalJsonEqual numbers zero a b = .ok true ↔ SameInStep zero a b := by
  have hat := canonical_of_ok ha ht
  have hbu := canonical_of_ok hb hu
  have htext : canonicalJsonEqual numbers zero a b = .ok (stringify numbers t == stringify numbers u) := by
    rw [canonicalJsonEqual, canonicalJsonStringify, canonicalJsonStringify, ht, hu]
    rfl
  rw [htext, Except.ok.injEq, beq_iff_eq]
  constructor
  · intro h
    apply sameInStep_of_inOrder hat hbu ha hb
    exact JsonSyntax.print_injective numbers (keyed_inOrder (hat.keyed ha)) (keyed_inOrder (hbu.keyed hb)) h
  · intro h
    rw [(hat.alike h ha hb).unique hbu hb]

/-- A canonical text is told by the value exactly where equal values have the keys of equal bytes in step. What is
canonical is so already, has every own key and value, and is written again as it was after it is parsed. -/
theorem canonicalJson_exact (numbers : Numbers ν) {zero : ν} {a b : JsValue ν} {t u : JsonTree ν} (ha : a.Keyed) (hb : b.Keyed)
    (ht : canonicalizeJson zero (lit "value") a = .ok t) (hu : canonicalizeJson zero (lit "value") b = .ok u) :
    ((canonicalJsonEqual numbers zero a b = .ok true ↔ Same zero a b) ↔ (Same zero a b → SameInStep zero a b)) ∧
      (∀ location, canonicalizeJson zero location (ofTree t) = .ok t) ∧ Same zero a (ofTree t) ∧
      ∃ text tree, canonicalJsonStringify numbers zero a = .ok text ∧ JsonSyntax.parse numbers text = some tree ∧
        canonicalJsonStringify numbers zero (ofTree tree) = .ok text := by
  have hat := canonical_of_ok ha ht
  have hkeyed := hat.keyed ha
  have hinStep := hat.sameInStep ha
  have hself : ∀ location, canonicalizeJson zero location (ofTree t) = .ok t := fun location =>
    canonicalizeJson_of_sameInStep ha hat hkeyed hinStep
  refine ⟨?_, hself, hinStep.same, stringify numbers t, inOrder t, ?_, ?_, ?_⟩
  · rw [canonicalJsonEqual_iff_sameInStep numbers ha hb ht hu]
    exact ⟨fun h => h.2, fun h => ⟨SameInStep.same, h⟩⟩
  · rw [canonicalJsonStringify, ht]
    rfl
  · exact JsonSyntax.parse_print numbers (keyed_inOrder hkeyed)
  · have hagain : canonicalizeJson zero (lit "value") (ofTree (inOrder t)) = .ok t :=
      canonicalizeJson_of_sameInStep (keyed_ofTree hkeyed) (canonical_of_ok (keyed_ofTree hkeyed) (hself (lit "value")))
        (keyed_inOrder hkeyed) (sameInStep_inOrder hkeyed)
    rw [canonicalJsonStringify, hagain]
    rfl

/-- An object that maps halves of pairs, which stand alone and are all encoded as the replacement character. -/
def halves (keys : List UInt16) : JsValue (Fin 10) := .obj (keys.map fun key => ([key], .num (.finite ⟨1, by decide⟩)))

theorem canonicalJson_exact_halves :
    (canonicalJsonEqual digitNumbers 0 (halves [0xd800, 0x61]) (halves [0x61, 0xd800]) = .ok true ↔
      Same 0 (halves [0xd800, 0x61]) (halves [0x61, 0xd800])) ↔
      (Same 0 (halves [0xd800, 0x61]) (halves [0x61, 0xd800]) → SameInStep 0 (halves [0xd800, 0x61]) (halves [0x61, 0xd800])) := by
  have hkeyed : ∀ keys, keys.Nodup → (halves keys).Keyed := by
    intro keys hnodup
    refine .obj ?_ fun f hf => ?_
    · rw [List.map_map]
      exact hnodup.map fun a b hab => (List.cons.inj hab).1
    · obtain ⟨key, -, rfl⟩ := List.mem_map.1 hf
      exact .num _
  exact (canonicalJson_exact digitNumbers (t := .obj [([0x61], .num 1), ([0xd800], .num 1)])
    (u := .obj [([0x61], .num 1), ([0xd800], .num 1)]) (hkeyed _ (by decide)) (hkeyed _ (by decide)) rfl rfl).1

/-- Two equal objects whose texts differ. -/
theorem canonicalJson_exact_fails :
    ¬ (canonicalJsonEqual digitNumbers 0 (halves [0xd800, 0xd801]) (halves [0xd801, 0xd800]) = .ok true ↔
      Same 0 (halves [0xd800, 0xd801]) (halves [0xd801, 0xd800])) := by
  have hsame : Same 0 (halves [0xd800, 0xd801]) (halves [0xd801, 0xd800]) := by
    refine .obj (by intro key; simp [or_comm]) fun key v w hv hw => ?_
    obtain ⟨_, -, hv⟩ := List.mem_map.1 hv
    obtain ⟨_, -, hw⟩ := List.mem_map.1 hw
    rw [← (Prod.mk.inj hv).2, ← (Prod.mk.inj hw).2]
    exact .num rfl rfl
  have htext : canonicalJsonEqual digitNumbers 0 (halves [0xd800, 0xd801]) (halves [0xd801, 0xd800]) = .ok false := rfl
  intro h
  rw [htext] at h
  exact absurd (h.2 hsame) (by simp)

end Leitwerk.PiResource.CanonicalJson
