import Leitwerk.Lib.JsonStringify
import Leitwerk.PiResource.Fields
/-!
# Canonical JSON

`canonicalizeJson`, `canonicalJsonStringify` and `canonicalJsonEqual` of
`pi-resource-manifest.ts`. The fields of an object are listed as they were
created; the language lists and writes them in the order of own keys. Arrays
have no holes. `compareKeys` ties keys whose bytes are equal, which keys with
halves of surrogate pairs can be, and then the order of creation shows in the
text.
-/

namespace Leitwerk.PiResource.CanonicalJson

open JsString (lit digits)
open Utf8 (encode)
open JsonSyntax (JsonTree Numbers addField stringify)
open OwnKeys (ordered)
open Comparison

variable {ν : Type}

/-! ## Values -/

/-- A number. The finite ones other than `-0` are those of the host. -/
inductive JsNumber (ν : Type)
  | nonFinite
  | negativeZero
  | finite (x : ν)

inductive JsValue (ν : Type)
  | null
  | bool (b : Bool)
  | num (x : JsNumber ν)
  | str (s : JsString)
  | arr (items : List (JsValue ν))
  | obj (fields : List (JsString × JsValue ν))
  /-- An object with another prototype. -/
  | nonPlain
  /-- `undefined`, a function, a symbol or a big integer. -/
  | nonJson

/-- The number that `-0` is written as, too. -/
def JsNumber.toJson (zero : ν) : JsNumber ν → Option ν
  | .nonFinite => none
  | .negativeZero => some zero
  | .finite x => some x

/-- The keys of an object differ. -/
inductive JsValue.Keyed : JsValue ν → Prop
  | null : Keyed .null
  | bool (b : Bool) : Keyed (.bool b)
  | num (x : JsNumber ν) : Keyed (.num x)
  | str (s : JsString) : Keyed (.str s)
  | arr {items : List (JsValue ν)} (items_keyed : ∀ item ∈ items, Keyed item) : Keyed (.arr items)
  | obj {fields : List (JsString × JsValue ν)} (nodup : (fields.map Prod.fst).Nodup)
    (fields_keyed : ∀ field ∈ fields, Keyed field.2) : Keyed (.obj fields)
  | nonPlain : Keyed .nonPlain
  | nonJson : Keyed .nonJson

/-! ## `pi-resource-manifest.ts` -/

/-- How keys are sorted. -/
def compareKeys (left right : JsString) : Int := bufferCompare (encode left) (encode right)

/-- `Object.keys(value).sort(…)`, each key with what is found there. -/
def sortFields {α : Type} (fields : List (JsString × α)) : List (JsString × α) :=
  sort (fun a b => compareKeys a.1 b.1) (ordered Prod.fst fields)

/-- The entries, or the first error. -/
def entriesOf (fields : List (JsString × Except JsString (JsonTree ν))) : Except JsString (List (JsString × JsonTree ν)) :=
  fields.mapM fun field => field.2.map fun value => (field.1, value)

/-- `Object.fromEntries`. -/
def fromEntries (entries : List (JsString × JsonTree ν)) : List (JsString × JsonTree ν) := entries.foldl addField []

mutual

/-- What is found at the fields of an object is computed for all of them, and the first error in the order of the keys is thrown. -/
def canonicalizeJson (zero : ν) (location : JsString) : JsValue ν → Except JsString (JsonTree ν)
  | .null => .ok .null
  | .bool b => .ok (.bool b)
  | .str s => .ok (.str s)
  | .num x =>
    match x.toJson zero with
    | some n => .ok (.num n)
    | none => .error (location ++ lit " contains a non-finite number")
  | .arr items => (canonicalizeItems zero location 0 items).map .arr
  | .nonJson => .error (location ++ lit " contains a non-JSON value")
  | .nonPlain => .error (location ++ lit " contains a non-plain object")
  | .obj fields =>
    (entriesOf (sortFields (canonicalizeFields zero location fields))).map fun entries => .obj (fromEntries entries)

/-- `value.map`, from an index on. -/
def canonicalizeItems (zero : ν) (location : JsString) (index : ℕ) : List (JsValue ν) → Except JsString (List (JsonTree ν))
  | [] => .ok []
  | item :: items => do
    let first ← canonicalizeJson zero (location ++ lit "[" ++ digits 10 index ++ lit "]") item
    let others ← canonicalizeItems zero location (index + 1) items
    return first :: others

def canonicalizeFields (zero : ν) (location : JsString) :
    List (JsString × JsValue ν) → List (JsString × Except JsString (JsonTree ν))
  | [] => []
  | (key, value) :: fields =>
    (key, canonicalizeJson zero (location ++ lit "." ++ key) value) :: canonicalizeFields zero location fields

end

def canonicalJsonStringify (numbers : Numbers ν) (zero : ν) (value : JsValue ν) (location : JsString := lit "value") :
    Except JsString JsString := (canonicalizeJson zero location value).map (stringify numbers)

def canonicalJsonEqual (numbers : Numbers ν) (zero : ν) (left right : JsValue ν) : Except JsString Bool := do
  let l ← canonicalJsonStringify numbers zero left
  let r ← canonicalJsonStringify numbers zero right
  return l == r

mutual

/-- A tree, as a value again. -/
def ofTree : JsonTree ν → JsValue ν
  | .null => .null
  | .bool b => .bool b
  | .num x => .num (.finite x)
  | .str s => .str s
  | .arr items => .arr (ofItems items)
  | .obj fields => .obj (ofFields fields)

def ofItems : List (JsonTree ν) → List (JsValue ν)
  | [] => []
  | item :: items => ofTree item :: ofItems items

def ofFields : List (JsString × JsonTree ν) → List (JsString × JsValue ν)
  | [] => []
  | (key, value) :: fields => (key, ofTree value) :: ofFields fields

end

/-! ## Equality of values -/

/-- Equal values, where the keys of objects are related; `-0` equals `0`. -/
inductive Alike (zero : ν) (related : List JsString → List JsString → Prop) : JsValue ν → JsValue ν → Prop
  | null : Alike zero related .null .null
  | bool (b : Bool) : Alike zero related (.bool b) (.bool b)
  | num {x y : JsNumber ν} {n : ν} (left : x.toJson zero = some n) (right : y.toJson zero = some n) :
    Alike zero related (.num x) (.num y)
  | str (s : JsString) : Alike zero related (.str s) (.str s)
  | arr {items items' : List (JsValue ν)} (length : items.length = items'.length)
    (alike : ∀ (i : ℕ) v w, items[i]? = some v → items'[i]? = some w → Alike zero related v w) :
    Alike zero related (.arr items) (.arr items')
  | obj {fields fields' : List (JsString × JsValue ν)} (keys : related (fields.map Prod.fst) (fields'.map Prod.fst))
    (alike : ∀ key v w, (key, v) ∈ fields → (key, w) ∈ fields' → Alike zero related v w) :
    Alike zero related (.obj fields) (.obj fields')

/-- The same keys, in whatever order. -/
def SameKeys (keys keys' : List JsString) : Prop := ∀ key, key ∈ keys ↔ key ∈ keys'

/-- The same keys, where those of equal bytes come in one order. -/
def InStep (keys keys' : List JsString) : Prop :=
  SameKeys keys keys' ∧ ∀ k l, encode k = encode l → [k, l].Sublist (ordered id keys) → [k, l].Sublist (ordered id keys')

/-- Equal as JSON values. -/
def Same (zero : ν) : JsValue ν → JsValue ν → Prop := Alike zero SameKeys

/-- Equal, with the keys of equal bytes in one order in the objects that correspond. -/
def SameInStep (zero : ν) : JsValue ν → JsValue ν → Prop := Alike zero InStep

end Leitwerk.PiResource.CanonicalJson
