import Leitwerk.Lib.Utf8
import Mathlib.Data.List.Nodup
/-!
# JSON texts

`print` is `JSON.stringify` of a tree without spaces, `parse` is `JSON.parse`:
what is printed is parsed as the same tree, so texts tell trees apart. Numbers
are those of a host, which writes each as a literal that it reads back.
-/

namespace JsonSyntax

open JsString (lit)

/-- A JSON value; the fields of an object in their order. -/
inductive JsonTree (ν : Type)
  | null
  | bool (b : Bool)
  | num (x : ν)
  | str (s : JsString)
  | arr (items : List (JsonTree ν))
  | obj (fields : List (JsString × JsonTree ν))

/-! ## Numbers -/

def isDigit (u : UInt16) : Bool := 0x30 ≤ u.toNat && u.toNat ≤ 0x39

/-- The units of number literals: digits, `+`, `-`, `.`, `E` and `e`. -/
def isNumberUnit (u : UInt16) : Bool := isDigit u || [0x2b, 0x2d, 0x2e, 0x45, 0x65].contains u.toNat

def isDigits (s : JsString) : Bool := s ≠ [] && s.all isDigit

def isExponent : JsString → Bool
  | [] => true
  | e :: rest =>
    (e = 0x45 || e = 0x65) && isDigits (match rest with
      | sign :: rest => if sign = 0x2b || sign = 0x2d then rest else sign :: rest
      | [] => [])

def isFraction : JsString → Bool
  | [] => true
  | u :: rest =>
    if u = 0x2e then isDigits (rest.takeWhile isDigit) && isExponent (rest.dropWhile isDigit) else isExponent (u :: rest)

/-- A literal without its sign. -/
def isUnsigned : JsString → Bool
  | [] => false
  | u :: rest => if u = 0x30 then isFraction rest else isDigit u && isFraction (rest.dropWhile isDigit)

def isNumberLiteral (s : JsString) : Bool :=
  s.all isNumberUnit && match s with
    | u :: rest => if u = 0x2d then isUnsigned rest else isUnsigned (u :: rest)
    | [] => false

/-- The finite numbers of a host: `Number::toString` writes what reading a literal gives back. -/
structure Numbers (ν : Type) where
  text : ν → JsString
  read : JsString → ν
  literal : ∀ x, isNumberLiteral (text x) = true
  read_text : ∀ x, read (text x) = x

/-- A host of one-digit numbers. -/
def digitNumbers : Numbers (Fin 10) where
  text d := JsString.digits 10 d
  read s := Fin.ofNat 10 ((s.headD 0x30).toNat - 0x30)
  literal := by decide
  read_text := by decide

theorem literal_ne_nil {s : JsString} (h : isNumberLiteral s = true) : s ≠ [] := by
  rintro rfl
  cases h

theorem literal_units {s : JsString} (h : isNumberLiteral s = true) : ∀ u ∈ s, isNumberUnit u = true := by
  unfold isNumberLiteral at h
  rw [Bool.and_eq_true, List.all_eq_true] at h
  exact h.1

/-! ## Strings -/

def hexDigit (n : ℕ) : UInt16 := Utf8.unit (if n < 10 then 0x30 + n else 0x57 + n)

def hexValue (u : UInt16) : Option ℕ :=
  if isDigit u then some (u.toNat - 0x30)
  else if 0x61 ≤ u.toNat ∧ u.toNat ≤ 0x66 then some (u.toNat - 0x57)
  else if 0x41 ≤ u.toNat ∧ u.toNat ≤ 0x46 then some (u.toNat - 0x37)
  else none

/-- `\uXXXX`. -/
def hexEscape (u : UInt16) : JsString :=
  [0x5c, 0x75, hexDigit (u.toNat / 4096), hexDigit (u.toNat / 256 % 16), hexDigit (u.toNat / 16 % 16), hexDigit (u.toNat % 16)]

/-- The short escapes: the unit after the backslash and the unit it stands for. -/
def shortEscapes : List (UInt16 × UInt16) :=
  [(0x62, 0x08), (0x74, 0x09), (0x6e, 0x0a), (0x66, 0x0c), (0x72, 0x0d), (0x22, 0x22), (0x5c, 0x5c)]

/-- A unit that is no half of a pair. -/
def escapeUnit (u : UInt16) : JsString :=
  match shortEscapes.find? fun e => e.2 = u with
  | some e => [0x5c, e.1]
  | none => if u.toNat < 0x20 then hexEscape u else [u]

/-- `QuoteJSONString`, between its quotes. -/
def escape : JsString → JsString
  | [] => []
  | u :: rest =>
    if Utf8.isHigh u then
      match rest with
      | [] => hexEscape u
      | v :: rest' => if Utf8.isLow v then u :: v :: escape rest' else hexEscape u ++ escape (v :: rest')
    else if Utf8.isLow u then hexEscape u ++ escape rest
    else escapeUnit u ++ escape rest

def quote (s : JsString) : JsString := 0x22 :: escape s ++ [0x22]

def hex4 (a b c d : UInt16) : Option UInt16 := do
  let a ← hexValue a
  let b ← hexValue b
  let c ← hexValue c
  let d ← hexValue d
  return Utf8.unit (a * 4096 + b * 256 + c * 16 + d)

/-- What a backslash and this unit stand for. A slash may be escaped too. -/
def unescape (c : UInt16) : Option UInt16 := if c = 0x2f then some c else shortEscapes.lookup c

/-- A string up to its closing quote, and what follows. -/
def parseString : JsString → Option (JsString × JsString)
  | [] => none
  | u :: rest =>
    if u = 0x22 then some ([], rest)
    else if u = 0x5c then
      match rest with
      | [] => none
      | c :: rest =>
        if c = 0x75 then
          match rest with
          | a :: b :: c :: d :: rest =>
            (hex4 a b c d).bind fun u => (parseString rest).map fun p => (u :: p.1, p.2)
          | _ => none
        else (unescape c).bind fun u => (parseString rest).map fun p => (u :: p.1, p.2)
    else if u.toNat < 0x20 then none
    else (parseString rest).map fun p => (u :: p.1, p.2)

theorem hexValue_hexDigit : ∀ n < 16, hexValue (hexDigit n) = some n := by decide

theorem parseString_hexEscape (u : UInt16) (rest : JsString) :
    parseString (hexEscape u ++ rest) = (parseString rest).map fun p => (u :: p.1, p.2) := by
  have hu := u.toNat_lt
  have hvalue : u.toNat / 4096 * 4096 + u.toNat / 256 % 16 * 256 + u.toNat / 16 % 16 * 16 + u.toNat % 16 = u.toNat := by omega
  have hhex : hex4 (hexDigit (u.toNat / 4096)) (hexDigit (u.toNat / 256 % 16)) (hexDigit (u.toNat / 16 % 16)) (hexDigit (u.toNat % 16)) =
      some u := by
    unfold hex4
    rw [hexValue_hexDigit _ (by omega), hexValue_hexDigit _ (by omega), hexValue_hexDigit _ (by omega), hexValue_hexDigit _ (by omega)]
    simp only [Option.bind_eq_bind, Option.bind_some, hvalue, Utf8.unit_self]
    rfl
  simp only [hexEscape, List.cons_append, List.nil_append]
  rw [parseString.eq_def]
  simp only [if_neg (by decide : ¬ (0x5c : UInt16) = 0x22), if_true, hhex, Option.bind_some]

/-- A unit that needs no escape is read as it is. -/
theorem parseString_raw {u : UInt16} (hquote : u ≠ 0x22) (hbackslash : u ≠ 0x5c) (hcontrol : ¬ u.toNat < 0x20) (rest : JsString) :
    parseString (u :: rest) = (parseString rest).map fun p => (u :: p.1, p.2) := by
  rw [parseString.eq_def]
  dsimp only
  rw [if_neg hquote, if_neg hbackslash, if_neg hcontrol]

@[simp] theorem parseString_quote (rest : JsString) : parseString (0x22 :: rest) = some ([], rest) := by
  rw [parseString.eq_def]
  rfl

theorem parseString_escapeUnit (u : UInt16) (rest : JsString) :
    parseString (escapeUnit u ++ rest) = (parseString rest).map fun p => (u :: p.1, p.2) := by
  unfold escapeUnit
  split
  · rename_i e he
    have hu : e.2 = u := by simpa using List.find?_some he
    have hmem := List.mem_of_find?_eq_some he
    -- the table is read backwards
    have hread : ∀ e ∈ shortEscapes, unescape e.1 = some e.2 ∧ e.1 ≠ 0x75 :=
      JsString.forall_of_all (by decide)
    obtain ⟨hunescape, hne⟩ := hread e hmem
    rw [List.cons_append, List.cons_append, List.nil_append, parseString.eq_def]
    simp only [if_neg (by decide : ¬ (0x5c : UInt16) = 0x22), if_true, if_neg hne, hunescape, Option.bind_some, hu]
  · rename_i hnone
    have hplain : ∀ e ∈ shortEscapes, e.2 ≠ u := fun e he heq => by
      simpa [heq] using List.find?_eq_none.1 hnone e he
    split
    · exact parseString_hexEscape u rest
    · rename_i hcontrol
      exact parseString_raw (hplain (0x22, 0x22) (by decide)).symm (hplain (0x5c, 0x5c) (by decide)).symm hcontrol rest

theorem raw_of_surrogate {u : UInt16} (h : Utf8.isHigh u = true ∨ Utf8.isLow u = true) :
    u ≠ 0x22 ∧ u ≠ 0x5c ∧ ¬ u.toNat < 0x20 := by
  have hbound : 0xd800 ≤ u.toNat := by
    simp only [Utf8.isHigh, Utf8.isLow, Bool.and_eq_true, decide_eq_true_eq] at h
    omega
  refine ⟨?_, ?_, by omega⟩
  · rintro rfl
    exact absurd hbound (by decide)
  · rintro rfl
    exact absurd hbound (by decide)

/-- A quoted string is read back. -/
theorem parseString_escape (s rest : JsString) : parseString (escape s ++ 0x22 :: rest) = some (s, rest) := by
  fun_induction escape s with
  | case1 => exact parseString_quote rest
  | case2 u hu =>
    rw [parseString_hexEscape, parseString_quote]
    rfl
  | case3 u hu v rest' hv ih =>
    obtain ⟨hq, hb, hc⟩ := raw_of_surrogate (.inl hu)
    obtain ⟨hq', hb', hc'⟩ := raw_of_surrogate (.inr hv)
    rw [List.cons_append, List.cons_append, parseString_raw hq hb hc, parseString_raw hq' hb' hc', ih]
    rfl
  | case4 u hu v rest' hv ih =>
    rw [List.append_assoc, parseString_hexEscape, ih]
    rfl
  | case5 u rest' hu hlow ih =>
    rw [List.append_assoc, parseString_hexEscape, ih]
    rfl
  | case6 u rest' hu hlow ih =>
    rw [List.append_assoc, parseString_escapeUnit, ih]
    rfl

/-! ## Trees -/

section Trees

variable {ν : Type} (numbers : Numbers ν)

mutual

def print : JsonTree ν → JsString
  | .null => lit "null"
  | .bool b => if b then lit "true" else lit "false"
  | .num x => numbers.text x
  | .str s => quote s
  | .arr [] => lit "[]"
  | .arr (item :: items) => 0x5b :: print item ++ printItems items
  | .obj [] => [0x7b, 0x7d]
  | .obj (field :: fields) => 0x7b :: printField field ++ printFields fields

/-- The items after the first, and the bracket. -/
def printItems : List (JsonTree ν) → JsString
  | [] => [0x5d]
  | item :: items => 0x2c :: print item ++ printItems items

def printField : JsString × JsonTree ν → JsString
  | (key, value) => quote key ++ 0x3a :: print value

def printFields : List (JsString × JsonTree ν) → JsString
  | [] => [0x7d]
  | field :: fields => 0x2c :: printField field ++ printFields fields

end

def isBlank (u : UInt16) : Bool := u = 0x20 || u = 0x09 || u = 0x0a || u = 0x0d

def skip (s : JsString) : JsString := s.dropWhile isBlank

def parseLiteral (word : JsString) (value : JsonTree ν) (s : JsString) : Option (JsonTree ν × JsString) :=
  if word.isPrefixOf s then some (value, s.drop word.length) else none

def parseNumber (s : JsString) : Option (JsonTree ν × JsString) :=
  if isNumberLiteral (s.takeWhile isNumberUnit) then
    some (.num (numbers.read (s.takeWhile isNumberUnit)), s.dropWhile isNumberUnit)
  else none

/-- `CreateDataProperty`: a later field of a key takes the place of an earlier one. -/
def addField {α : Type} (fields : List (JsString × α)) (field : JsString × α) : List (JsString × α) :=
  if field.1 ∈ fields.map Prod.fst then fields.map fun f => if f.1 = field.1 then field else f else fields ++ [field]

mutual

/-- A value, and what follows it; each call takes some of the fuel. -/
def parseValue : ℕ → JsString → Option (JsonTree ν × JsString)
  | 0, _ => none
  | fuel + 1, s =>
    match skip s with
    | [] => none
    | u :: rest =>
      if u = 0x22 then (parseString rest).map fun p => (.str p.1, p.2)
      else if u = 0x5b then
        if (skip rest).head? = some 0x5d then some (.arr [], (skip rest).tail)
        else (parseValue fuel rest).bind fun p => (parseItems fuel p.2).map fun q => (.arr (p.1 :: q.1), q.2)
      else if u = 0x7b then
        if (skip rest).head? = some 0x7d then some (.obj [], (skip rest).tail)
        else (parseField fuel rest).bind fun p =>
          (parseFields fuel p.2).map fun q => (.obj ((p.1 :: q.1).foldl addField []), q.2)
      else if u = 0x74 then parseLiteral (lit "true") (.bool true) (u :: rest)
      else if u = 0x66 then parseLiteral (lit "false") (.bool false) (u :: rest)
      else if u = 0x6e then parseLiteral (lit "null") .null (u :: rest)
      else parseNumber numbers (u :: rest)

/-- The items after one, up to the bracket. -/
def parseItems : ℕ → JsString → Option (List (JsonTree ν) × JsString)
  | 0, _ => none
  | fuel + 1, s =>
    match skip s with
    | [] => none
    | u :: rest =>
      if u = 0x5d then some ([], rest)
      else if u = 0x2c then
        (parseValue fuel rest).bind fun p => (parseItems fuel p.2).map fun q => (p.1 :: q.1, q.2)
      else none

def parseField : ℕ → JsString → Option ((JsString × JsonTree ν) × JsString)
  | 0, _ => none
  | fuel + 1, s =>
    match skip s with
    | [] => none
    | u :: rest =>
      if u = 0x22 then
        (parseString rest).bind fun p =>
          match skip p.2 with
          | [] => none
          | c :: rest => if c = 0x3a then (parseValue fuel rest).map fun q => ((p.1, q.1), q.2) else none
      else none

def parseFields : ℕ → JsString → Option (List (JsString × JsonTree ν) × JsString)
  | 0, _ => none
  | fuel + 1, s =>
    match skip s with
    | [] => none
    | u :: rest =>
      if u = 0x7d then some ([], rest)
      else if u = 0x2c then
        (parseField fuel rest).bind fun p => (parseFields fuel p.2).map fun q => (p.1 :: q.1, q.2)
      else none

end

/-- `JSON.parse`. Each call of the parser is behind one more unit of the text, so the fuel lasts. -/
def parse (s : JsString) : Option (JsonTree ν) :=
  (parseValue numbers (s.length + 1) s).bind fun p => if skip p.2 = [] then some p.1 else none

/-! ## What is printed is parsed -/

/-- Induction over trees, with the hypothesis for every item and every field. -/
@[elab_as_elim]
theorem JsonTree.induction {motive : JsonTree ν → Prop} (null : motive .null) (bool : ∀ b, motive (.bool b)) (num : ∀ x, motive (.num x))
    (str : ∀ s, motive (.str s)) (arr : ∀ items, (∀ item ∈ items, motive item) → motive (.arr items))
    (obj : ∀ fields, (∀ field ∈ fields, motive field.2) → motive (.obj fields)) : ∀ v, motive v
  | .null => null
  | .bool b => bool b
  | .num x => num x
  | .str s => str s
  | .arr items => arr items fun item _ => JsonTree.induction null bool num str arr obj item
  | .obj fields => obj fields fun field _ => JsonTree.induction null bool num str arr obj field.2
termination_by v => sizeOf v
decreasing_by
  · have := List.sizeOf_lt_of_mem ‹item ∈ items›
    simp only [JsonTree.arr.sizeOf_spec]
    omega
  · have := List.sizeOf_lt_of_mem ‹field ∈ fields›
    obtain ⟨key, value⟩ := field
    simp only [JsonTree.obj.sizeOf_spec, Prod.mk.sizeOf_spec] at *
    omega

/-- No object has two fields of one key. -/
inductive Keyed : JsonTree ν → Prop
  | null : Keyed .null
  | bool (b : Bool) : Keyed (.bool b)
  | num (x : ν) : Keyed (.num x)
  | str (s : JsString) : Keyed (.str s)
  | arr {items : List (JsonTree ν)} (items_keyed : ∀ item ∈ items, Keyed item) : Keyed (.arr items)
  | obj {fields : List (JsString × JsonTree ν)} (nodup : (fields.map Prod.fst).Nodup) (fields_keyed : ∀ field ∈ fields, Keyed field.2) :
    Keyed (.obj fields)

theorem foldl_addField {α : Type} {fields acc : List (JsString × α)} (h : ((acc ++ fields).map Prod.fst).Nodup) :
    fields.foldl addField acc = acc ++ fields := by
  induction fields generalizing acc with
  | nil => simp
  | cons field fields ih =>
    have hnew : field.1 ∉ acc.map Prod.fst := by
      rw [List.map_append, List.map_cons] at h
      intro hmem
      exact List.disjoint_of_nodup_append h hmem List.mem_cons_self
    have hnext : ((acc ++ [field] ++ fields).map Prod.fst).Nodup := by simpa using h
    rw [List.foldl_cons, addField, if_neg hnew, ih hnext, List.append_assoc, List.singleton_append]

section AddField

variable {α : Type} {fields : List (JsString × α)} {key : JsString} {v : α}

theorem lookup_replace_ne {j : JsString} (hj : j ≠ key) :
    (fields.map fun f => if f.1 = key then (key, v) else f).lookup j = fields.lookup j := by
  induction fields with
  | nil => rfl
  | cons f fields ih =>
    obtain ⟨k, w⟩ := f
    rw [List.map_cons, List.lookup_cons]
    by_cases hk : k = key
    · subst hk
      rw [if_pos rfl, List.lookup_cons, ih, beq_false_of_ne hj]
    · rw [if_neg hk, List.lookup_cons, ih]

theorem lookup_replace_self (hmem : key ∈ fields.map Prod.fst) :
    (fields.map fun f => if f.1 = key then (key, v) else f).lookup key = some v := by
  induction fields with
  | nil => cases hmem
  | cons f fields ih =>
    obtain ⟨k, w⟩ := f
    rw [List.map_cons]
    by_cases hk : k = key
    · simp [hk]
    · have hin : key ∈ fields.map Prod.fst := (List.mem_cons.1 hmem).resolve_left (Ne.symm hk)
      rw [if_neg hk, List.lookup_cons, beq_false_of_ne (Ne.symm hk), ih hin]

theorem lookup_addField (fields : List (JsString × α)) (key : JsString) (v : α) (j : JsString) :
    (addField fields (key, v)).lookup j = if j = key then some v else fields.lookup j := by
  unfold addField
  split
  · rename_i hmem
    by_cases hj : j = key
    · rw [if_pos hj, hj]
      exact lookup_replace_self hmem
    · rw [if_neg hj]
      exact lookup_replace_ne hj
  · rename_i hmem
    rw [List.lookup_append]
    by_cases hj : j = key
    · have hnone : fields.lookup key = none := by
        rw [List.lookup_eq_none_iff]
        intro f hf
        rw [bne_iff_ne]
        intro hkey
        exact hmem (List.mem_map.2 ⟨f, hf, hkey.symm⟩)
      simp [hj, hnone]
    · simp [List.lookup_cons, beq_false_of_ne hj, hj]

end AddField

theorem skip_cons {u : UInt16} (h : isBlank u = false) (rest : JsString) : skip (u :: rest) = u :: rest := by
  simp [skip, h]

/-- What follows a value does not go on with a number. -/
def Ends (rest : JsString) : Prop := ∀ u ∈ rest.head?, isNumberUnit u = false

theorem ends_items (items : List (JsonTree ν)) (rest : JsString) : Ends (printItems numbers items ++ rest) := by
  cases items <;> intro u hu <;> simp [printItems] at hu <;> subst hu <;> decide

theorem ends_fields (fields : List (JsString × JsonTree ν)) (rest : JsString) : Ends (printFields numbers fields ++ rest) := by
  cases fields <;> intro u hu <;> simp [printFields] at hu <;> subst hu <;> decide

theorem parseNumber_text (x : ν) {rest : JsString} (hrest : Ends rest) :
    parseNumber numbers (numbers.text x ++ rest) = some (.num x, rest) := by
  have hunits := literal_units (numbers.literal x)
  have htake : (numbers.text x ++ rest).takeWhile isNumberUnit = numbers.text x := by
    rw [List.takeWhile_append_of_pos hunits]
    cases rest with
    | nil => simp
    | cons u rest => simp [hrest u rfl]
  have hdrop : (numbers.text x ++ rest).dropWhile isNumberUnit = rest := by
    rw [List.dropWhile_append_of_pos hunits]
    cases rest with
    | nil => rfl
    | cons u rest => simp [hrest u rfl]
  rw [parseNumber, htake, if_pos (numbers.literal x), hdrop, numbers.read_text]

/-- The first unit of a number begins no other value. -/
theorem numberUnit_head {u : UInt16} (h : isNumberUnit u = true) :
    isBlank u = false ∧ u ≠ 0x22 ∧ u ≠ 0x5b ∧ u ≠ 0x7b ∧ u ≠ 0x74 ∧ u ≠ 0x66 ∧ u ≠ 0x6e := by
  refine ⟨?_, ?_, ?_, ?_, ?_, ?_, ?_⟩
  · by_contra hblank
    simp only [isBlank, Bool.not_eq_false, Bool.or_eq_true, decide_eq_true_eq] at hblank
    rcases hblank with ((rfl | rfl) | rfl) | rfl <;> exact absurd h (by decide)
  all_goals
    rintro rfl
    exact absurd h (by decide)

theorem parseValue_quote (fuel : ℕ) (s rest : JsString) :
    parseValue numbers (fuel + 1) (quote s ++ rest) = some (.str s, rest) := by
  have htext : quote s ++ rest = 0x22 :: (escape s ++ 0x22 :: rest) := by simp [quote]
  rw [htext, parseValue, skip_cons (by decide)]
  simp only [if_true, parseString_escape, Option.map_some]

/-- Printed values are parsed, with enough fuel; the induction is on the value, and the fuel covers its text. -/
def Reads (v : JsonTree ν) : Prop :=
  ∀ fuel rest, (print numbers v).length ≤ fuel → Ends rest → parseValue numbers fuel (print numbers v ++ rest) = some (v, rest)

theorem parseItems_print {items : List (JsonTree ν)} (h : ∀ item ∈ items, Reads numbers item) (fuel : ℕ) (rest : JsString)
    (hfuel : (printItems numbers items).length ≤ fuel) :
    parseItems numbers fuel (printItems numbers items ++ rest) = some (items, rest) := by
  induction items generalizing fuel with
  | nil =>
    cases fuel with
    | zero => simp [printItems] at hfuel
    | succ fuel =>
      rw [printItems, List.singleton_append, parseItems, skip_cons (by decide)]
      simp
  | cons item items ih =>
    cases fuel with
    | zero => simp [printItems] at hfuel
    | succ fuel =>
      simp only [printItems, List.length_cons, List.length_append] at hfuel
      simp only [printItems, List.cons_append, List.append_assoc]
      rw [parseItems, skip_cons (by decide)]
      dsimp only
      rw [if_neg (by decide), if_pos rfl, h item (by simp) fuel _ (by omega) (ends_items numbers items rest), Option.bind_some,
        ih (fun i hi => h i (by simp [hi])) fuel (by omega), Option.map_some]

theorem parseField_print {field : JsString × JsonTree ν} (h : Reads numbers field.2) (fuel : ℕ) {rest : JsString} (hrest : Ends rest)
    (hfuel : (printField numbers field).length ≤ fuel) :
    parseField numbers fuel (printField numbers field ++ rest) = some (field, rest) := by
  obtain ⟨key, value⟩ := field
  cases fuel with
  | zero => simp [printField] at hfuel
  | succ fuel =>
    simp only [printField, List.length_cons, List.length_append] at hfuel
    have htext : printField numbers (key, value) ++ rest = 0x22 :: (escape key ++ 0x22 :: (0x3a :: (print numbers value ++ rest))) := by
      simp [printField, quote]
    rw [htext, parseField, skip_cons (by decide)]
    dsimp only
    rw [if_pos rfl, parseString_escape, Option.bind_some]
    dsimp only
    rw [skip_cons (by decide)]
    dsimp only
    rw [if_pos rfl, h fuel rest (by dsimp only; omega) hrest, Option.map_some]

theorem parseFields_print {fields : List (JsString × JsonTree ν)} (h : ∀ field ∈ fields, Reads numbers field.2) (fuel : ℕ) (rest : JsString)
    (hfuel : (printFields numbers fields).length ≤ fuel) :
    parseFields numbers fuel (printFields numbers fields ++ rest) = some (fields, rest) := by
  induction fields generalizing fuel with
  | nil =>
    cases fuel with
    | zero => simp [printFields] at hfuel
    | succ fuel =>
      rw [printFields, List.singleton_append, parseFields, skip_cons (by decide)]
      simp
  | cons field fields ih =>
    cases fuel with
    | zero => simp [printFields] at hfuel
    | succ fuel =>
      simp only [printFields, List.length_cons, List.length_append] at hfuel
      simp only [printFields, List.cons_append, List.append_assoc]
      rw [parseFields, skip_cons (by decide)]
      dsimp only
      rw [if_neg (by decide), if_pos rfl,
        parseField_print numbers (h field (by simp)) fuel (ends_fields numbers fields rest) (by omega), Option.bind_some,
        ih (fun f hf => h f (by simp [hf])) fuel (by omega), Option.map_some]

/-- A printed value begins with a unit that is neither blank nor a closing bracket. -/
theorem print_head (v : JsonTree ν) (rest : JsString) :
    ∃ u t, print numbers v ++ rest = u :: t ∧ isBlank u = false ∧ u ≠ 0x5d ∧ u ≠ 0x7d := by
  cases v with
  | null => exact ⟨_, _, rfl, by decide, by decide, by decide⟩
  | bool b => cases b <;> exact ⟨_, _, rfl, by decide, by decide, by decide⟩
  | num x =>
    obtain ⟨u, t, htext⟩ := List.exists_cons_of_ne_nil (literal_ne_nil (numbers.literal x))
    have hunit := literal_units (numbers.literal x) u (by rw [htext]; exact List.mem_cons_self)
    refine ⟨u, t ++ rest, by rw [print, htext, List.cons_append], (numberUnit_head hunit).1, ?_, ?_⟩ <;>
    · rintro rfl
      exact absurd hunit (by decide)
  | str s => exact ⟨_, _, rfl, by decide, by decide, by decide⟩
  | arr items => cases items <;> exact ⟨_, _, rfl, by decide, by decide, by decide⟩
  | obj fields => cases fields <;> exact ⟨_, _, rfl, by decide, by decide, by decide⟩

theorem print_length_pos (v : JsonTree ν) : 0 < (print numbers v).length := by
  obtain ⟨u, t, htext, -⟩ := print_head numbers v []
  rw [List.append_nil] at htext
  rw [htext]
  exact Nat.succ_pos _

/-- A bracket does not follow where a value does. -/
theorem head_skip_print {v : JsonTree ν} {rest : JsString} {bracket : UInt16} (hbracket : bracket = 0x5d ∨ bracket = 0x7d) :
    (skip (print numbers v ++ rest)).head? ≠ some bracket := by
  obtain ⟨u, t, htext, hblank, hsquare, hcurly⟩ := print_head numbers v rest
  rw [htext, skip_cons hblank]
  rcases hbracket with rfl | rfl <;> simpa

theorem reads_of_keyed {v : JsonTree ν} (h : Keyed v) : Reads numbers v := by
  induction v using JsonTree.induction with
  | null =>
    intro fuel rest hfuel _
    obtain ⟨fuel, rfl⟩ := Nat.exists_eq_add_of_lt (Nat.lt_of_lt_of_le (print_length_pos numbers _) hfuel)
    rfl
  | bool b =>
    intro fuel rest hfuel _
    obtain ⟨fuel, rfl⟩ := Nat.exists_eq_add_of_lt (Nat.lt_of_lt_of_le (print_length_pos numbers _) hfuel)
    cases b <;> rfl
  | num x =>
    intro fuel rest hfuel hrest
    obtain ⟨fuel, rfl⟩ := Nat.exists_eq_add_of_lt (Nat.lt_of_lt_of_le (print_length_pos numbers _) hfuel)
    obtain ⟨u, t, htext⟩ := List.exists_cons_of_ne_nil (literal_ne_nil (numbers.literal x))
    have hunit := literal_units (numbers.literal x) u (by rw [htext]; exact List.mem_cons_self)
    obtain ⟨hblank, hquote, hsquare, hcurly, ht, hf, hn⟩ := numberUnit_head hunit
    have hnumber := parseNumber_text numbers x hrest
    rw [print]
    rw [htext, List.cons_append] at hnumber ⊢
    rw [parseValue, skip_cons hblank]
    dsimp only
    rw [if_neg hquote, if_neg hsquare, if_neg hcurly, if_neg ht, if_neg hf, if_neg hn, hnumber]
  | str s =>
    intro fuel rest hfuel _
    obtain ⟨fuel, rfl⟩ := Nat.exists_eq_add_of_lt (Nat.lt_of_lt_of_le (print_length_pos numbers _) hfuel)
    exact parseValue_quote numbers _ s rest
  | arr items ih =>
    obtain ⟨⟩ | ⟨⟩ | ⟨⟩ | ⟨⟩ | hitems := h
    intro fuel rest hfuel hrest
    obtain ⟨fuel, rfl⟩ := Nat.exists_eq_add_of_lt (Nat.lt_of_lt_of_le (print_length_pos numbers _) hfuel)
    cases items with
    | nil => rfl
    | cons item items =>
      simp only [print, List.length_cons, List.length_append] at hfuel
      have hitem := ih item (by simp) (hitems item (by simp))
      have hothers : ∀ i ∈ items, Reads numbers i := fun i hi => ih i (List.mem_cons_of_mem _ hi) (hitems i (List.mem_cons_of_mem _ hi))
      have hrest' := parseItems_print numbers hothers (0 + fuel) rest (by omega)
      simp only [print, List.cons_append, List.append_assoc]
      rw [parseValue, skip_cons (by decide)]
      dsimp only
      rw [if_neg (by decide), if_pos rfl, if_neg (head_skip_print numbers (.inl rfl)),
        hitem (0 + fuel) _ (by omega) (ends_items numbers items rest), Option.bind_some, hrest', Option.map_some]
  | obj fields ih =>
    obtain ⟨⟩ | ⟨⟩ | ⟨⟩ | ⟨⟩ | ⟨⟩ | ⟨hnodup, hfields⟩ := h
    intro fuel rest hfuel hrest
    obtain ⟨fuel, rfl⟩ := Nat.exists_eq_add_of_lt (Nat.lt_of_lt_of_le (print_length_pos numbers _) hfuel)
    cases fields with
    | nil => rfl
    | cons field fields =>
      simp only [print, List.length_cons, List.length_append] at hfuel
      have hfield := parseField_print numbers (ih field (by simp) (hfields field (by simp))) (0 + fuel)
        (ends_fields numbers fields rest) (by omega)
      have hothers : ∀ f ∈ fields, Reads numbers f.2 :=
        fun f hf => ih f (List.mem_cons_of_mem _ hf) (hfields f (List.mem_cons_of_mem _ hf))
      have hrest' := parseFields_print numbers hothers (0 + fuel) rest (by omega)
      have hhead : (skip (printField numbers field ++ (printFields numbers fields ++ rest))).head? ≠ some 0x7d := by
        obtain ⟨key, value⟩ := field
        rw [printField, quote, List.cons_append, List.cons_append, List.cons_append, skip_cons (by decide)]
        simp
      simp only [print, List.cons_append, List.append_assoc]
      rw [parseValue, skip_cons (by decide)]
      dsimp only
      rw [if_neg (by decide), if_neg (by decide), if_pos rfl, if_neg hhead, hfield, Option.bind_some, hrest', Option.map_some]
      dsimp only
      rw [foldl_addField (by simpa using hnodup), List.nil_append]

/-- `JSON.parse` undoes `JSON.stringify`. -/
theorem parse_print {v : JsonTree ν} (h : Keyed v) : parse numbers (print numbers v) = some v := by
  have hread := reads_of_keyed numbers h ((print numbers v).length + 1) [] (by omega) (by simp [Ends])
  rw [List.append_nil] at hread
  rw [parse, hread]
  rfl

/-- Texts tell values apart. -/
theorem print_injective {v w : JsonTree ν} (hv : Keyed v) (hw : Keyed w) (h : print numbers v = print numbers w) : v = w := by
  have hparse := parse_print numbers hv
  rw [h, parse_print numbers hw] at hparse
  exact (Option.some.inj hparse).symm

/-! ## What is parsed has one field for a key -/

theorem nodup_addField {α : Type} {fields : List (JsString × α)} (h : (fields.map Prod.fst).Nodup) (field : JsString × α) :
    ((addField fields field).map Prod.fst).Nodup := by
  unfold addField
  split
  · have hkeys : (fields.map fun f => if f.1 = field.1 then field else f).map Prod.fst = fields.map Prod.fst := by
      rw [List.map_map]
      apply List.map_congr_left
      intro f _
      by_cases hf : f.1 = field.1 <;> simp [hf]
    rwa [hkeys]
  · rename_i hnew
    rw [List.map_append, List.map_singleton]
    exact h.append (List.nodup_singleton _) (by simpa using hnew)

theorem mem_addField {α : Type} {fields : List (JsString × α)} {field f : JsString × α} (h : f ∈ addField fields field) :
    f ∈ fields ∨ f = field := by
  unfold addField at h
  split at h
  · obtain ⟨g, hg, rfl⟩ := List.mem_map.1 h
    by_cases heq : g.1 = field.1
    · exact .inr (if_pos heq)
    · rw [if_neg heq]
      exact .inl hg
  · simpa using h

theorem foldl_addField_keyed {fields acc : List (JsString × JsonTree ν)} (hacc : Keyed (.obj acc))
    (h : ∀ f ∈ fields, Keyed f.2) : Keyed (.obj (fields.foldl addField acc)) := by
  induction fields generalizing acc with
  | nil => exact hacc
  | cons field fields ih =>
    obtain ⟨⟩ | ⟨⟩ | ⟨⟩ | ⟨⟩ | ⟨⟩ | ⟨hnodup, hfields⟩ := hacc
    refine ih (.obj (nodup_addField hnodup field) fun f hf => ?_) fun f hf => h f (List.mem_cons_of_mem _ hf)
    rcases mem_addField hf with hf | rfl
    · exact hfields f hf
    · exact h _ List.mem_cons_self

/-- The four parsers build keyed values; the induction is on the fuel that they share. -/
theorem keyed_of_parsers (fuel : ℕ) :
    (∀ s v rest, parseValue numbers fuel s = some (v, rest) → Keyed v) ∧
      (∀ s items rest, parseItems numbers fuel s = some (items, rest) → ∀ item ∈ items, Keyed item) ∧
      (∀ s field rest, parseField numbers fuel s = some (field, rest) → Keyed field.2) ∧
      ∀ s fields rest, parseFields numbers fuel s = some (fields, rest) → ∀ field ∈ fields, Keyed field.2 := by
  induction fuel with
  | zero => simp [parseValue, parseItems, parseField, parseFields]
  | succ fuel ih =>
    obtain ⟨hvalue, hitems, hfield, hfields⟩ := ih
    refine ⟨fun s v rest h => ?_, fun s items rest h => ?_, fun s field rest h => ?_, fun s fields rest h => ?_⟩
    · rw [parseValue] at h
      split at h
      · cases h
      · rename_i u tail _
        have hword : ∀ {word : JsString} {value : JsonTree ν}, Keyed value → parseLiteral word value (u :: tail) = some (v, rest) → Keyed v := by
          intro word value hkeyed h
          unfold parseLiteral at h
          split at h
          · cases h
            exact hkeyed
          · cases h
        split at h
        · obtain ⟨p, -, heq⟩ := Option.map_eq_some_iff.1 h
          cases heq
          exact .str _
        split at h
        · split at h
          · cases h
            exact .arr (by simp)
          · obtain ⟨p, hp, h⟩ := Option.bind_eq_some_iff.1 h
            obtain ⟨q, hq, heq⟩ := Option.map_eq_some_iff.1 h
            cases heq
            refine .arr fun item hitem => ?_
            rcases List.mem_cons.1 hitem with rfl | hitem
            · exact hvalue _ _ _ hp
            · exact hitems _ _ _ hq item hitem
        split at h
        · split at h
          · cases h
            exact .obj (by simp) (by simp)
          · obtain ⟨p, hp, h⟩ := Option.bind_eq_some_iff.1 h
            obtain ⟨q, hq, heq⟩ := Option.map_eq_some_iff.1 h
            cases heq
            refine foldl_addField_keyed (.obj (by simp) (by simp)) fun f hf => ?_
            rcases List.mem_cons.1 hf with rfl | hf
            · exact hfield _ _ _ hp
            · exact hfields _ _ _ hq f hf
        split at h
        · exact hword (.bool true) h
        split at h
        · exact hword (.bool false) h
        split at h
        · exact hword .null h
        · unfold parseNumber at h
          split at h
          · cases h
            exact .num _
          · cases h
    · rw [parseItems] at h
      split at h
      · cases h
      · split at h
        · cases h
          simp
        · split at h
          · obtain ⟨p, hp, h⟩ := Option.bind_eq_some_iff.1 h
            obtain ⟨q, hq, heq⟩ := Option.map_eq_some_iff.1 h
            cases heq
            intro item hitem
            rcases List.mem_cons.1 hitem with rfl | hitem
            · exact hvalue _ _ _ hp
            · exact hitems _ _ _ hq item hitem
          · cases h
    · rw [parseField] at h
      split at h
      · cases h
      · split at h
        · obtain ⟨p, -, h⟩ := Option.bind_eq_some_iff.1 h
          split at h
          · cases h
          · split at h
            · obtain ⟨q, hq, heq⟩ := Option.map_eq_some_iff.1 h
              cases heq
              exact hvalue _ _ _ hq
            · cases h
        · cases h
    · rw [parseFields] at h
      split at h
      · cases h
      · split at h
        · cases h
          simp
        · split at h
          · obtain ⟨p, hp, h⟩ := Option.bind_eq_some_iff.1 h
            obtain ⟨q, hq, heq⟩ := Option.map_eq_some_iff.1 h
            cases heq
            intro f hf
            rcases List.mem_cons.1 hf with rfl | hf
            · exact hfield _ _ _ hp
            · exact hfields _ _ _ hq f hf
          · cases h

theorem keyed_of_parse {s : JsString} {v : JsonTree ν} (h : parse numbers s = some v) : Keyed v := by
  obtain ⟨⟨w, rest⟩, hw, h⟩ := Option.bind_eq_some_iff.1 h
  split at h
  · obtain rfl := Option.some.inj h
    exact (keyed_of_parsers numbers _).1 _ _ _ hw
  · cases h

/-- A value does not begin with a space that JSON has not. -/
theorem parse_space {s : JsString} (h : ∀ u ∈ (skip s).head?, JsString.isSpace u) : parse numbers s = none := by
  have hnone : parseValue numbers (s.length + 1) s = none := by
    rw [parseValue]
    split
    · rfl
    · rename_i u rest hskip
      have hspace : JsString.isSpace u := h u (by rw [hskip]; rfl)
      have hne : ∀ v : UInt16, JsString.isSpace v = false → u ≠ v := by
        rintro v hv rfl
        simp [hv] at hspace
      have hunit : isNumberUnit u = false := by
        by_contra hunit
        simp only [isNumberUnit, isDigit, Bool.not_eq_false, Bool.or_eq_true, Bool.and_eq_true, decide_eq_true_eq,
          List.contains_eq_mem, List.mem_cons, List.not_mem_nil, or_false] at hunit
        simp only [JsString.isSpace, Bool.or_eq_true, Bool.and_eq_true, decide_eq_true_eq, List.contains_eq_mem, List.mem_cons,
          List.not_mem_nil, or_false] at hspace
        omega
      rw [if_neg (hne _ (by decide)), if_neg (hne _ (by decide)), if_neg (hne _ (by decide)), if_neg (hne _ (by decide)),
        if_neg (hne _ (by decide)), if_neg (hne _ (by decide)), parseNumber, List.takeWhile_cons_of_neg (by simp [hunit])]
      rfl
  rw [parse, hnone]
  rfl

/-! ## What is printed stands on one line -/

theorem hexEscape_units {u v : UInt16} (h : v ∈ hexEscape u) : 0x20 ≤ v.toNat := by
  have hu := u.toNat_lt
  have hdigit : ∀ n < 16, 0x20 ≤ (hexDigit n).toNat := by decide
  simp only [hexEscape, List.mem_cons, List.not_mem_nil, or_false] at h
  rcases h with rfl | rfl | rfl | rfl | rfl | rfl
  · decide
  · decide
  all_goals exact hdigit _ (by omega)

theorem escapeUnit_units {u v : UInt16} (h : v ∈ escapeUnit u) : 0x20 ≤ v.toNat := by
  unfold escapeUnit at h
  split at h
  · rename_i e he
    have htable : ∀ e ∈ shortEscapes, 0x20 ≤ e.1.toNat := JsString.forall_of_all (by decide)
    rcases List.mem_cons.1 h with rfl | h
    · decide
    · rw [List.mem_singleton.1 h]
      exact htable e (List.mem_of_find?_eq_some he)
  · split at h
    · exact hexEscape_units h
    · rw [List.mem_singleton.1 h]
      omega

theorem escape_units {s : JsString} {v : UInt16} (h : v ∈ escape s) : 0x20 ≤ v.toNat := by
  have hsurrogate : ∀ {u : UInt16}, Utf8.isHigh u = true ∨ Utf8.isLow u = true → 0x20 ≤ u.toNat := fun hu =>
    Nat.not_lt.1 (raw_of_surrogate hu).2.2
  fun_induction escape s with
  | case1 => cases h
  | case2 u hu => exact hexEscape_units h
  | case3 u hu w rest' hw ih =>
    rcases List.mem_cons.1 h with rfl | h
    · exact hsurrogate (.inl hu)
    · rcases List.mem_cons.1 h with rfl | h
      · exact hsurrogate (.inr hw)
      · exact ih h
  | case4 u hu w rest' hw ih => exact (List.mem_append.1 h).elim hexEscape_units ih
  | case5 u rest' hu hlow ih => exact (List.mem_append.1 h).elim hexEscape_units ih
  | case6 u rest' hu hlow ih => exact (List.mem_append.1 h).elim escapeUnit_units ih

theorem quote_units {s : JsString} {v : UInt16} (h : v ∈ quote s) : 0x20 ≤ v.toNat := by
  simp only [quote, List.cons_append, List.mem_cons, List.mem_append, List.not_mem_nil, or_false] at h
  rcases h with rfl | h | rfl
  · decide
  · exact escape_units h
  · decide

theorem print_units {t : JsonTree ν} {u : UInt16} (h : u ∈ print numbers t) : 0x20 ≤ u.toNat := by
  induction t using JsonTree.induction with
  | null => exact JsString.forall_of_all (l := lit "null") (p := fun u => 0x20 ≤ u.toNat) (by decide) u h
  | bool b =>
    cases b
    · exact JsString.forall_of_all (l := lit "false") (p := fun u => 0x20 ≤ u.toNat) (by decide) u h
    · exact JsString.forall_of_all (l := lit "true") (p := fun u => 0x20 ≤ u.toNat) (by decide) u h
  | num x =>
    have hunit := literal_units (numbers.literal x) u h
    simp only [isNumberUnit, isDigit, Bool.or_eq_true, Bool.and_eq_true, decide_eq_true_eq, List.contains_eq_mem, List.mem_cons,
      List.not_mem_nil, or_false] at hunit
    omega
  | str s => exact quote_units h
  | arr items ih =>
    have hitems : ∀ items : List (JsonTree ν), (∀ item ∈ items, u ∈ print numbers item → 0x20 ≤ u.toNat) →
        u ∈ printItems numbers items → 0x20 ≤ u.toNat := by
      intro items hall hu
      induction items with
      | nil =>
        rw [List.mem_singleton.1 hu]
        decide
      | cons item items ih =>
        simp only [printItems, List.cons_append, List.mem_cons, List.mem_append] at hu
        rcases hu with rfl | hu | hu
        · decide
        · exact hall item (by simp) hu
        · exact ih (fun i hi => hall i (List.mem_cons_of_mem _ hi)) hu
    cases items with
    | nil => exact JsString.forall_of_all (l := lit "[]") (p := fun u => 0x20 ≤ u.toNat) (by decide) u h
    | cons item items =>
      simp only [print, List.cons_append, List.mem_cons, List.mem_append] at h
      rcases h with rfl | h | h
      · decide
      · exact ih item (by simp) h
      · exact hitems items (fun i hi => ih i (List.mem_cons_of_mem _ hi)) h
  | obj fields ih =>
    have hfield : ∀ {field : JsString × JsonTree ν}, (u ∈ print numbers field.2 → 0x20 ≤ u.toNat) →
        u ∈ printField numbers field → 0x20 ≤ u.toNat := by
      intro field hvalue hu
      obtain ⟨key, value⟩ := field
      simp only [printField, List.mem_append, List.mem_cons] at hu
      rcases hu with hu | rfl | hu
      · exact quote_units hu
      · decide
      · exact hvalue hu
    have hfields : ∀ fields : List (JsString × JsonTree ν), (∀ field ∈ fields, u ∈ print numbers field.2 → 0x20 ≤ u.toNat) →
        u ∈ printFields numbers fields → 0x20 ≤ u.toNat := by
      intro fields hall hu
      induction fields with
      | nil =>
        rw [List.mem_singleton.1 hu]
        decide
      | cons field fields ih =>
        simp only [printFields, List.cons_append, List.mem_cons, List.mem_append] at hu
        rcases hu with rfl | hu | hu
        · decide
        · exact hfield (hall field (by simp)) hu
        · exact ih (fun f hf => hall f (List.mem_cons_of_mem _ hf)) hu
    cases fields with
    | nil => exact JsString.forall_of_all (l := [(0x7b : UInt16), 0x7d]) (p := fun u => 0x20 ≤ u.toNat) (by decide) u h
    | cons field fields =>
      simp only [print, List.cons_append, List.mem_cons, List.mem_append] at h
      rcases h with rfl | h | h
      · decide
      · exact hfield (ih field (by simp)) h
      · exact hfields fields (fun f hf => ih f (List.mem_cons_of_mem _ hf)) h

end Trees

end JsonSyntax
