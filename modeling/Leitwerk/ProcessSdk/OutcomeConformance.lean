import Leitwerk.ProcessSdk.OutcomeSchema
/-!
# What an outcome schema accepts

`ConformsWith` is JSON Schema for the keywords in use: each keyword applies to
the values of its own type, and properties are own properties. Its parameter
says which declared properties an object may lack. `Conforms` lets any be
lacking; the validator reads them on `Object.prototype`.
-/

namespace Leitwerk.ProcessSdk.Outcome

open JsString (lit trim)

def ParsedJson.type : ParsedJson → Option ParameterType
  | .null => none
  | .bool _ => some .boolean
  | .number _ => some .number
  | .string _ => some .string
  | .array _ => some .array
  | .object _ => some .object

def Schema.declared (schema : Schema) : List JsString := schema.propertiesOrEmpty.map Prod.fst

/-- `chosen` is the variant of an `anyOf` that the value conforms to. -/
inductive ConformsWith (missing : JsString → Schema → Prop) : Schema → ParsedJson → Prop
  | mk {schema : Schema} {value : ParsedJson}
      (type : ∀ t, schema.type = some t → value.type = some t)
      (chosen : Schema) (anyOf : ∀ variants, schema.anyOf = some variants → chosen ∈ variants)
      (variant : schema.anyOf ≠ none → ConformsWith missing chosen value)
      (enum : ∀ values, schema.enum = some values → ∃ s ∈ values, value = .string s)
      (minLength : ∀ n, schema.minLength = some n → ∀ s, value = .string s → (JsNumber.finite s.length).lt n = false)
      (minimum : ∀ n, schema.minimum = some n → ∀ q, value = .number q → (JsNumber.finite q).lt n = false)
      (minItems : ∀ n, schema.minItems = some n → ∀ items, value = .array items → (JsNumber.finite items.length).lt n = false)
      (items : ∀ spec, schema.items = some spec → ∀ items, value = .array items → ∀ item ∈ items, ConformsWith missing spec item)
      (properties : ∀ fields, value = .object fields → ∀ p ∈ schema.propertiesOrEmpty, ∀ field,
        fields.lookup p.1 = some field → ConformsWith missing p.2 field)
      (lacking : ∀ fields, value = .object fields → ∀ p ∈ schema.propertiesOrEmpty, fields.lookup p.1 = none → missing p.1 p.2)
      (required : ∀ fields, value = .object fields → ∀ key ∈ schema.requiredOrEmpty, (fields.lookup key).isSome)
      (additionalProperties : schema.additionalProperties = some false → ∀ fields, value = .object fields →
        ∀ key ∈ fields.map Prod.fst, key ∈ schema.declared) :
      ConformsWith missing schema value

/-- The value conforms to the schema, by its own properties only. -/
def Conforms : Schema → ParsedJson → Prop := ConformsWith fun _ _ => True

/-- The schemas that `Object.prototype`, an object without enumerable properties, meets. -/
inductive Bare : Schema → Prop
  | object {schema : Schema} (type : schema.type = some .object) (anyOf : schema.anyOf = none)
      (required : schema.requiredOrEmpty = []) (properties : ∀ key ∈ schema.declared, ¬ Inherited key) : Bare schema
  | variant {schema variant : Schema} {variants : List Schema} (anyOf : schema.anyOf = some variants)
      (mem : variant ∈ variants) (bare : Bare variant) : Bare schema

/-- Reading a declared property that an object lacks does no harm: the prototype does not have it, or
what it has under `__proto__` meets the declaration. -/
def Harmless (key : JsString) (spec : Schema) : Prop := ¬ Inherited key ∨ key = protoKey ∧ Bare spec

/-- What may lack fewer properties accepts less. -/
theorem ConformsWith.mono {missing missing' : JsString → Schema → Prop} (hm : ∀ key schema, missing key schema → missing' key schema)
    {schema : Schema} {value : ParsedJson} (h : ConformsWith missing schema value) : ConformsWith missing' schema value := by
  induction h with
  | mk type chosen anyOf variant enum minLength minimum minItems items properties lacking required additionalProperties
      ihVariant ihItems ihProperties =>
    exact .mk type chosen anyOf ihVariant enum minLength minimum minItems ihItems ihProperties
      (fun fields hv p hp hl => hm _ _ (lacking fields hv p hp hl)) required additionalProperties

/-! ## Shapes of a schema -/

/-- What `assertOutcomeSchema` lets through, by its shape. -/
inductive WellFormed : Schema → Prop
  | union (variants : List Schema) (nonempty : variants ≠ []) (each : ∀ variant ∈ variants, WellFormed variant) :
      WellFormed { anyOf := some variants }
  | string (enum : Option (List JsString)) (minLength : Option JsNumber) :
      WellFormed { type := some .string, enum := enum, minLength := minLength }
  | number (minimum : Option JsNumber) : WellFormed { type := some .number, minimum := minimum }
  | boolean : WellFormed { type := some .boolean }
  | array (minItems : Option JsNumber) (items : Schema) (each : WellFormed items) :
      WellFormed { type := some .array, minItems := minItems, items := some items }
  | object (properties : Option (List (JsString × Schema))) (required : Option (List JsString))
      (additionalProperties : Option Bool) (each : ∀ p ∈ properties.getD [], WellFormed p.2)
      (requires : ∀ key ∈ required.getD [], key ∈ (properties.getD []).map Prod.fst) :
      WellFormed { type := some .object, properties := properties, required := required, additionalProperties := additionalProperties }

/-- An induction over everything inside a schema. -/
theorem Schema.induction {P : Schema → Prop}
    (step : ∀ schema : Schema, (∀ variants, schema.anyOf = some variants → ∀ variant ∈ variants, P variant) →
      (∀ items, schema.items = some items → P items) →
      (∀ properties, schema.properties = some properties → ∀ p ∈ properties, P p.2) → P schema) (schema : Schema) : P schema := by
  refine @Schema.rec P (fun variants => ∀ l, variants = some l → ∀ variant ∈ l, P variant)
    (fun items => ∀ i, items = some i → P i) (fun properties => ∀ l, properties = some l → ∀ p ∈ l, P p.2)
    (fun l => ∀ variant ∈ l, P variant) (fun l => ∀ p ∈ l, P p.2) (fun p => P p.2) ?_ ?_ ?_ ?_ ?_ ?_ ?_ ?_ ?_ ?_ ?_ ?_ schema
  · intro type anyOf minItems items properties required additionalProperties enum minLength minimum hv hi hp
    exact step _ hv hi hp
  · intro l h
    cases h
  · intro l ih k h
    cases h
    exact ih
  · intro i h
    cases h
  · intro i ih k h
    cases h
    exact ih
  · intro l h
    cases h
  · intro l ih k h
    cases h
    exact ih
  · simp
  · intro head tail hh ht variant hv
    rcases List.mem_cons.1 hv with rfl | hv
    · exact hh
    · exact ht variant hv
  · simp
  · intro head tail hh ht p hp
    rcases List.mem_cons.1 hp with rfl | hp
    · exact hh
    · exact ht p hp
  · intro _ _ h
    exact h

section Except

variable {ε : Type} {u : Except ε Unit}

/-- Both steps of a check pass. -/
theorem bind_ok {f : Unit → Except ε Unit} : (u >>= f) = .ok () ↔ u = .ok () ∧ f () = .ok () := by
  cases u <;> simp [bind, Except.bind]

@[simp] theorem refuse_ok {bad : Bool} {path message : JsString} : refuse bad path message = .ok () ↔ bad = false := by
  unfold refuse
  cases bad <;> simp [fail]

end Except

/-! ### The shape of an accepted schema -/

theorem assertVariants_ok {strict : Bool} {variants : List Schema} {i : Nat} {path : JsString}
    (h : assertVariants strict variants i path = .ok ()) :
    ∀ variant ∈ variants, ∃ path', assertOutcomeSchema strict variant path' = .ok () := by
  induction variants generalizing i with
  | nil => simp
  | cons head tail ih =>
    rw [assertVariants, bind_ok] at h
    intro variant hv
    rcases List.mem_cons.1 hv with rfl | hv
    · exact ⟨_, h.1⟩
    · exact ih h.2 variant hv

theorem assertProperties_ok {strict : Bool} {properties : List (JsString × Schema)} {path : JsString}
    (h : assertProperties strict properties path = .ok ()) :
    ∀ p ∈ properties, ∃ path', assertOutcomeSchema strict p.2 path' = .ok () := by
  induction properties with
  | nil => simp
  | cons head tail ih =>
    obtain ⟨key, spec⟩ := head
    rw [assertProperties, bind_ok] at h
    intro p hp
    rcases List.mem_cons.1 hp with rfl | hp
    · exact ⟨_, h.1⟩
    · exact ih h.2 p hp

theorem assertNumberKeyword_ok {schema : Schema} {path key : JsString} {type : ParameterType} {value : Option JsNumber}
    (h : assertNumberKeyword schema path key type value = .ok ()) (ht : schema.type ≠ some type) : value = none := by
  cases value with
  | none => rfl
  | some n => simp [assertNumberKeyword, ht] at h

/-- An accepted `anyOf` schema declares nothing beside its variants. -/
theorem assertAnyOf_ok {schema : Schema} {variants : List Schema} {path : JsString} (hs : schema.anyOf = some variants)
    (h : assertAnyOf schema variants path = .ok ()) : variants ≠ [] ∧ schema = { anyOf := some variants } := by
  obtain ⟨type, anyOf, minItems, items, properties, required, additionalProperties, enum, minLength, minimum⟩ := schema
  simp only [assertAnyOf, bind_ok, refuse_ok, Bool.or_eq_false_iff, Option.isSome_eq_false_iff, Option.isNone_iff_eq_none,
    List.isEmpty_eq_false_iff] at h hs
  obtain ⟨⟨rfl, hne⟩, ⟨⟨⟨⟨⟨⟨rfl, rfl⟩, rfl⟩, rfl⟩, rfl⟩, rfl⟩, rfl⟩, rfl⟩ := h
  subst hs
  exact ⟨hne, rfl⟩

/-- What the number keywords and `enum` of an accepted schema without `anyOf` say of its type. -/
theorem assertKeywords_ok {schema : Schema} {path : JsString} (h : assertKeywords schema path = .ok ()) :
    schema.type ≠ none ∧ (schema.type ≠ some .string → schema.minLength = none ∧ schema.enum = none) ∧
      (schema.type ≠ some .number → schema.minimum = none) ∧ (schema.type ≠ some .array → schema.minItems = none) := by
  simp only [assertKeywords, bind_ok, refuse_ok] at h
  obtain ⟨htype, hlength, hminimum, hitems, henum⟩ := h
  refine ⟨Option.isNone_eq_false_iff.1 htype |> Option.isSome_iff_ne_none.1, fun ht => ⟨assertNumberKeyword_ok hlength ht, ?_⟩, assertNumberKeyword_ok hminimum,
    assertNumberKeyword_ok hitems⟩
  cases he : schema.enum with
  | none => rfl
  | some values => simp [he, ht] at henum

/-- An accepted object schema requires only what it declares. -/
theorem assertObject_ok {strict : Bool} {schema : Schema} {path : JsString} (h : assertObject strict schema path = .ok ()) :
    ∀ key ∈ schema.requiredOrEmpty, key ∈ schema.declared := by
  simp only [assertObject, bind_ok, refuse_ok, List.any_eq_false] at h
  intro key hkey
  have hdeclared := h.1 key hkey
  simpa [Schema.declared] using hdeclared

/-- Only an array has `items`. -/
theorem assertItems_ok {strict : Bool} {type : Option ParameterType} {items : Option Schema} {path : JsString}
    (h : assertItems strict type items path = .ok ()) :
    (type ≠ some .array → items = none) ∧
      (type = some .array → ∃ spec path', items = some spec ∧ assertOutcomeSchema strict spec path' = .ok ()) := by
  cases items with
  | none => simpa [assertItems] using h
  | some spec =>
    rw [assertItems] at h
    split at h
    · exact ⟨fun ht => absurd ‹_› ht, fun _ => ⟨spec, _, rfl, h⟩⟩
    · simp [fail] at h

theorem assertNotObject_ok {schema : Schema} {path : JsString} (h : assertNotObject schema path = .ok ()) :
    schema.properties = none ∧ schema.required = none ∧ schema.additionalProperties = none := by
  simpa [assertNotObject, and_assoc] using h

theorem assertDeclared_ok {strict : Bool} {properties : Option (List (JsString × Schema))} {path : JsString}
    (h : assertDeclared strict properties path = .ok ()) :
    ∀ p ∈ properties.getD [], ∃ path', assertOutcomeSchema strict p.2 path' = .ok () := by
  cases properties with
  | none => simp
  | some properties =>
    rw [assertDeclared] at h
    exact assertProperties_ok h

theorem wellFormed_of_accepted {strict : Bool} (schema : Schema) :
    ∀ {path : JsString}, assertOutcomeSchema strict schema path = .ok () → WellFormed schema := by
  induction schema using Schema.induction with
  | step schema hvariants hitems hproperties =>
    intro path h
    obtain ⟨type, anyOf, minItems, items, properties, required, additionalProperties, enum, minLength, minimum⟩ := schema
    cases anyOf with
    | some variants =>
      rw [assertOutcomeSchema, bind_ok] at h
      obtain ⟨hne, hs⟩ := assertAnyOf_ok rfl h.1
      rw [hs]
      refine .union variants hne fun variant hv => ?_
      obtain ⟨path', hok⟩ := assertVariants_ok h.2 variant hv
      exact hvariants variants rfl variant hv hok
    | none =>
      rw [assertOutcomeSchema] at h
      simp only [bind_ok] at h
      obtain ⟨hkeywords, harray, hobject⟩ := h
      obtain ⟨htype, hstring, hnumber, hlist⟩ := assertKeywords_ok hkeywords
      obtain ⟨hnoItems, hhasItems⟩ := assertItems_ok harray
      have hplain : type ≠ some .object → properties = none ∧ required = none ∧ additionalProperties = none := by
        intro ht
        rw [if_neg ht] at hobject
        exact assertNotObject_ok hobject
      cases type with
      | none => exact absurd rfl htype
      | some type =>
        cases type with
        | string =>
          obtain ⟨rfl, rfl, rfl⟩ := hplain (by simp)
          obtain rfl := hnumber (by simp)
          obtain rfl := hlist (by simp)
          obtain rfl := hnoItems (by simp)
          exact .string enum minLength
        | number =>
          obtain ⟨rfl, rfl, rfl⟩ := hplain (by simp)
          obtain ⟨rfl, rfl⟩ := hstring (by simp)
          obtain rfl := hlist (by simp)
          obtain rfl := hnoItems (by simp)
          exact .number minimum
        | boolean =>
          obtain ⟨rfl, rfl, rfl⟩ := hplain (by simp)
          obtain ⟨rfl, rfl⟩ := hstring (by simp)
          obtain rfl := hnumber (by simp)
          obtain rfl := hlist (by simp)
          obtain rfl := hnoItems (by simp)
          exact .boolean
        | array =>
          obtain ⟨rfl, rfl, rfl⟩ := hplain (by simp)
          obtain ⟨rfl, rfl⟩ := hstring (by simp)
          obtain rfl := hnumber (by simp)
          obtain ⟨spec, path', rfl, hok⟩ := hhasItems rfl
          exact .array minItems spec (hitems spec rfl hok)
        | object =>
          obtain ⟨rfl, rfl⟩ := hstring (by simp)
          obtain rfl := hnumber (by simp)
          obtain rfl := hlist (by simp)
          obtain rfl := hnoItems (by simp)
          rw [if_pos rfl, bind_ok] at hobject
          refine .object properties required additionalProperties (fun p hp => ?_) (assertObject_ok hobject.1)
          obtain ⟨path', hok⟩ := assertDeclared_ok hobject.2 p hp
          cases properties with
          | none => simp at hp
          | some properties => exact hproperties properties rfl p hp hok

/-! ## What conforming says of each shape -/

section Shapes

variable {missing : JsString → Schema → Prop} {value : ParsedJson}

theorem conforms_union {variants : List Schema} :
    ConformsWith missing { anyOf := some variants } value ↔ ∃ variant ∈ variants, ConformsWith missing variant value := by
  constructor
  · rintro ⟨-, chosen, hmem, hvariant, -⟩
    exact ⟨chosen, hmem variants rfl, hvariant (by simp)⟩
  · rintro ⟨variant, hmem, hvariant⟩
    refine ⟨?_, variant, ?_, fun _ => hvariant, ?_, ?_, ?_, ?_, ?_, ?_, ?_, ?_, ?_⟩ <;>
      simp_all [Schema.propertiesOrEmpty, Schema.requiredOrEmpty]

theorem conforms_string {enum : Option (List JsString)} {minLength : Option JsNumber} :
    ConformsWith missing { type := some .string, enum := enum, minLength := minLength } value ↔
      ∃ s, value = .string s ∧ (∀ values, enum = some values → s ∈ values) ∧
        ∀ n, minLength = some n → (JsNumber.finite s.length).lt n = false := by
  constructor
  · rintro ⟨htype, -, -, -, henum, hlength, -⟩
    cases value with
    | string s =>
      refine ⟨s, rfl, fun values hv => ?_, fun n hn => hlength n hn s rfl⟩
      obtain ⟨s', hmem, heq⟩ := henum values hv
      cases heq
      exact hmem
    | _ => simp [ParsedJson.type] at htype
  · rintro ⟨s, rfl, henum, hlength⟩
    refine ⟨?_, {}, ?_, ?_, ?_, ?_, ?_, ?_, ?_, ?_, ?_, ?_, ?_⟩ <;>
      simp_all [Schema.propertiesOrEmpty, Schema.requiredOrEmpty, ParsedJson.type]

theorem conforms_number {minimum : Option JsNumber} :
    ConformsWith missing { type := some .number, minimum := minimum } value ↔
      ∃ q, value = .number q ∧ ∀ n, minimum = some n → (JsNumber.finite q).lt n = false := by
  constructor
  · rintro ⟨htype, -, -, -, -, -, hminimum, -⟩
    cases value with
    | number q => exact ⟨q, rfl, fun n hn => hminimum n hn q rfl⟩
    | _ => simp [ParsedJson.type] at htype
  · rintro ⟨q, rfl, hminimum⟩
    refine ⟨?_, {}, ?_, ?_, ?_, ?_, ?_, ?_, ?_, ?_, ?_, ?_, ?_⟩ <;>
      simp_all [Schema.propertiesOrEmpty, Schema.requiredOrEmpty, ParsedJson.type]

theorem conforms_boolean : ConformsWith missing { type := some .boolean } value ↔ ∃ b, value = .bool b := by
  constructor
  · rintro ⟨htype, -⟩
    cases value with
    | bool b => exact ⟨b, rfl⟩
    | _ => simp [ParsedJson.type] at htype
  · rintro ⟨b, rfl⟩
    refine ⟨?_, {}, ?_, ?_, ?_, ?_, ?_, ?_, ?_, ?_, ?_, ?_, ?_⟩ <;>
      simp_all [Schema.propertiesOrEmpty, Schema.requiredOrEmpty, ParsedJson.type]

theorem conforms_array {minItems : Option JsNumber} {items : Schema} :
    ConformsWith missing { type := some .array, minItems := minItems, items := some items } value ↔
      ∃ values, value = .array values ∧ (∀ n, minItems = some n → (JsNumber.finite values.length).lt n = false) ∧
        ∀ item ∈ values, ConformsWith missing items item := by
  constructor
  · rintro ⟨htype, -, -, -, -, -, -, hmin, hitems, -⟩
    cases value with
    | array values => exact ⟨values, rfl, fun n hn => hmin n hn values rfl, hitems items rfl values rfl⟩
    | _ => simp [ParsedJson.type] at htype
  · rintro ⟨values, rfl, hmin, hitems⟩
    refine ⟨?_, {}, ?_, ?_, ?_, ?_, ?_, ?_, ?_, ?_, ?_, ?_, ?_⟩ <;>
      simp_all [Schema.propertiesOrEmpty, Schema.requiredOrEmpty, ParsedJson.type]

/-- A declared property of an object: what it has conforms, what it lacks may be lacking. -/
def PropertyConforms (missing : JsString → Schema → Prop) (fields : List (JsString × ParsedJson)) (p : JsString × Schema) : Prop :=
  (∀ field, fields.lookup p.1 = some field → ConformsWith missing p.2 field) ∧ (fields.lookup p.1 = none → missing p.1 p.2)

theorem conforms_object {properties : Option (List (JsString × Schema))} {required : Option (List JsString)}
    {additionalProperties : Option Bool} :
    ConformsWith missing
        { type := some .object, properties := properties, required := required, additionalProperties := additionalProperties }
        value ↔
      ∃ fields, value = .object fields ∧
        (additionalProperties = some false → ∀ key ∈ fields.map Prod.fst, key ∈ (properties.getD []).map Prod.fst) ∧
        (∀ key ∈ required.getD [], (fields.lookup key).isSome) ∧
        ∀ p ∈ properties.getD [], PropertyConforms missing fields p := by
  constructor
  · rintro ⟨htype, -, -, -, -, -, -, -, -, hproperties, hlacking, hrequired, hadditional⟩
    cases value with
    | object fields =>
      exact ⟨fields, rfl, fun ha => hadditional ha fields rfl, hrequired fields rfl,
        fun p hp => ⟨hproperties fields rfl p hp, hlacking fields rfl p hp⟩⟩
    | _ => simp [ParsedJson.type] at htype
  · rintro ⟨fields, rfl, hadditional, hrequired, hproperties⟩
    refine ⟨?_, {}, ?_, ?_, ?_, ?_, ?_, ?_, ?_, ?_, ?_, ?_, ?_⟩
    case refine_9 =>
      intro fields' h p hp
      cases h
      exact (hproperties p hp).1
    case refine_10 =>
      intro fields' h p hp
      cases h
      exact (hproperties p hp).2
    case refine_11 =>
      intro fields' h
      cases h
      exact hrequired
    case refine_12 =>
      intro ha fields' h
      cases h
      exact hadditional ha
    all_goals simp [ParsedJson.type]

end Shapes

/-! ## What the validator says of each shape -/

section Validate

variable {numberText : JsNumber → JsString} {value : JsValue} {path : JsString}

theorem discriminated_ne_nil {variants : List Schema} {branches : List (List OutcomeSchemaIssue)} {keys : List JsString}
    (h : [] ∉ branches) : discriminated variants branches value path keys ≠ some [] := by
  induction keys with
  | nil => simp [discriminated]
  | cons key keys ih =>
    rw [discriminated]
    split
    · split
      · split
        · intro hb
          exact h (List.mem_of_getElem? hb)
        · simp
      · exact ih
    · exact ih

/-- A union has no issue exactly when one of its branches has none: whatever a discriminator selects is an
issue otherwise. -/
theorem unionIssues_eq_nil {variants : List Schema} {branches : List (List OutcomeSchemaIssue)} :
    unionIssues variants branches value path = [] ↔ [] ∈ branches := by
  unfold unionIssues
  by_cases h : [] ∈ branches
  · have hany : branches.any (·.isEmpty) = true := List.any_eq_true.2 ⟨[], h, rfl⟩
    simp [hany, h]
  · have hany : branches.any (·.isEmpty) = false := by
      rw [List.any_eq_false]
      intro errors he hempty
      rw [List.isEmpty_iff] at hempty
      exact h (hempty ▸ he)
    simp only [hany, Bool.false_eq_true, if_false, h, iff_false]
    split
    · intro hnil
      generalize hd : discriminated variants branches value path _ = found at hnil
      cases found with
      | none => simp at hnil
      | some issues =>
        rw [Option.getD_some] at hnil
        subst hnil
        exact discriminated_ne_nil h hd
    · simp

theorem validateVariants_eq (variants : List Schema) :
    validateVariants numberText variants value path = variants.map fun variant => validateOutcomeValue numberText variant value path := by
  induction variants with
  | nil => rfl
  | cons variant variants ih => rw [validateVariants, ih, List.map_cons]

theorem validate_union {variants : List Schema} :
    validateOutcomeValue numberText { anyOf := some variants } value path = [] ↔
      ∃ variant ∈ variants, validateOutcomeValue numberText variant value path = [] := by
  rw [validateOutcomeValue, unionIssues_eq_nil, validateVariants_eq, List.mem_map]

theorem validateDeclared_eq_nil {properties : Option (List (JsString × Schema))} :
    validateDeclared numberText properties value path = [] ↔
      ∀ p ∈ properties.getD [], (value.member p.1).isUndefined = true ∨
        validateOutcomeValue numberText p.2 (value.member p.1) (dot path p.1) = [] := by
  cases properties with
  | none => simp [validateDeclared]
  | some properties =>
    rw [validateDeclared]
    induction properties with
    | nil => simp [validateProperties]
    | cons p properties ih =>
      obtain ⟨key, spec⟩ := p
      rw [validateProperties, List.append_eq_nil_iff, ih]
      simp only [Option.getD_some, List.forall_mem_cons]
      refine and_congr_left fun _ => ?_
      split <;> simp_all

theorem validate_object {properties : Option (List (JsString × Schema))} {required : Option (List JsString)}
    {additionalProperties : Option Bool} :
    validateOutcomeValue numberText
        { type := some .object, properties := properties, required := required, additionalProperties := additionalProperties }
        value path = [] ↔
      value.isUnknownRecord = true ∧
        (additionalProperties = some false → ∀ key ∈ value.keys, key ∈ (properties.getD []).map Prod.fst) ∧
        (∀ key ∈ required.getD [], value.hasOwn key = true ∧ (value.member key).isUndefined = false) ∧
        ∀ p ∈ properties.getD [], (value.member p.1).isUndefined = true ∨
          validateOutcomeValue numberText p.2 (value.member p.1) (dot path p.1) = [] := by
  rw [validateOutcomeValue, if_pos rfl]
  by_cases hr : value.isUnknownRecord = true
  · rw [if_pos hr, List.append_eq_nil_iff, validateDeclared_eq_nil, objectIssues, List.append_eq_nil_iff]
    simp only [hr, true_and, and_assoc, Schema.propertiesOrEmpty, Schema.requiredOrEmpty, List.map_eq_nil_iff,
      List.filter_eq_nil_iff]
    refine and_congr ?_ (and_congr ?_ Iff.rfl)
    · by_cases ha : additionalProperties = some false <;> simp [ha]
    · simp
  · simp [hr]

theorem validate_array {minItems : Option JsNumber} {items : Schema} :
    validateOutcomeValue numberText { type := some .array, minItems := minItems, items := some items } value path = [] ↔
      value.isArray = true ∧ (JsNumber.finite value.elements.length).lt (minItems.getD (.finite 0)) = false ∧
        ∀ x ∈ value.elements.zipIdx, validateOutcomeValue numberText items (.json x.1) (path ++ index x.2) = [] := by
  rw [validateOutcomeValue, if_neg (by simp), if_pos rfl]
  by_cases ha : value.isArray = true
  · simp only [ha, if_true, true_and, List.append_eq_nil_iff, lengthIssues, validateItems, List.flatten_eq_nil_iff,
      List.forall_mem_map, ite_eq_right_iff, reduceCtorEq, imp_false, Bool.not_eq_true]
  · simp [ha]

theorem validate_string {enum : Option (List JsString)} {minLength : Option JsNumber} :
    validateOutcomeValue numberText { type := some .string, enum := enum, minLength := minLength } value path = [] ↔
      ∃ s, value = .json (.string s) ∧ (∀ values, enum = some values → s ∈ values) ∧
        (JsNumber.finite s.length).lt (minLength.getD (.finite 0)) = false := by
  rw [validateOutcomeValue, if_neg (by simp), if_neg (by simp)]
  unfold scalarIssues
  split
  · rename_i s ht
    unfold stringIssues
    cases enum with
    | none => simp
    | some values => by_cases hs : s ∈ values <;> simp [hs]
  · simp_all
  · simp_all
  · rename_i hs hn hb
    simp only [List.cons_ne_nil, false_iff, not_exists, not_and]
    rintro s rfl
    exact absurd rfl (hs s rfl)

theorem validate_number {minimum : Option JsNumber} :
    validateOutcomeValue numberText { type := some .number, minimum := minimum } value path = [] ↔
      ∃ q, value = .json (.number q) ∧ ∀ n, minimum = some n → (JsNumber.finite q).lt n = false := by
  rw [validateOutcomeValue, if_neg (by simp), if_neg (by simp)]
  unfold scalarIssues
  split
  · simp_all
  · unfold numberIssues
    cases minimum <;> simp
  · simp_all
  · rename_i hs hn hb
    simp only [List.cons_ne_nil, false_iff, not_exists, not_and]
    rintro q rfl
    exact absurd rfl (hn q rfl)

theorem validate_boolean :
    validateOutcomeValue numberText { type := some .boolean } value path = [] ↔ ∃ b, value = .json (.bool b) := by
  rw [validateOutcomeValue, if_neg (by simp), if_neg (by simp)]
  unfold scalarIssues
  split
  · simp_all
  · simp_all
  · simp
  · rename_i hs hn hb
    simp only [List.cons_ne_nil, false_iff, not_exists]
    rintro b rfl
    exact absurd rfl (hb b rfl)

end Validate

/-! ## The validator against conformance -/

theorem length_lt_getD {n : Nat} {bound : Option JsNumber} :
    (JsNumber.finite n).lt (bound.getD (.finite 0)) = false ↔ ∀ b, bound = some b → (JsNumber.finite n).lt b = false := by
  cases bound with
  | some b => simp
  | none => simpa [JsNumber.lt, Rat.not_lt] using Rat.natCast_nonneg

/-- What an object lacks is read on `Object.prototype`. -/
theorem member_lacking {fields : List (JsString × ParsedJson)} {key : JsString} (h : fields.lookup key = none) :
    (JsValue.json (.object fields)).member key =
      if key = protoKey then .objectPrototype else if key ∈ prototypeMethods then .function else .undefined := by
  simp [JsValue.member, h]

theorem member_own {fields : List (JsString × ParsedJson)} {key : JsString} {field : ParsedJson}
    (h : fields.lookup key = some field) : (JsValue.json (.object fields)).member key = .json field := by
  simp [JsValue.member, h]

section Spec

variable {numberText : JsNumber → JsString}

/-- A function and `null` have none of the types. -/
theorem validate_typeless {schema : Schema} (h : WellFormed schema) {value : JsValue}
    (hv : value = .function ∨ value = .json .null) : ∀ path, validateOutcomeValue numberText schema value path ≠ [] := by
  induction h with
  | union variants _ _ ih =>
    intro path hnil
    obtain ⟨variant, hmem, hvariant⟩ := validate_union.1 hnil
    exact ih variant hmem path hvariant
  | string =>
    intro path hnil
    obtain ⟨s, rfl, -⟩ := validate_string.1 hnil
    simp at hv
  | number =>
    intro path hnil
    obtain ⟨q, rfl, -⟩ := validate_number.1 hnil
    simp at hv
  | boolean =>
    intro path hnil
    obtain ⟨b, rfl⟩ := validate_boolean.1 hnil
    simp at hv
  | array =>
    intro path hnil
    obtain ⟨harray, -⟩ := validate_array.1 hnil
    rcases hv with rfl | rfl <;> simp [JsValue.isArray] at harray
  | object =>
    intro path hnil
    obtain ⟨hrecord, -⟩ := validate_object.1 hnil
    rcases hv with rfl | rfl <;> simp [JsValue.isUnknownRecord] at hrecord

/-- A member that `Object.prototype` has meets no declaration. -/
theorem validate_prototype_member (numberText : JsNumber → JsString) {schema : Schema} (h : WellFormed schema) {key : JsString} (hk : Inherited key)
    (path : JsString) : (JsValue.objectPrototype.member key).isUndefined = false ∧
      validateOutcomeValue numberText schema (JsValue.objectPrototype.member key) path ≠ [] := by
  unfold JsValue.member
  by_cases hproto : key = protoKey
  · simp only [hproto, if_true]
    exact ⟨rfl, validate_typeless h (.inr rfl) path⟩
  · have hmethod : key ∈ prototypeMethods := hk.resolve_left hproto
    simp only [hproto, if_false, hmethod, if_true]
    exact ⟨rfl, validate_typeless h (.inl rfl) path⟩

theorem prototype_member_undefined {key : JsString} (hk : ¬ Inherited key) : JsValue.objectPrototype.member key = .undefined := by
  obtain ⟨hproto, hmethod⟩ := not_or.1 hk
  simp [JsValue.member, hproto, hmethod]

/-- Only object schemas and unions are bare. -/
theorem not_bare {schema : Schema} (htype : schema.type ≠ some .object) (hany : schema.anyOf = none) : ¬ Bare schema := by
  rintro (⟨hobject, -⟩ | ⟨hunion, -⟩)
  · exact htype hobject
  · rw [hany] at hunion
    cases hunion

/-- `Object.prototype` passes for a bare declaration, and for no other. -/
theorem validate_objectPrototype {schema : Schema} (h : WellFormed schema) :
    ∀ path, validateOutcomeValue numberText schema .objectPrototype path = [] ↔ Bare schema := by
  induction h with
  | union variants _ _ ih =>
    intro path
    rw [validate_union]
    constructor
    · rintro ⟨variant, hmem, hnil⟩
      exact .variant rfl hmem ((ih variant hmem path).1 hnil)
    · rintro (⟨htype, -⟩ | ⟨hany, hmem, hbare⟩)
      · simp at htype
      · cases hany
        exact ⟨_, hmem, (ih _ hmem path).2 hbare⟩
  | string =>
    intro path
    refine iff_of_false ?_ ?_
    · rw [validate_string]
      simp
    · exact not_bare (by simp) rfl
  | number =>
    intro path
    refine iff_of_false ?_ ?_
    · rw [validate_number]
      simp
    · exact not_bare (by simp) rfl
  | boolean =>
    intro path
    refine iff_of_false ?_ ?_
    · rw [validate_boolean]
      simp
    · exact not_bare (by simp) rfl
  | array =>
    intro path
    refine iff_of_false ?_ ?_
    · rw [validate_array]
      simp [JsValue.isArray]
    · exact not_bare (by simp) rfl
  | object properties required additionalProperties each requires ih =>
    intro path
    rw [validate_object]
    constructor
    · rintro ⟨-, -, hrequired, hproperties⟩
      have hfree : ∀ key ∈ (properties.getD []).map Prod.fst, ¬ Inherited key := by
        intro key hkey hinherited
        obtain ⟨p, hp, rfl⟩ := List.mem_map.1 hkey
        obtain ⟨hdefined, hne⟩ := validate_prototype_member numberText (each p hp) hinherited (dot path p.1)
        rcases hproperties p hp with hundefined | hnil
        · rw [hdefined] at hundefined
          cases hundefined
        · exact hne hnil
      refine .object rfl rfl ?_ hfree
      -- what is required is declared, so `Object.prototype` does not have it
      refine List.eq_nil_iff_forall_not_mem.2 fun key hkey => ?_
      have hundefined := prototype_member_undefined (hfree key (requires key hkey))
      have hdefined := (hrequired key hkey).2
      rw [hundefined] at hdefined
      cases hdefined
    · rintro (⟨-, -, hrequired, hfree⟩ | ⟨hany, -⟩)
      · refine ⟨rfl, by simp [JsValue.keys], ?_, fun p hp => .inl ?_⟩
        · have hnone : required.getD [] = [] := hrequired
          simp [hnone]
        · rw [prototype_member_undefined (hfree p.1 (List.mem_map_of_mem hp))]
          rfl
      · simp at hany

/-- The validator has no issue exactly when the value conforms and reading what its objects lack does no harm. -/
theorem validate_json {schema : Schema} (h : WellFormed schema) :
    ∀ path value, validateOutcomeValue numberText schema (.json value) path = [] ↔ ConformsWith Harmless schema value := by
  induction h with
  | union variants _ _ ih =>
    intro path value
    rw [validate_union, conforms_union]
    exact exists_congr fun variant => and_congr_right fun hmem => ih variant hmem path value
  | string enum minLength =>
    intro path value
    rw [validate_string, conforms_string]
    simp only [JsValue.json.injEq, length_lt_getD]
  | number minimum =>
    intro path value
    rw [validate_number, conforms_number]
    simp only [JsValue.json.injEq]
  | boolean =>
    intro path value
    rw [validate_boolean, conforms_boolean]
    simp only [JsValue.json.injEq]
  | array minItems items _ ih =>
    intro path value
    rw [validate_array, conforms_array]
    cases value with
    | array values =>
      simp only [JsValue.isArray, JsValue.elements, true_and, length_lt_getD, ih, ParsedJson.array.injEq, exists_eq_left']
      refine and_congr_right fun _ => ⟨fun hall item hitem => ?_, fun hall x hx => ?_⟩
      · obtain ⟨i, hi, rfl⟩ := List.mem_iff_getElem.1 hitem
        exact hall (values[i], i) (List.mk_mem_zipIdx_iff_getElem?.2 (List.getElem?_eq_getElem hi))
      · exact hall x.1 (List.fst_mem_of_mem_zipIdx hx)
    | _ => simp [JsValue.isArray]
  | object properties required additionalProperties each requires ih =>
    intro path value
    rw [validate_object, conforms_object]
    cases value with
    | object fields =>
      simp only [JsValue.isUnknownRecord, true_and, ParsedJson.object.injEq, exists_eq_left', JsValue.keys]
      refine and_congr Iff.rfl (and_congr (forall₂_congr fun key _ => ?_) (forall₂_congr fun p hp => ?_))
      · cases hl : fields.lookup key with
        | none => simp [JsValue.hasOwn, hl]
        | some field => simp [JsValue.hasOwn, hl, member_own hl, JsValue.isUndefined]
      · unfold PropertyConforms
        cases hl : fields.lookup p.1 with
        | some field =>
          rw [member_own hl]
          simp [JsValue.isUndefined, ih p hp]
        | none =>
          rw [member_lacking hl]
          unfold Harmless Inherited
          by_cases hproto : p.1 = protoKey
          · simp [hproto, JsValue.isUndefined, validate_objectPrototype (each p hp)]
          · by_cases hmethod : p.1 ∈ prototypeMethods
            · simp [hproto, hmethod, JsValue.isUndefined, validate_typeless (each p hp) (.inl rfl)]
            · simp [hproto, hmethod, JsValue.isUndefined]
    | _ => simp [JsValue.isUnknownRecord]

end Spec

end Leitwerk.ProcessSdk.Outcome
