import Leitwerk.ProcessSdk.OutcomeConformance
/-!
# Outcome validation against what a schema accepts

The validator reads `value[key]` for each declared property, so an object that
lacks a property named like a member of `Object.prototype` hands it that member:
an optional `constructor` or `toString` is refused when it is left out, and a
required `__proto__` that is left out can pass. Apart from these names the
validators agree with conformance.
-/

namespace Leitwerk.ProcessSdk.Outcome

open JsString (lit trim)

/-! ## What the server asks of parameters beside their schema -/

def ParsedJson.nonBlank : ParsedJson → Bool
  | .string s => !(JsString.trim s).isEmpty
  | _ => false

/-- A required string parameter is not blank. -/
def NotBlank (fields : List (JsString × ParsedJson)) (p : JsString × ParameterSpec) : Prop :=
  ∀ s, fields.lookup p.1 = some (.string s) → p.2.type = some .string → p.2.isRequired = true → JsString.trim s ≠ []

/-- A string array has as many items that are not blank as it needs items. -/
def EnoughItems (fields : List (JsString × ParsedJson)) (p : JsString × ParameterSpec) : Prop :=
  ∀ items n, fields.lookup p.1 = some (.array items) → p.2.isStringArray = true → p.2.minItems = some n →
    (JsNumber.finite (items.countP ParsedJson.nonBlank)).lt n = false

/-- The compiled schema accepts the object, no required string is blank and string arrays have enough items. -/
def Submittable (parameters : Parameters) (fields : List (JsString × ParsedJson)) : Prop :=
  Conforms (parametersSchema parameters) (.object fields) ∧ ∀ p ∈ parameters, NotBlank fields p ∧ EnoughItems fields p

/-- The object lacks a required `__proto__`, and nothing else is wrong with it. -/
def LacksOnlyProto (parameters : Parameters) (fields : List (JsString × ParsedJson)) : Prop :=
  fields.lookup protoKey = none ∧ protoKey ∈ requiredNames parameters ∧
    ConformsWith Harmless { parametersSchema parameters with required := some ((requiredNames parameters).filter (· ≠ protoKey)) }
      (.object fields) ∧
    ∀ p ∈ parameters, NotBlank fields p ∧ EnoughItems fields p

theorem length_normalizeStringArray (items : List ParsedJson) :
    (normalizeStringArray items).length = items.countP ParsedJson.nonBlank := by
  induction items with
  | nil => rfl
  | cons item items ih =>
    have hcons : (normalizeStringArray (item :: items)).length =
        (normalizeStringArray items).length + if item.nonBlank then 1 else 0 := by
      unfold normalizeStringArray
      cases item with
      | string s => cases ht : JsString.trim s <;> simp [ParsedJson.nonBlank, ht]
      | _ => simp [ParsedJson.nonBlank]
    rw [hcons, ih, List.countP_cons]

section Spec

variable {numberText : JsNumber → JsString} {fields : List (JsString × ParsedJson)}

theorem nonemptyIssues_own {p : JsString × ParameterSpec} {item : ParsedJson} (h : fields.lookup p.1 = some item) :
    nonemptyIssues numberText p.2 p.1 (.json item) [] = [] ↔ EnoughItems fields p := by
  unfold nonemptyIssues EnoughItems
  cases item with
  | array items =>
    cases hn : p.2.minItems with
    | none => simp
    | some n => cases hs : p.2.isStringArray <;> simp [h, length_normalizeStringArray]
  | _ => simp [h]

theorem isBlank_own {p : JsString × ParameterSpec} {item : ParsedJson} (h : fields.lookup p.1 = some item) :
    p.2.isBlank (.json item) = false ↔ NotBlank fields p := by
  unfold ParameterSpec.isBlank NotBlank
  cases item with
  | string s =>
    simp only [h, Bool.and_eq_false_iff, decide_eq_false_iff_not, List.isEmpty_eq_false_iff, Option.some.injEq,
      ParsedJson.string.injEq]
    grind
  | _ => simp [h]

/-- One declared parameter: what is submitted conforms, and what is left out is optional or a bare `__proto__`. -/
theorem parameterIssues_eq_nil {p : JsString × ParameterSpec} (hp : WellFormed (outcomeParameterSchema p.2)) :
    parameterIssues numberText (.json (.object fields)) p.1 p.2 = [] ↔
      PropertyConforms Harmless fields (p.1, outcomeParameterSchema p.2) ∧ NotBlank fields p ∧ EnoughItems fields p ∧
        (fields.lookup p.1 = none → p.2.isRequired = true → p.1 = protoKey) := by
  unfold parameterIssues
  cases hl : fields.lookup p.1 with
  | some item =>
    have henough : nonemptyIssues numberText p.2 p.1 (.json item) [] = [] ↔ EnoughItems fields p := nonemptyIssues_own hl
    have hvalid : validateOutcomeValue numberText (outcomeParameterSchema p.2) (.json item) p.1 = [] ↔
        ConformsWith Harmless (outcomeParameterSchema p.2) item := validate_json hp p.1 item
    have hconforms : PropertyConforms Harmless fields (p.1, outcomeParameterSchema p.2) ↔
        ConformsWith Harmless (outcomeParameterSchema p.2) item := by
      simp [PropertyConforms, hl]
    rw [member_own hl, hconforms, ← hvalid, ← isBlank_own hl, ← henough]
    cases hb : p.2.isBlank (.json item) with
    | true =>
      have hrequired : p.2.isRequired = true := by
        unfold ParameterSpec.isBlank at hb
        split at hb
        · exact (Bool.and_eq_true_iff.1 hb).2
        · cases hb
      simp [hrequired, hb]
    | false =>
      simp only [hb, JsValue.isUndefined, Bool.or_self, Bool.false_eq_true, if_false, List.map_eq_nil_iff, List.append_eq_nil_iff,
        true_and, reduceCtorEq, false_imp_iff, and_true]
      refine and_congr_right fun hnil => ?_
      rw [hnil]
  | none =>
    rw [member_lacking hl]
    have hblank : NotBlank fields p := by
      intro s hs
      simp [hl] at hs
    have henough : EnoughItems fields p := by
      intro items n hi
      simp [hl] at hi
    have hconforms : PropertyConforms Harmless fields (p.1, outcomeParameterSchema p.2) ↔
        Harmless p.1 (outcomeParameterSchema p.2) := by
      simp [PropertyConforms, hl]
    rw [hconforms]
    unfold Harmless Inherited
    by_cases hproto : p.1 = protoKey
    · simp [hproto, hblank, henough, JsValue.isUndefined, ParameterSpec.isBlank, nonemptyIssues, validate_objectPrototype hp]
    · by_cases hmethod : p.1 ∈ prototypeMethods
      · simp [hproto, hmethod, JsValue.isUndefined, ParameterSpec.isBlank, validate_typeless hp (.inl rfl)]
      · simp [hproto, hmethod, hblank, henough, JsValue.isUndefined]

theorem validateOutcomeParameters_eq_nil {parameters : Parameters} (h : ∀ p ∈ parameters, WellFormed (outcomeParameterSchema p.2)) :
    validateOutcomeParameters numberText parameters (.json (.object fields)) = [] ↔
      (∀ key ∈ fields.map Prod.fst, key ∈ parameters.map Prod.fst) ∧
        ∀ p ∈ parameters, PropertyConforms Harmless fields (p.1, outcomeParameterSchema p.2) ∧ NotBlank fields p ∧
          EnoughItems fields p ∧ (fields.lookup p.1 = none → p.2.isRequired = true → p.1 = protoKey) := by
  rw [validateOutcomeParameters, if_pos (show JsValue.isUnknownRecord (.json (.object fields)) = true from rfl), List.append_eq_nil_iff, List.flatten_eq_nil_iff, List.forall_mem_map,
    List.map_eq_nil_iff, List.filter_eq_nil_iff]
  refine and_congr (by simp [JsValue.keys]) (forall₂_congr fun p hp => ?_)
  exact parameterIssues_eq_nil (h p hp)

end Spec

/-! ## The compiled schema -/

section Compiled

variable {missing : JsString → Schema → Prop} {parameters : Parameters} {fields : List (JsString × ParsedJson)}

theorem wellFormed_of_compiled {strict : Bool} {compiled : Schema}
    (h : compileOutcomeParameters parameters strict = .ok compiled) :
    compiled = parametersSchema parameters ∧ ∀ p ∈ parameters, WellFormed (outcomeParameterSchema p.2) := by
  unfold compileOutcomeParameters at h
  cases ha : assertOutcomeSchema strict (parametersSchema parameters) (lit "arguments") with
  | error e =>
    rw [ha] at h
    cases h
  | ok u =>
    rw [ha] at h
    have hschema : WellFormed (parametersSchema parameters) := wellFormed_of_accepted _ ha
    refine ⟨(Except.ok.inj h).symm, fun p hp => ?_⟩
    cases hschema with
    | object _ _ _ each _ => exact each _ (List.mem_map_of_mem hp)

/-- What the compiled schema accepts, when it requires the names of `required`. -/
theorem conforms_parametersSchema {required : List JsString} :
    ConformsWith missing { parametersSchema parameters with required := some required } (.object fields) ↔
      (∀ key ∈ fields.map Prod.fst, key ∈ parameters.map Prod.fst) ∧ (∀ key ∈ required, (fields.lookup key).isSome) ∧
        ∀ p ∈ parameters, PropertyConforms missing fields (p.1, outcomeParameterSchema p.2) := by
  unfold parametersSchema
  rw [conforms_object]
  simp only [ParsedJson.object.injEq, exists_eq_left', Option.getD_some, List.forall_mem_map, List.map_map]
  simp [Function.comp_def]

end Compiled

/-! ## Exactness -/

section Exact

variable {numberText : JsNumber → JsString} {parameters : Parameters} {fields : List (JsString × ParsedJson)}

theorem mem_requiredNames {key : JsString} :
    key ∈ requiredNames parameters ↔ ∃ p ∈ parameters, p.2.isRequired = true ∧ p.1 = key := by
  simp only [requiredNames, List.mem_map, List.mem_filter, and_assoc]

/-- What passes the server's check is submittable, or lacks a required `__proto__` and nothing else. -/
theorem passes_iff (h : ∀ p ∈ parameters, WellFormed (outcomeParameterSchema p.2)) :
    validateOutcomeParameters numberText parameters (.json (.object fields)) = [] ↔
      (ConformsWith Harmless (parametersSchema parameters) (.object fields) ∧ ∀ p ∈ parameters, NotBlank fields p ∧ EnoughItems fields p) ∨
        LacksOnlyProto parameters fields := by
  have hcompiled : ConformsWith Harmless (parametersSchema parameters) (.object fields) ↔ _ := conforms_parametersSchema
  rw [validateOutcomeParameters_eq_nil h, hcompiled, LacksOnlyProto, conforms_parametersSchema]
  constructor
  · rintro ⟨hdeclared, heach⟩
    have hconforms : ∀ p ∈ parameters, PropertyConforms Harmless fields (p.1, outcomeParameterSchema p.2) := fun p hp => (heach p hp).1
    have hserver : ∀ p ∈ parameters, NotBlank fields p ∧ EnoughItems fields p :=
      fun p hp => ⟨(heach p hp).2.1, (heach p hp).2.2.1⟩
    have hrequired : ∀ key ∈ requiredNames parameters, key ≠ protoKey → (fields.lookup key).isSome := by
      intro key hkey hproto
      obtain ⟨p, hp, hr, rfl⟩ := mem_requiredNames.1 hkey
      rw [Option.isSome_iff_ne_none]
      exact fun hl => hproto ((heach p hp).2.2.2 hl hr)
    by_cases hlacks : fields.lookup protoKey = none ∧ protoKey ∈ requiredNames parameters
    · refine .inr ⟨hlacks.1, hlacks.2, ⟨hdeclared, fun key hkey => ?_, hconforms⟩, hserver⟩
      obtain ⟨hkey, hproto⟩ := List.mem_filter.1 hkey
      exact hrequired key hkey (by simpa using hproto)
    · refine .inl ⟨⟨hdeclared, fun key hkey => ?_, hconforms⟩, hserver⟩
      by_cases hproto : key = protoKey
      · subst hproto
        rw [Option.isSome_iff_ne_none]
        exact fun hl => hlacks ⟨hl, hkey⟩
      · exact hrequired key hkey hproto
  · rintro (⟨⟨hdeclared, hrequired, hconforms⟩, hserver⟩ | ⟨hlacks, hnamed, ⟨hdeclared, hrequired, hconforms⟩, hserver⟩)
    · refine ⟨hdeclared, fun p hp => ⟨hconforms p hp, (hserver p hp).1, (hserver p hp).2, fun hl hr => ?_⟩⟩
      have hown := hrequired p.1 (mem_requiredNames.2 ⟨p, hp, hr, rfl⟩)
      rw [hl] at hown
      cases hown
    · refine ⟨hdeclared, fun p hp => ⟨hconforms p hp, (hserver p hp).1, (hserver p hp).2, fun hl hr => ?_⟩⟩
      by_contra hproto
      have hown := hrequired p.1 (List.mem_filter.2 ⟨mem_requiredNames.2 ⟨p, hp, hr, rfl⟩, by simpa using hproto⟩)
      rw [hl] at hown
      cases hown

/-- An object that lacks a required property is not submittable. -/
theorem not_submittable_of_lacks {key : JsString} (hl : fields.lookup key = none) (hk : key ∈ requiredNames parameters) :
    ¬ Submittable parameters fields := by
  rintro ⟨hconforms, -⟩
  have hown := (conforms_parametersSchema.1 hconforms).2.1 key hk
  rw [hl] at hown
  cases hown

/-- Validation agrees with conformance exactly where no declared property that an object lacks is read from
`Object.prototype`, with either effect. -/
theorem outcome_validation_exact_iff (numberText : JsNumber → JsString) :
    (∀ (strict : Bool) (schema : Schema) (declaredAt : JsString), assertOutcomeSchema strict schema declaredAt = .ok () →
      ∀ (value : ParsedJson) (path : JsString),
        ((validateOutcomeValue numberText schema (.json value) path = [] ↔ Conforms schema value) ↔
          (Conforms schema value → ConformsWith Harmless schema value))) ∧
    (∀ (strict : Bool) (parameters : Parameters) (compiled : Schema), compileOutcomeParameters parameters strict = .ok compiled →
      ∀ fields : List (JsString × ParsedJson),
        ((validateOutcomeParameters numberText parameters (.json (.object fields)) = [] ↔
            Conforms compiled (.object fields) ∧ ∀ p ∈ parameters, NotBlank fields p ∧ EnoughItems fields p) ↔
          (Submittable parameters fields → ConformsWith Harmless compiled (.object fields)) ∧ ¬ LacksOnlyProto parameters fields)) := by
  constructor
  · intro strict schema declaredAt haccepted value path
    rw [validate_json (wellFormed_of_accepted schema haccepted)]
    have hweaker : ConformsWith Harmless schema value → Conforms schema value := ConformsWith.mono fun _ _ _ => trivial
    exact ⟨fun h => h.2, fun h => ⟨hweaker, h⟩⟩
  · intro strict parameters compiled hok fields
    obtain ⟨rfl, hwell⟩ := wellFormed_of_compiled hok
    rw [passes_iff hwell]
    have hweaker : ConformsWith Harmless (parametersSchema parameters) (.object fields) →
        Conforms (parametersSchema parameters) (.object fields) := ConformsWith.mono fun _ _ _ => trivial
    have hlacks : LacksOnlyProto parameters fields → ¬ Submittable parameters fields :=
      fun h => not_submittable_of_lacks h.1 h.2.1
    unfold Submittable at hlacks ⊢
    constructor
    · intro h
      refine ⟨fun hs => ?_, fun hl => hlacks hl (h.1 (.inr hl))⟩
      rcases h.2 hs with ⟨hconforms, -⟩ | hl
      · exact hconforms
      · exact absurd hs (hlacks hl)
    · rintro ⟨hharmless, hproto⟩
      constructor
      · rintro (⟨hconforms, hserver⟩ | hl)
        · exact ⟨hweaker hconforms, hserver⟩
        · exact absurd hl hproto
      · intro hs
        exact .inl ⟨hharmless hs, hs.2⟩

/-- `Number.prototype.toString` of a natural number. -/
def naturalText : JsNumber → JsString
  | .finite q => JsString.digits 10 q.num.toNat
  | _ => lit "NaN"

/-- An object that may have a string under `constructor`. -/
def optionalConstructor : Schema where
  type := some .object
  properties := some [(lit "constructor", { type := some .string })]

def namedParameters : Parameters :=
  [(lit "name", { type := some .string, required := some true }), (lit "valueOf", { type := some .number })]

theorem outcome_validation_exact_iff_demo :
    ((validateOutcomeValue naturalText optionalConstructor (.json (.object [(lit "constructor", .string (lit "x"))]))
          (lit "arguments") = [] ↔
        Conforms optionalConstructor (.object [(lit "constructor", .string (lit "x"))])) ↔
      (Conforms optionalConstructor (.object [(lit "constructor", .string (lit "x"))]) →
        ConformsWith Harmless optionalConstructor (.object [(lit "constructor", .string (lit "x"))]))) ∧
    ((validateOutcomeParameters naturalText namedParameters (.json (.object [(lit "name", .string (lit " "))])) = [] ↔
        Conforms (parametersSchema namedParameters) (.object [(lit "name", .string (lit " "))]) ∧
          ∀ p ∈ namedParameters, NotBlank [(lit "name", .string (lit " "))] p ∧ EnoughItems [(lit "name", .string (lit " "))] p) ↔
      (Submittable namedParameters [(lit "name", .string (lit " "))] →
        ConformsWith Harmless (parametersSchema namedParameters) (.object [(lit "name", .string (lit " "))])) ∧
        ¬ LacksOnlyProto namedParameters [(lit "name", .string (lit " "))]) :=
  ⟨(outcome_validation_exact_iff naturalText).1 false optionalConstructor (lit "arguments") (by decide) _ _,
    (outcome_validation_exact_iff naturalText).2 false namedParameters (parametersSchema namedParameters) rfl _⟩

/-- The empty object conforms, and is refused for `Object.prototype.constructor`. -/
theorem inherited_name_refused :
    ¬ ∀ (strict : Bool) (schema : Schema) (declaredAt : JsString), assertOutcomeSchema strict schema declaredAt = .ok () →
      ∀ (value : ParsedJson) (path : JsString),
        (validateOutcomeValue naturalText schema (.json value) path = [] ↔ Conforms schema value) := by
  intro hexact
  have hconforms : Conforms optionalConstructor (.object []) :=
    conforms_object.2 ⟨[], rfl, by simp, by simp, fun p _ => ⟨by simp, fun _ => trivial⟩⟩
  have hissues : validateOutcomeValue naturalText optionalConstructor (.json (.object [])) (lit "arguments") ≠ [] := by decide
  exact hissues ((hexact false optionalConstructor (lit "arguments") (by decide) _ _).2 hconforms)

end Exact

end Leitwerk.ProcessSdk.Outcome
