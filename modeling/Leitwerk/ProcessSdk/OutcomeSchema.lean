import Leitwerk.Lib.JsString
/-!
# Schemas of outcome parameters

`outcome-schema.ts`: a declaration is checked before a tool is exposed to the
model (`assertOutcomeSchema`), and what the model submits is checked against it
(`validateOutcomeValue`, `validateOutcomeParameters`). Descriptions are left
out: nothing here reads them. `numberText` is how a number prints in a message.
-/

namespace Leitwerk.ProcessSdk.Outcome

open JsString (lit trim)

/-! ## Values -/

inductive JsNumber
  | finite (q : Rat)
  | positiveInfinity
  | negativeInfinity
  | nan
  deriving DecidableEq

namespace JsNumber

/-- `a < b`, which is false when either is NaN. -/
def lt : JsNumber → JsNumber → Bool
  | .finite a, .finite b => decide (a < b)
  | .finite _, .positiveInfinity | .negativeInfinity, .finite _ | .negativeInfinity, .positiveInfinity => true
  | _, _ => false

/-- `Number.isFinite`. -/
def isFinite : JsNumber → Bool
  | .finite _ => true
  | _ => false

/-- `Number.isInteger`. -/
def isInteger : JsNumber → Bool
  | .finite q => q.den == 1
  | _ => false

/-- `Math.max`. -/
def max (a b : JsNumber) : JsNumber :=
  if a = .nan ∨ b = .nan then .nan else if a.lt b then b else a

end JsNumber

/-- What `JSON.parse` returns. -/
inductive ParsedJson
  | null
  | bool (b : Bool)
  | number (q : Rat)
  | string (s : JsString)
  | array (items : List ParsedJson)
  /-- The own properties, in the order of `Object.keys`. -/
  | object (fields : List (JsString × ParsedJson))

/-- What the validator can hold: JSON, or what reading a property of an object gives beside it. -/
inductive JsValue
  | json (value : ParsedJson)
  | undefined
  | nonFinite (n : JsNumber)
  | function
  | objectPrototype

def protoKey : JsString := lit "__proto__"

/-- The methods of `Object.prototype`. -/
def prototypeMethods : List JsString :=
  [lit "constructor", lit "hasOwnProperty", lit "isPrototypeOf", lit "propertyIsEnumerable", lit "toLocaleString",
    lit "toString", lit "valueOf", lit "__defineGetter__", lit "__defineSetter__", lit "__lookupGetter__",
    lit "__lookupSetter__"]

/-- A name that every object answers to. -/
def Inherited (key : JsString) : Prop := key = protoKey ∨ key ∈ prototypeMethods

instance : DecidablePred Inherited := fun key => inferInstanceAs (Decidable (key = protoKey ∨ key ∈ prototypeMethods))

namespace JsValue

/-- `isUnknownRecord`: an object that is neither `null` nor an array. -/
def isUnknownRecord : JsValue → Bool
  | .json (.object _) | .objectPrototype => true
  | _ => false

/-- `Object.keys(value)`; the members of `Object.prototype` are not enumerable. -/
def keys : JsValue → List JsString
  | .json (.object fields) => fields.map Prod.fst
  | _ => []

/-- `Object.hasOwn(value, key)`. -/
def hasOwn (value : JsValue) (key : JsString) : Bool :=
  match value with
  | .json (.object fields) => (fields.lookup key).isSome
  | .objectPrototype => decide (Inherited key)
  | _ => false

/-- `value[key]` of a record, with its prototype chain: `__proto__` is the prototype of the object, which
`Object.prototype` does not have. -/
def member (value : JsValue) (key : JsString) : JsValue :=
  match value with
  | .json (.object fields) =>
    match fields.lookup key with
    | some field => .json field
    | none =>
      if key = protoKey then .objectPrototype
      else if key ∈ prototypeMethods then .function else .undefined
  | .objectPrototype =>
    if key = protoKey then .json .null
    else if key ∈ prototypeMethods then .function else .undefined
  | _ => .undefined

/-- `Array.isArray`. -/
def isArray : JsValue → Bool
  | .json (.array _) => true
  | _ => false

def elements : JsValue → List ParsedJson
  | .json (.array items) => items
  | _ => []

def isUndefined : JsValue → Bool
  | .undefined => true
  | _ => false

end JsValue

/-! ## Schemas -/

/-- `OutcomeToolParameterType`. -/
inductive ParameterType
  | string
  | number
  | boolean
  | object
  | array
  deriving DecidableEq

def ParameterType.text : ParameterType → JsString
  | .string => lit "string"
  | .number => lit "number"
  | .boolean => lit "boolean"
  | .object => lit "object"
  | .array => lit "array"

/-- `OutcomeToolArrayItemSpec`; `properties` as `Object.entries` lists them. -/
structure Schema where
  type : Option ParameterType := none
  anyOf : Option (List Schema) := none
  minItems : Option JsNumber := none
  items : Option Schema := none
  properties : Option (List (JsString × Schema)) := none
  required : Option (List JsString) := none
  additionalProperties : Option Bool := none
  enum : Option (List JsString) := none
  minLength : Option JsNumber := none
  minimum : Option JsNumber := none

/-- `schema.properties`, or none. -/
def Schema.propertiesOrEmpty (schema : Schema) : List (JsString × Schema) := schema.properties.getD []

/-- `schema.required`, or none. -/
def Schema.requiredOrEmpty (schema : Schema) : List JsString := schema.required.getD []

/-- What `assertOutcomeSchema` throws. -/
abbrev Assertion := Except JsString Unit

def fail (path message : JsString) : Assertion := .error (path ++ lit ": " ++ message)

/-- `check` fails with the message when `bad` holds, as `if (bad) fail(message)` does. -/
def refuse (bad : Bool) (path message : JsString) : Assertion := if bad then fail path message else .ok ()

/-- One round of the loop over `minLength`, `minimum` and `minItems`. -/
def assertNumberKeyword (schema : Schema) (path key : JsString) (type : ParameterType) (value : Option JsNumber) : Assertion :=
  match value with
  | none => .ok ()
  | some n =>
    refuse (decide (schema.type ≠ some type) || !n.isFinite ||
        (decide (type ≠ .number) && (!n.isInteger || n.lt (.finite 0))))
      path (lit "invalid " ++ key ++ lit " for " ++ (schema.type.elim (lit "undefined") ParameterType.text))

def index (i : Nat) : JsString := lit "[" ++ JsString.digits 10 i ++ lit "]"

/-- `${path}.${key}`. -/
def dot (path key : JsString) : JsString := path ++ lit "." ++ key

/-- The checks of an `anyOf` schema before its variants. -/
def assertAnyOf (schema : Schema) (variants : List Schema) (path : JsString) : Assertion := do
  refuse (schema.type.isSome || variants.isEmpty) path (lit "anyOf needs at least one variant and cannot also declare type")
  refuse (schema.properties.isSome || schema.items.isSome || schema.required.isSome || schema.enum.isSome ||
      schema.minimum.isSome || schema.minLength.isSome || schema.minItems.isSome || schema.additionalProperties.isSome)
    path (lit "put value constraints inside the anyOf variants")

/-- The checks of any other schema before its type is looked at. -/
def assertKeywords (schema : Schema) (path : JsString) : Assertion := do
  refuse schema.type.isNone path (lit "unsupported or missing type")
  assertNumberKeyword schema path (lit "minLength") .string schema.minLength
  assertNumberKeyword schema path (lit "minimum") .number schema.minimum
  assertNumberKeyword schema path (lit "minItems") .array schema.minItems
  match schema.enum with
  | none => .ok ()
  | some values => refuse (decide (schema.type ≠ some .string) || values.isEmpty) path (lit "enum must contain strings on a string schema")

/-- The checks of an object schema before its properties. -/
def assertObject (strict : Bool) (schema : Schema) (path : JsString) : Assertion := do
  let declared := schema.propertiesOrEmpty.map Prod.fst
  refuse (schema.requiredOrEmpty.any fun key => !declared.contains key) path (lit "required must name declared properties")
  refuse (strict && (decide (schema.additionalProperties ≠ some false) ||
      declared.any fun key => !schema.requiredOrEmpty.contains key))
    path (lit "strict schemas require every property and additionalProperties: false")

/-- The keywords of objects on another schema. -/
def assertNotObject (schema : Schema) (path : JsString) : Assertion :=
  refuse (schema.properties.isSome || schema.required.isSome || schema.additionalProperties.isSome)
    path (lit "object keywords require an object")

mutual

/-- Reject malformed declarations before a tool is exposed to the model. -/
def assertOutcomeSchema (strict : Bool) : Schema → JsString → Assertion
  | ⟨type, some variants, minItems, items, properties, required, additionalProperties, enum, minLength, minimum⟩, path => do
    assertAnyOf ⟨type, some variants, minItems, items, properties, required, additionalProperties, enum, minLength, minimum⟩
      variants path
    assertVariants strict variants 0 path
  | ⟨type, none, minItems, items, properties, required, additionalProperties, enum, minLength, minimum⟩, path => do
    let schema : Schema :=
      ⟨type, none, minItems, items, properties, required, additionalProperties, enum, minLength, minimum⟩
    assertKeywords schema path
    assertItems strict type items path
    if type = some .object then do
      assertObject strict schema path
      assertDeclared strict properties path
    else assertNotObject schema path

def assertItems (strict : Bool) (type : Option ParameterType) : Option Schema → JsString → Assertion
  | some items, path =>
    if type = some .array then assertOutcomeSchema strict items (path ++ lit "[]") else fail path (lit "items requires an array")
  | none, path => refuse (decide (type = some .array)) path (lit "array must declare items")

def assertDeclared (strict : Bool) : Option (List (JsString × Schema)) → JsString → Assertion
  | some properties, path => assertProperties strict properties path
  | none, _ => .ok ()

def assertVariants (strict : Bool) : List Schema → Nat → JsString → Assertion
  | [], _, _ => .ok ()
  | variant :: variants, i, path => do
    assertOutcomeSchema strict variant (path ++ lit ".anyOf" ++ index i)
    assertVariants strict variants (i + 1) path

def assertProperties (strict : Bool) : List (JsString × Schema) → JsString → Assertion
  | [], _ => .ok ()
  | (key, spec) :: properties, path => do
    assertOutcomeSchema strict spec (dot path key)
    assertProperties strict properties path

end

/-! ## Checking a value -/

structure OutcomeSchemaIssue where
  path : JsString
  code : JsString
  message : JsString
  deriving DecidableEq

/-- An issue whose message starts with its path. -/
def issueAt (path code message : JsString) : OutcomeSchemaIssue := ⟨path, code, path ++ lit ": " ++ message⟩

/-- `texts.join(separator)`. -/
def join (separator : JsString) (texts : List JsString) : JsString := (texts.intersperse separator).flatten

/-- The tag of a variant under `key`: the only value its required string property can have. A name the
variant does not declare reads a member of `Object.prototype`, which has no `type`. -/
def tag (key : JsString) (variant : Schema) : Option JsString :=
  if variant.requiredOrEmpty.contains key then
    match variant.propertiesOrEmpty.lookup key with
    | some spec =>
      match spec.type, spec.enum with
      | some .string, some [value] => some value
      | _, _ => none
    | none => none
  else none

/-- `tags.indexOf(value)`. -/
def indexOf (tags : List JsString) : JsValue → Option Nat
  | .json (.string s) => tags.idxOf? s
  | _ => none

/-- The issues of the branch a discriminator selects, or that it selects none; `none` when no property of the
first variant discriminates. -/
def discriminated (variants : List Schema) (branches : List (List OutcomeSchemaIssue)) (value : JsValue) (path : JsString) :
    List JsString → Option (List OutcomeSchemaIssue)
  | [] => none
  | key :: keys =>
    match variants.mapM (tag key) with
    | some tags =>
      if tags.Nodup then
        match indexOf tags (value.member key) with
        | some selected => branches[selected]?
        | none => some [issueAt (dot path key) (lit "enum") (lit "choose " ++ join (lit ", ") tags)]
      else discriminated variants branches value path keys
    | none => discriminated variants branches value path keys

/-- The end of the `anyOf` case, once the branches are known. -/
def unionIssues (variants : List Schema) (branches : List (List OutcomeSchemaIssue)) (value : JsValue) (path : JsString) :
    List OutcomeSchemaIssue :=
  let mismatch := [issueAt path (lit "anyOf") (lit "must match an alternative (" ++
    join (lit " | ") (branches.map fun errors => join (lit "; ") (errors.map (·.message))) ++ lit ")")]
  if branches.any (·.isEmpty) then []
  else if value.isUnknownRecord && variants.all fun variant => decide (variant.type = some .object) then
    let declared := (variants.head?.map Schema.propertiesOrEmpty).getD []
    (discriminated variants branches value path (declared.map Prod.fst)).getD mismatch
  else mismatch

/-- The issues of an object apart from its declared properties. -/
def objectIssues (schema : Schema) (value : JsValue) (path : JsString) : List OutcomeSchemaIssue :=
  let declared := schema.propertiesOrEmpty.map Prod.fst
  ((value.keys.filter fun key => decide (schema.additionalProperties = some false) && !declared.contains key).map fun key =>
    issueAt (dot path key) (lit "unknown_parameter") (lit "unsupported field; allowed fields: " ++ join (lit ", ") declared)) ++
  ((schema.requiredOrEmpty.filter fun key => !value.hasOwn key || (value.member key).isUndefined).map fun key =>
    issueAt (dot path key) (lit "required") (lit "required"))

section Validate

variable (numberText : JsNumber → JsString)

/-- The issue of an array that is too short. -/
def lengthIssues (schema : Schema) (items : List ParsedJson) (path : JsString) : List OutcomeSchemaIssue :=
  let minItems := schema.minItems.getD (.finite 0)
  if (JsNumber.finite items.length).lt minItems then
    [issueAt path (lit "minItems") (lit "requires at least " ++ numberText minItems ++ lit " item(s)")]
  else []

/-- The issue of a string of a string schema. -/
def stringIssues (schema : Schema) (s path : JsString) : List OutcomeSchemaIssue :=
  let minLength := schema.minLength.getD (.finite 0)
  if schema.enum.any fun values => !values.contains s then
    [issueAt path (lit "enum") (lit "choose " ++ join (lit ", ") (schema.enum.getD []))]
  else if (JsNumber.finite s.length).lt minLength then
    [issueAt path (lit "minLength") (lit "requires at least " ++ numberText minLength ++ lit " characters")]
  else []

/-- The issue of a finite number of a number schema. -/
def numberIssues (schema : Schema) (q : Rat) (path : JsString) : List OutcomeSchemaIssue :=
  match schema.minimum with
  | some minimum =>
    if (JsNumber.finite q).lt minimum then [issueAt path (lit "minimum") (lit "must be >= " ++ numberText minimum)] else []
  | none => []

/-- The end of `validateOutcomeValue`: a value that is neither an object's nor an array's. -/
def scalarIssues (schema : Schema) (value : JsValue) (path : JsString) : List OutcomeSchemaIssue :=
  match schema.type, value with
  | some .string, .json (.string s) => stringIssues numberText schema s path
  | some .number, .json (.number q) => numberIssues numberText schema q path
  | some .boolean, .json (.bool _) => []
  | type, _ =>
    [issueAt path (lit "type") (lit "expected " ++
      (if type = some .number then lit "a finite number" else type.elim (lit "undefined") ParameterType.text))]

mutual

/-- Validate native schema values, retaining errors from an identifiable union branch. -/
def validateOutcomeValue : Schema → JsValue → JsString → List OutcomeSchemaIssue
  | ⟨_, some variants, _, _, _, _, _, _, _, _⟩, value, path =>
    unionIssues variants (validateVariants variants value path) value path
  | ⟨type, none, minItems, items, properties, required, additionalProperties, enum, minLength, minimum⟩, value, path =>
    let schema : Schema :=
      ⟨type, none, minItems, items, properties, required, additionalProperties, enum, minLength, minimum⟩
    if type = some .object then
      if value.isUnknownRecord then objectIssues schema value path ++ validateDeclared properties value path
      else [issueAt path (lit "type") (lit "expected an object")]
    else if type = some .array then
      if value.isArray then lengthIssues numberText schema value.elements path ++ validateItems items value.elements path
      else [issueAt path (lit "type") (lit "expected an array")]
    else scalarIssues numberText schema value path

def validateItems : Option Schema → List ParsedJson → JsString → List OutcomeSchemaIssue
  | some items, values, path =>
    (values.zipIdx.map fun x => validateOutcomeValue items (.json x.1) (path ++ index x.2)).flatten
  | none, _, _ => []

def validateDeclared : Option (List (JsString × Schema)) → JsValue → JsString → List OutcomeSchemaIssue
  | some properties, value, path => validateProperties properties value path
  | none, _, _ => []

def validateVariants : List Schema → JsValue → JsString → List (List OutcomeSchemaIssue)
  | [], _, _ => []
  | variant :: variants, value, path => validateOutcomeValue variant value path :: validateVariants variants value path

def validateProperties : List (JsString × Schema) → JsValue → JsString → List OutcomeSchemaIssue
  | [], _, _ => []
  | (key, spec) :: properties, value, path =>
    (if (value.member key).isUndefined then [] else validateOutcomeValue spec (value.member key) (dot path key)) ++
      validateProperties properties value path

end

end Validate

/-! ## Parameters of an outcome tool -/

/-- `OutcomeToolParameterSpec`. -/
structure ParameterSpec where
  type : Option ParameterType := none
  anyOf : Option (List Schema) := none
  minLength : Option JsNumber := none
  required : Option Bool := none
  requiredErrorCode : Option JsString := none
  invalidErrorCode : Option JsString := none
  minItems : Option JsNumber := none
  minItemsErrorCode : Option JsString := none
  minimum : Option JsNumber := none
  minimumErrorCode : Option JsString := none
  items : Option Schema := none
  enum : Option (List JsString) := none
  properties : Option (List (JsString × Schema)) := none
  requiredProperties : Option (List JsString) := none
  additionalProperties : Option Bool := none

/-- A parameter map, as `Object.entries` lists it. -/
abbrev Parameters := List (JsString × ParameterSpec)

def ParameterSpec.isRequired (spec : ParameterSpec) : Bool := spec.required.getD false

/-- Convert the parameter DSL to a native JSON Schema value declaration. -/
def outcomeParameterSchema (spec : ParameterSpec) : Schema where
  type := spec.type
  anyOf := spec.anyOf
  minItems := spec.minItems
  items := if spec.type = some .array then some (spec.items.getD { type := some .string }) else spec.items
  properties := spec.properties
  required := spec.requiredProperties
  additionalProperties := spec.additionalProperties
  enum := spec.enum
  minLength :=
    if spec.type = some .string ∧ spec.isRequired = true then
      some (JsNumber.max (.finite 1) (spec.minLength.getD (.finite 0)))
    else spec.minLength
  minimum := spec.minimum

/-- The names of the required parameters. -/
def requiredNames (parameters : Parameters) : List JsString :=
  (parameters.filter fun p => p.2.isRequired).map Prod.fst

/-- The schema `compileOutcomeParameters` builds. -/
def parametersSchema (parameters : Parameters) : Schema where
  type := some .object
  properties := some (parameters.map fun p => (p.1, outcomeParameterSchema p.2))
  required := some (requiredNames parameters)
  additionalProperties := some false

/-- Compile and check a model-facing object schema. -/
def compileOutcomeParameters (parameters : Parameters) (strict : Bool) : Except JsString Schema := do
  assertOutcomeSchema strict (parametersSchema parameters) (lit "arguments")
  return parametersSchema parameters

def isLower (u : UInt16) : Bool := decide (97 ≤ u.toNat ∧ u.toNat ≤ 122)

def isUpper (u : UInt16) : Bool := decide (65 ≤ u.toNat ∧ u.toNat ≤ 90)

def isDigit (u : UInt16) : Bool := decide (48 ≤ u.toNat ∧ u.toNat ≤ 57)

/-- `_`. -/
def underscore : UInt16 := 95

/-- The first replacement of `snakeCase`: an underscore before each capital after a small letter or a digit. -/
def splitCamel : JsString → JsString
  | a :: b :: rest =>
    if (isLower a || isDigit a) && isUpper b then a :: underscore :: splitCamel (b :: rest) else a :: splitCamel (b :: rest)
  | s => s

/-- The second replacement: each run of other units is one underscore. -/
def squeeze : JsString → JsString
  | [] => []
  | a :: rest =>
    if isLower a || isUpper a || isDigit a then a :: squeeze rest
    else
      match squeeze rest with
      | [] => [underscore]
      | b :: tail => if b = underscore then b :: tail else underscore :: b :: tail

def snakeCase (value : JsString) : JsString :=
  let trimmed := ((squeeze (splitCamel value)).dropWhile (· == underscore)).rdropWhile (· == underscore)
  trimmed.map fun u => if isUpper u then u + 32 else u

/-- `normalizeStringArray`. -/
def normalizeStringArray (items : List ParsedJson) : List JsString :=
  (items.map fun item => match item with | .string s => JsString.trim s | _ => []).filter fun s => decide (0 < s.length)

/-- `items` is left out, or its type is a string. -/
def ParameterSpec.isStringArray (spec : ParameterSpec) : Bool :=
  decide (spec.type = some .array) && spec.items.all fun items => decide (items.type = some .string)

/-- A required string parameter is blank. -/
def ParameterSpec.isBlank (spec : ParameterSpec) : JsValue → Bool
  | .json (.string s) => decide (spec.type = some .string) && (JsString.trim s).isEmpty && spec.isRequired
  | _ => false

section Parameters

variable (numberText : JsNumber → JsString)

/-- The issue of a string array with too many blank items, unless its length is an issue already. -/
def nonemptyIssues (spec : ParameterSpec) (key : JsString) (item : JsValue) (errors : List OutcomeSchemaIssue) :
    List OutcomeSchemaIssue :=
  match item, spec.minItems with
  | .json (.array items), some minItems =>
    if spec.isStringArray && (JsNumber.finite (normalizeStringArray items).length).lt minItems &&
        !(errors.any fun issue => decide (issue.code = lit "minItems")) then
      [issueAt key (lit "minItems") (lit "requires at least " ++ numberText minItems ++ lit " nonempty item(s)")]
    else []
  | _, _ => []

/-- The code under which the server reports an issue of a parameter. -/
def serverCode (spec : ParameterSpec) (key : JsString) (issue : OutcomeSchemaIssue) : JsString :=
  let invalid := spec.invalidErrorCode.getD (lit "invalid_" ++ snakeCase key)
  if issue.path = key ∧ issue.code = lit "minItems" then
    spec.minItemsErrorCode.getD (spec.requiredErrorCode.getD (snakeCase key ++ lit "_required"))
  else if issue.path = key ∧ issue.code = lit "minimum" then spec.minimumErrorCode.getD invalid
  else invalid

/-- One round of the loop over the declared parameters. -/
def parameterIssues (value : JsValue) (key : JsString) (spec : ParameterSpec) : List OutcomeSchemaIssue :=
  let item := value.member key
  if item.isUndefined || spec.isBlank item then
    if spec.isRequired then
      [issueAt key (spec.requiredErrorCode.getD (snakeCase key ++ lit "_required")) (lit "required and must be non-empty")]
    else []
  else
    let errors := validateOutcomeValue numberText (outcomeParameterSchema spec) item key
    (errors ++ nonemptyIssues numberText spec key item errors).map fun issue => { issue with code := serverCode spec key issue }

/-- Validate the parameter DSL with its established server error codes. -/
def validateOutcomeParameters (parameters : Parameters) (value : JsValue) : List OutcomeSchemaIssue :=
  if value.isUnknownRecord then
    ((value.keys.filter fun key => !(parameters.map Prod.fst).contains key).map fun key =>
      issueAt key (lit "unknown_parameter") (lit "unknown parameter")) ++
    (parameters.map fun p => parameterIssues numberText value p.1 p.2).flatten
  else [⟨lit "arguments", lit "invalid_params", lit "params must be an object"⟩]

end Parameters

end Leitwerk.ProcessSdk.Outcome
