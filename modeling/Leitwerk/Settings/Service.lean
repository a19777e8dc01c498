import Leitwerk.Settings.Repo
import Mathlib.Algebra.Group.Int.Defs
/-!
# The settings service

`write` and `discover` of `scoped-settings-service.ts`. What is configured and
what the platform provides (definitions, scopes, the normal form of a locator,
the order of ids) is an `Env`.
-/

namespace Leitwerk.Settings

open JsString (lit)

structure Definition (V : Type) where
  scopes : List JsString
  schemaVersion : Nat
  parse : V → Except Failure V

structure Env (V : Type) where
  scopes : List JsString
  definitions : JsString → Option (Definition V)
  /-- `null`, the value of a reset. -/
  null : V
  /-- `normalizeSettingsLocator`. -/
  normalizeLocator : JsString → Except Failure JsString
  localeCompare : JsString → JsString → Int

structure SubjectInput where
  scopeType : JsString
  identity : JsString
  label : JsString
  context : Option (List (JsString × JsString))
  aliases : Option (List JsString)

structure Change (V : Type) where
  subjectId : Id
  key : JsString
  value : V
  mode : Option Mode
  reset : Bool
  actor : JsString
  expectedRevision : Int

def maxSafeInteger : Int := 2 ^ 53 - 1

section Service

variable {V : Type}

def requireSubject (id : Id) : Tx V Subject := do
  match ← reads (getSubject · id) with
  | some subject => return subject
  | none => throw (.settings (lit "Settings scope was not found") 404)

def lift {α : Type} (x : Except Failure α) : Tx V α := reads fun _ => x

variable (env : Env V)

def requireDefinition (key : JsString) : Except Failure (Definition V) :=
  match env.definitions key with
  | some definition => .ok definition
  | none => .error (.settings (lit "Setting '" ++ key ++ lit "' is inactive. Install its owning extension to edit it.") 409)

/-! ## Writing a setting -/

/-- The value a change stores. -/
def storedValue (definition : Definition V) (change : Change V) : Except Failure V :=
  if change.reset then .ok env.null else definition.parse change.value

/-- `validateWrite`, with what the change becomes. -/
def validateWrite (change : Change V) : Tx V (SettingsWrite V) := do
  let subject ← requireSubject change.subjectId
  let definition ← lift (requireDefinition env change.key)
  throwIf (subject.scopeType ∉ definition.scopes)
    (.settings (lit "'" ++ change.key ++ lit "' does not apply to " ++ subject.scopeType) 422)
  throwIf (change.mode.getD .replace ≠ .replace) (.settings (lit "Settings overrides must replace inherited values") 422)
  let value ← lift (storedValue env definition change)
  return {
    subjectId := subject.id
    key := change.key
    value
    mode := change.mode.getD .replace
    reset := change.reset
    schemaVersion := definition.schemaVersion
    actor := change.actor
    expectedRevision := change.expectedRevision.toNat }

/-- `write` of the service: a set or a reset. -/
def writeSetting (now : Int) (change : Change V) : Tx V (Override V) := do
  throwIf (change.expectedRevision < 0 ∨ maxSafeInteger < change.expectedRevision)
    (.settings (lit "expectedRevision must be a non-negative integer") 400)
  let input ← validateWrite env change
  match ← write now input with
  | some updated => return updated
  | none =>
    throw (.settings (lit "This setting changed since you opened it. Your draft is preserved. Reload the current revision before saving again.") 409)

/-! ## Discovering a subject -/

/-- `candidates.set(subject.id, subject)`. -/
def addCandidate (candidates : List Subject) (subject : Subject) : List Subject :=
  if candidates.any fun c => c.id = subject.id then candidates.map fun c => if c.id = subject.id then subject else c
  else candidates ++ [subject]

/-- One round of the loop over the aliases. -/
def gather (input : SubjectInput) (candidates : List Subject) (locator : JsString) : Tx V (List Subject) := do
  match ← reads (findAlias · locator) with
  | none => return candidates
  | some known => do
    throwIf (known.identity ≠ input.identity ∧ isLocator known.identity = false)
      (.settings (lit "Repository alias '" ++ locator ++ lit "' belongs to another provider identity") 409)
    return addCandidate candidates known

/-- The candidate whose id comes first. -/
def firstById (candidates : List Subject) : Option Subject :=
  (candidates.mergeSort fun a b => decide (env.localeCompare a.id b.id ≤ 0)).head?

/-- The active override of each key so far, latest first, with its subject. -/
abbrev Saved (V : Type) := List (JsString × Id × Override V)

section Agreement

variable [DecidableEq V]

/-- An override against the one that was saved for its key. -/
def checkSaved (subjectId : Id) (row : JsString × Override V) : Option (Id × Override V) → Tx V Unit
  | none => pure ()
  | some (savedId, other) =>
    throwIf (other.mode ≠ row.2.mode ∨ other.schemaVersion ≠ row.2.schemaVersion ∨ other.value ≠ row.2.value)
      (.settings (lit "Repository aliases have conflicting overrides for '" ++ row.1 ++ lit "'. Compare /settings?scope=" ++ savedId ++
        lit " and /settings?scope=" ++ subjectId ++
        lit "; make the values and modes agree or use inherited value on one scope, then refresh repositories.") 409)

/-- One round of the loop over the overrides of a candidate. -/
def checkRow (subjectId : Id) (saved : Saved V) (row : JsString × Override V) : Tx V (Saved V) :=
  if row.2.reset then pure saved
  else do
    checkSaved subjectId row (saved.lookup row.1)
    return (row.1, subjectId, row.2) :: saved

def checkCandidate (saved : Saved V) (candidate : Subject) : Tx V (Saved V) := do
  let rows ← reads (listOverrides · candidate.id)
  rows.foldlM (checkRow candidate.id) saved

def mergeCandidate (now : Int) (targetId : Id) (candidate : Subject) : Tx V Unit :=
  if candidate.id ≠ targetId then mergeLocatorSubject now candidate.id targetId else pure ()

def mergeInto (now : Int) (targetId : Id) : List Subject → Tx V Unit
  | [] => pure ()
  | candidate :: rest => do
    mergeCandidate now targetId candidate
    mergeInto now targetId rest

/-- Several candidates become one subject, when a provider says so and their overrides agree. -/
def coalesce (now : Int) (input : SubjectInput) (previous : Option Subject) (candidates : List Subject) : Tx V Unit :=
  if candidates.length ≤ 1 then pure ()
  else do
    throwIf (isLocator input.identity = true) (.settings (lit "Repository aliases require a verified provider identity") 409)
    let _ ← candidates.foldlM checkCandidate []
    match previous with
    | none => pure ()
    | some previous => mergeInto now previous.id candidates

end Agreement

def checkContext (scopeType : JsString) : List (JsString × JsString) → Tx V Unit
  | [] => pure ()
  | (type, id) :: rest => do
    let subject ← requireSubject id
    throwIf (subject.scopeType ≠ type ∨ type = scopeType) (.settings (lit "Invalid scope ancestry") 422)
    checkContext scopeType rest

/-- The subject as it is, or as the input changes it. -/
def settle (now : Int) (newId : Id) (input : SubjectInput) (previous : Option Subject) (context : List (JsString × JsString)) :
    Tx V Subject :=
  match previous with
  | none => putSubject now newId ⟨none, input.scopeType, input.identity, input.label, context⟩
  | some previous =>
    if previous.identity ≠ input.identity ∨ previous.label ≠ input.label ∨ previous.context ≠ context then
      putSubject now newId ⟨some previous.id, input.scopeType, input.identity, input.label, context⟩
    else pure previous

def putAliases (subjectId : Id) : List JsString → Tx V Unit
  | [] => pure ()
  | locator :: rest => do
    putAlias locator subjectId
    putAliases subjectId rest

variable [DecidableEq V]

/-- What `discover` does in its transaction. -/
def discoverIn (now : Int) (newId : Id) (input : SubjectInput) (aliases : List JsString) : Tx V Subject := do
  let known ← reads (findIdentity · input.scopeType input.identity)
  let candidates ← aliases.foldlM (gather input) known.toList
  let previous := known.or (firstById env candidates)
  coalesce now input previous candidates
  let context := input.context.getD ((previous.map (·.context)).getD [])
  checkContext input.scopeType context
  let subject ← settle now newId input previous context
  putAliases subject.id aliases
  return subject

def discover (now : Int) (newId : Id) (input : SubjectInput) : Tx V Subject := do
  throwIf (input.scopeType ∉ env.scopes) (.settings (lit "Unknown settings scope '" ++ input.scopeType ++ lit "'") 422)
  throwIf (JsString.trim input.identity = [] ∨ JsString.trim input.label = [])
    (.settings (lit "Scope identity and label are required") 422)
  let aliases ← lift (if input.scopeType = repositoryScope then (input.aliases.getD []).mapM env.normalizeLocator else .ok [])
  transaction (discoverIn env now newId input aliases)

end Service

end Leitwerk.Settings
