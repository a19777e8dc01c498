import Leitwerk.Lib.Effects
import Leitwerk.Lib.Forwarding
import Leitwerk.Lib.JsString
/-!
# Scoped settings in the database

`createScopedSettingsRepo` of `scoped-settings-repo.ts`: subjects with their
aliases, redirects from subjects that were merged away, and overrides with their
revisions. A reset keeps its row. The key columns of a row are the key of its
table; `now` is the time of the operation.
-/

namespace Leitwerk.Settings

open JsString (lit)

abbrev Id := JsString

structure SubjectRow where
  scopeType : JsString
  identity : JsString
  label : JsString
  context : List (JsString × JsString)
  revision : Nat
  createdAt : Int
  updatedAt : Int
  deriving DecidableEq

structure Subject extends SubjectRow where
  id : Id
  deriving DecidableEq

inductive Mode
  | append
  | replace
  deriving DecidableEq

structure Override (V : Type) where
  value : V
  mode : Mode
  reset : Bool
  schemaVersion : Nat
  revision : Nat
  createdAt : Int
  updatedAt : Int
  actor : JsString
  deriving DecidableEq

structure Db (V : Type) where
  subjects : Table Id SubjectRow
  aliases : Table JsString Id
  redirects : Table Id Id
  overrides : Table (Id × JsString) (Override V)

inductive Failure
  | settings (message : JsString) (statusCode : Nat)
  | error (message : JsString)
  /-- A unique index of the database refuses a row. -/
  | constraint
  deriving DecidableEq

/-- What runs on the database. -/
abbrev Tx (V : Type) := StateAction Failure (Db V)

section Repo

variable {V α : Type}

def reads (f : Db V → Except Failure α) : Tx V α := fun db => (f db, db)

def updates (f : Db V → Db V) : Tx V Unit := fun db => (.ok (), f db)

def throwIf (c : Prop) [Decidable c] (failure : Failure) : Tx V Unit := if c then throw failure else pure ()

/-- `repos.transaction`: what a failed one changed is rolled back. -/
def transaction (x : Tx V α) : Tx V α := fun db =>
  match x db with
  | (.error failure, _) => (.error failure, db)
  | (.ok a, db) => (.ok a, db)

def repositoryScope : JsString := lit "repository"

/-- `identity.startsWith("locator:")`. -/
def isLocator (identity : JsString) : Bool := (lit "locator:").isPrefixOf identity

def getSubject (db : Db V) (id : Id) : Except Failure (Option Subject) :=
  match Forwarding.walk (fun id => db.redirects.get? id) (db.redirects.rows.length + 1) [] id with
  | none => .error (.error (lit "Cyclic settings subject redirects"))
  | some id => .ok ((db.subjects.get? id).map fun row => { row with id })

def findIdentity (db : Db V) (scopeType identity : JsString) : Except Failure (Option Subject) :=
  match db.subjects.rows.find? fun row => row.2.scopeType = scopeType ∧ row.2.identity = identity with
  | none => .ok none
  | some row => getSubject db row.1

def findAlias (db : Db V) (locator : JsString) : Except Failure (Option Subject) :=
  match db.aliases.get? locator with
  | none => .ok none
  | some id => getSubject db id

/-- `this.getSubject(id)?.id ?? id`. -/
def canonicalId (db : Db V) (id : Id) : Except Failure Id :=
  (getSubject db id).map fun found => (found.map Subject.id).getD id

/-- The overrides of a subject with their keys. -/
def listOverrides (db : Db V) (subjectId : Id) : Except Failure (List (JsString × Override V)) :=
  (canonicalId db subjectId).map fun canonical => db.overrides.under canonical

def getOverride (db : Db V) (subjectId : Id) (key : JsString) : Except Failure (Option (Override V)) :=
  (canonicalId db subjectId).map fun canonical => db.overrides.get? (canonical, key)

structure SubjectWrite where
  id : Option Id
  scopeType : JsString
  identity : JsString
  label : JsString
  context : List (JsString × JsString)

/-- The row of a subject, unless another one has its identity. -/
def insertSubject (id : Id) (row : SubjectRow) : Tx V Unit := fun db =>
  if db.subjects.rows.any fun other => other.1 ≠ id && other.2.scopeType = row.scopeType && other.2.identity = row.identity then
    (.error .constraint, db)
  else (.ok (), { db with subjects := db.subjects.put id row })

/-- `putSubject`; `newId` is what `generateId` returns. -/
def putSubject (now : Int) (newId : Id) (input : SubjectWrite) : Tx V Subject := do
  let previous ← reads fun db =>
    match input.id with
    | some id => getSubject db id
    | none => .ok none
  let row : SubjectRow :=
    { scopeType := input.scopeType
      identity := input.identity
      label := input.label
      context := input.context
      revision := (previous.map (·.revision)).getD 0 + 1
      createdAt := (previous.map (·.createdAt)).getD now
      updatedAt := now }
  insertSubject (input.id.getD newId) row
  return { row with id := input.id.getD newId }

def putAlias (locator : JsString) (subjectId : Id) : Tx V Unit := do
  updates fun db => { db with aliases := (db.aliases.create locator subjectId).getD db.aliases }
  let found ← reads (findAlias · locator)
  throwIf (found.map Subject.id ≠ some subjectId)
    (.error (lit "Repository alias '" ++ locator ++ lit "' already belongs to another settings subject"))

structure SettingsWrite (V : Type) where
  subjectId : Id
  key : JsString
  value : V
  mode : Mode
  reset : Bool
  schemaVersion : Nat
  actor : JsString
  expectedRevision : Nat

/-- `UPDATE ... WHERE revision = expectedRevision`, which keeps the time of creation. -/
def updateOverride (subjectId : Id) (key : JsString) (expectedRevision : Nat) (values : Override V) : Tx V (Option (Override V)) :=
  fun db =>
    match db.overrides.get? (subjectId, key) with
    | none => (.ok none, db)
    | some row =>
      if row.revision = expectedRevision then
        (.ok (some { values with createdAt := row.createdAt }),
          { db with overrides := db.overrides.put (subjectId, key) { values with createdAt := row.createdAt } })
      else (.ok none, db)

/-- `INSERT ... ON CONFLICT DO NOTHING`. -/
def insertOverride (subjectId : Id) (key : JsString) (values : Override V) : Tx V (Option (Override V)) := fun db =>
  match db.overrides.create (subjectId, key) values with
  | none => (.ok none, db)
  | some overrides => (.ok (some values), { db with overrides })

/-- `write`: compare and swap, resets and first writes too. -/
def write (now : Int) (input : SettingsWrite V) : Tx V (Option (Override V)) := do
  let subjectId ← reads (canonicalId · input.subjectId)
  let values : Override V :=
    { value := input.value
      mode := input.mode
      reset := input.reset
      schemaVersion := input.schemaVersion
      revision := input.expectedRevision + 1
      createdAt := now
      updatedAt := now
      actor := input.actor }
  if 0 < input.expectedRevision then updateOverride subjectId input.key input.expectedRevision values
  else insertOverride subjectId input.key values

/-- The override a merge keeps for a key. -/
def retained (now : Int) (incoming : Override V) (current : Option (Override V)) : Override V :=
  let kept :=
    match current with
    | some current => if current.reset then incoming else current
    | none => incoming
  { kept with revision := max incoming.revision ((current.map Override.revision).getD 0) + 1, updatedAt := now }

/-- The loop of `mergeLocatorSubject` over the overrides of the source. -/
def mergeOverrides (now : Int) (targetId : Id) : List (JsString × Override V) → Tx V Unit
  | [] => pure ()
  | (key, incoming) :: rest => do
    let current ← reads (getOverride · targetId key)
    updates fun db => { db with overrides := db.overrides.put (targetId, key) (retained now incoming current) }
    mergeOverrides now targetId rest

def insertRedirect (subjectId canonicalSubjectId : Id) : Tx V Unit := fun db =>
  match db.redirects.create subjectId canonicalSubjectId with
  | none => (.error .constraint, db)
  | some redirects => (.ok (), { db with redirects })

def mergeLocatorSubject (now : Int) (sourceId targetId : Id) : Tx V Unit := do
  let source ← reads (getSubject · sourceId)
  let target ← reads (getSubject · targetId)
  match source, target with
  | some source, some target => do
    throwIf (source.id = target.id ∨ source.scopeType ≠ repositoryScope ∨ target.scopeType ≠ repositoryScope ∨
      isLocator source.identity = false) (.error (lit "Only distinct locator subjects can merge into a repository"))
    let incoming ← reads (listOverrides · source.id)
    mergeOverrides now target.id incoming
    updates fun db => { db with aliases := db.aliases.map fun id => if id = source.id then target.id else id }
    insertRedirect source.id target.id
  | _, _ => throw (.error (lit "Only distinct locator subjects can merge into a repository"))

end Repo

end Leitwerk.Settings
