import Leitwerk.Lib.Json
import Leitwerk.Domain
/-!
# References in the state of a process

`mergeEntryRefPatchIntoStateJson` of `entry-ref-patch.ts`, the patches that are
derived from an operation, and the state that the operation commits. A
reference names an entry and perhaps the turn record that wrote it.
-/

namespace Leitwerk.EntryRefs

open JsString (lit)

/-! ## References -/

/-- A string as `trimToNull` returns it. -/
abbrev Label := { s : JsString // s.Trimmed }

structure SemanticEntryRef where
  entryId : Label
  turnRecordId : Option Label
  deriving DecidableEq

/-- References by name; `none` is an explicit `null`. -/
abbrev Refs := Table JsString (Option SemanticEntryRef)

/-- `trimToNull` of a string. -/
def trimToNull (s : JsString) : Option Label :=
  if h : JsString.trim s = [] then none else some ⟨JsString.trim s, h, JsString.trim_trim s⟩

def trimFieldToNull : Option JsonValue → Option Label
  | some (.str s) => trimToNull s
  | _ => none

def parseSemanticEntryRef : Option JsonValue → Option SemanticEntryRef
  | some (.obj fields) => (trimFieldToNull (getField fields (lit "entryId"))).map fun entryId =>
    ⟨entryId, trimFieldToNull (getField fields (lit "turnRecordId"))⟩
  | _ => none

inductive SemanticEntryRefKey
  | plan
  | review
  | currentPrimaryPathLeaf
  | rootEntry
  deriving DecidableEq

def SemanticEntryRefKey.name : SemanticEntryRefKey → JsString
  | .plan => lit "plan"
  | .review => lit "review"
  | .currentPrimaryPathLeaf => lit "currentPrimaryPathLeaf"
  | .rootEntry => lit "rootEntry"

def SemanticEntryRefKey.all : List SemanticEntryRefKey := [.plan, .review, .currentPrimaryPathLeaf, .rootEntry]

def isLowerLetter (u : UInt16) : Bool := 97 ≤ u.toNat && u.toNat ≤ 122

def isDigit (u : UInt16) : Bool := 48 ≤ u.toNat && u.toNat ≤ 57

/-- `/^[a-z][a-z0-9-]*$/`. -/
def isValidProcessProductName : JsString → Bool
  | [] => false
  | u :: rest => isLowerLetter u && rest.all fun u => isLowerLetter u || isDigit u || u.toNat = 45

def invalidProductName (name : JsString) : JsString :=
  lit "Invalid process product name '" ++ name ++ lit "'. Product names must match ^[a-z][a-z0-9-]*$"

/-! ## Reading them strictly -/

def parseProcessStateJsonStrict (subject : JsString) : Option JsonText → Except JsString (List (JsString × JsonValue))
  | none => .ok []
  | some .empty => .ok []
  | some (.malformed message) => .error (lit "Malformed " ++ subject ++ lit ": " ++ message)
  | some (.value (.obj fields)) => .ok fields
  | some (.value _) => .error (lit "Malformed " ++ subject ++ lit ": expected a JSON object")

inductive RefField
  | productRefs
  | semanticEntryRefs
  deriving DecidableEq

def RefField.name : RefField → JsString
  | .productRefs => lit "productRefs"
  | .semanticEntryRefs => lit "semanticEntryRefs"

def parseProcessSemanticEntryRefs (fields : List (JsString × JsonValue)) : Refs :=
  SemanticEntryRefKey.all.foldl (fun refs key => refs.put key.name (parseSemanticEntryRef (getField fields key.name))) Table.empty

/-- One round of the loop over the product references. -/
def addProductRef (refs : Refs) (entry : JsString × JsonValue) : Except JsString Refs :=
  if isValidProcessProductName entry.1 = false then
    .error (lit "Malformed productRefs: invalid product name '" ++ entry.1 ++ lit "'")
  else
    match parseSemanticEntryRef (some entry.2) with
    | none => .error (lit "Malformed productRefs: product '" ++ entry.1 ++ lit "' must reference an entry")
    | some ref => .ok (refs.put entry.1 (some ref))

/-- `parseProductRefsStrict` and `parseSemanticEntryRefsStrict`. -/
def parseRefsStrict (field : RefField) : Option JsonValue → Except JsString Refs
  | none =>
    match field with
    | .productRefs => .ok Table.empty
    | .semanticEntryRefs => .ok (parseProcessSemanticEntryRefs [])
  | some (.obj fields) =>
    match field with
    | .productRefs => fields.foldlM addProductRef Table.empty
    | .semanticEntryRefs => .ok (parseProcessSemanticEntryRefs fields)
  | some _ => .error (lit "Malformed " ++ field.name ++ lit ": expected an object when present")

/-! ## Applying a patch -/

inductive PatchValue
  | undefined
  | null
  | ref (entryId : JsString) (turnRecordId : Option JsString)
  deriving DecidableEq

abbrev EntryRefPatch := List (JsString × PatchValue)

/-- `normalizeProductRef`, which is `parseSemanticEntryRef` of a patch value. -/
def PatchValue.normalize : PatchValue → Option SemanticEntryRef
  | .ref entryId turnRecordId => (trimToNull entryId).map fun entryId => ⟨entryId, turnRecordId.bind trimToNull⟩
  | _ => none

def areSemanticEntryRefsEqual (left right : Option SemanticEntryRef) : Bool :=
  left.map (·.entryId) = right.map (·.entryId) && left.bind (·.turnRecordId) = right.bind (·.turnRecordId)

/-- The reference of a name. -/
def Refs.ref (refs : Refs) (key : JsString) : Option SemanticEntryRef := (refs.get? key).join

/-- One round of the loop over the entries of a patch. -/
def applyEntry (field : RefField) (acc : Bool × Refs) (entry : JsString × PatchValue) : Except JsString (Bool × Refs) :=
  let next := entry.2.normalize
  let changed := acc.1 || !areSemanticEntryRefsEqual (acc.2.ref entry.1) next
  match field with
  | .productRefs =>
    if isValidProcessProductName entry.1 = false then .error (invalidProductName entry.1)
    else if next = none then .ok (changed, acc.2.remove entry.1)
    else .ok (changed, acc.2.put entry.1 next)
  | .semanticEntryRefs => .ok (changed, acc.2.put entry.1 next)

def refJson : Option SemanticEntryRef → JsonValue
  | none => .null
  | some ref => .obj [(lit "entryId", .str ref.entryId.1),
    (lit "turnRecordId", (ref.turnRecordId.map fun id => JsonValue.str id.1).getD .null)]

def refsJson (refs : Refs) : JsonValue := .obj (refs.rows.map fun row => (row.1, refJson row.2))

/-- The entries of a patch that are not `undefined`. -/
def definedEntries (patch : EntryRefPatch) : EntryRefPatch := patch.filter fun entry => entry.2 ≠ .undefined

def mergeEntryRefPatchIntoStateJson (stateJson : Option JsonText) (patch : EntryRefPatch) (field : RefField)
    (fallbackStateJson : Option JsonText) : Except JsString (Option JsonText) := do
  if definedEntries patch = [] then return none
  else
    let stateRecord ← parseProcessStateJsonStrict (lit "stateJson") stateJson
    let fallbackStateRecord ← parseProcessStateJsonStrict (lit "fallbackStateJson") fallbackStateJson
    let refs ← parseRefsStrict field ((getField stateRecord field.name).or (getField fallbackStateRecord field.name))
    let (changed, nextRefs) ← (definedEntries patch).foldlM (applyEntry field) (false, refs)
    return if changed then some (.value (.obj (setField stateRecord field.name (refsJson nextRefs)))) else none

/-! ## The patches of an operation -/

/-- What `TurnOutcome` derives its patches from; a root entry that was not reported is `none`. -/
structure OutcomeRefs where
  turnRecordId : JsString
  pathType : PathType
  resultPiEntryId : Option JsString
  rootEntryId : Option (Option JsString)
  resultSemanticRef : Option SemanticEntryRefKey
  publishedProduct : Option JsString

/-- A string that is neither missing nor empty. -/
def truthy : Option JsString → Option JsString
  | some [] => none
  | s => s

def deriveTurnOutcomeSemanticEntryRefPatch (payload : OutcomeRefs) : EntryRefPatch :=
  let patch : EntryRefPatch :=
    match payload.rootEntryId with
    | none => []
    | some rootEntryId =>
      [(SemanticEntryRefKey.rootEntry.name, match truthy rootEntryId with
        | some entryId => .ref entryId none
        | none => .null)]
  match truthy payload.resultPiEntryId with
  | none => patch
  | some entryId =>
    let result : PatchValue := .ref entryId (some payload.turnRecordId)
    let patch :=
      if payload.pathType = .primary then setField patch SemanticEntryRefKey.currentPrimaryPathLeaf.name result else patch
    match payload.resultSemanticRef with
    | none => patch
    | some key => setField patch key.name result

def deriveTurnOutcomeProductRefPatch (payload : OutcomeRefs) : Except JsString EntryRefPatch :=
  match truthy payload.publishedProduct with
  | none => .ok []
  | some product =>
    if isValidProcessProductName product = false then .error (invalidProductName product)
    else
      match truthy (payload.resultPiEntryId.map JsString.trim) with
      | none => .error (lit "Cannot derive product ref patch for published product '" ++ product ++ lit "' without a result entry")
      | some entryId => .ok [(product, .ref entryId (some payload.turnRecordId))]

/-- What an action or an external event publishes: the product, and the record of its turn. -/
structure Publication where
  productName : JsString
  turnRecordId : JsString

/-- The patch of an action (`source` is `action`) or of an external source (`external`). -/
def publicationPatch (source : JsString) (publication : Publication) : EntryRefPatch :=
  [(publication.productName,
    .ref (source ++ lit ":" ++ publication.turnRecordId ++ lit ":" ++ publication.productName) (some publication.turnRecordId))]

/-! ## The state an operation commits -/

/-- `handler` is the state that the handlers of the operation left, `stored` the one before it. -/
def turnOutcomeState (stored handler : Option JsonText) (payload : OutcomeRefs) : Except JsString (Option JsonText) := do
  let semanticEntryRefPatch := deriveTurnOutcomeSemanticEntryRefPatch payload
  let productRefPatch ← deriveTurnOutcomeProductRefPatch payload
  let semanticStateJson ← mergeEntryRefPatchIntoStateJson (handler.or stored) semanticEntryRefPatch .semanticEntryRefs stored
  let productStateJson ←
    mergeEntryRefPatchIntoStateJson (semanticStateJson.or (handler.or stored)) productRefPatch .productRefs stored
  return (productStateJson.or semanticStateJson).or (handler.or stored)

/-- The state of `ExecuteAction` and `FireExternalSource`, which may publish a product. -/
def publishingState (source : JsString) (stored handler : Option JsonText) :
    Option Publication → Except JsString (Option JsonText)
  | none => .ok (handler.or stored)
  | some publication => do
    let patched ← mergeEntryRefPatchIntoStateJson (handler.or stored) (publicationPatch source publication) .productRefs stored
    return patched.or (handler.or stored)

def executeActionState : (stored handler : Option JsonText) → Option Publication → Except JsString (Option JsonText) :=
  publishingState (lit "action")

def fireExternalSourceState : (stored handler : Option JsonText) → Option Publication → Except JsString (Option JsonText) :=
  publishingState (lit "external")

end Leitwerk.EntryRefs
