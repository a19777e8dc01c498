import Leitwerk.Engine.Types
/-!
# Writes and their commit

`process-engine/writes/writes.ts` and `commit-writes.ts`. An operation decides on
`Writes`: a patch of the process and a list of writes for every other table.
`commitWrites` applies them in one transaction, which a taken key or a start
state that changed meanwhile aborts. Events, broadcasts, annotations, snapshots,
queued inputs and schedules are left out: no modelled operation reads them back.
-/

namespace Leitwerk.Engine

/-- Why an operation was refused, or what it threw: a code and the text shown for it. -/
structure Rejection where
  code : String
  message : String
  deriving DecidableEq

abbrev reject {α : Type} (code message : String) : Except Rejection α := .error ⟨code, message⟩

/-! ## The process patch -/

/-- `UpdateProcessInstanceInput`: an outer `none` leaves the column as it was. -/
structure ProcessPatch where
  lifecycleStatus : Option LifecycleStatus := none
  selectedTurnId : Option (Option TurnId) := none
  currentExecution : Option (Option String) := none
  planRevision : Option Nat := none
  externalId : Option (Option String) := none
  externalUrl : Option (Option String) := none
  metadata : Option Metadata := none
  selectedTurnModelProfileId : Option (Option String) := none
  selectedTurnModelKind : Option (Option ModelSelectionKind) := none
  selectedTurnModelSource : Option (Option ModelSelectionSource) := none
  paramsJson : Option (Option Json) := none
  stateJson : Option (Option Json) := none
  deriving DecidableEq

/-- `{ ...process, ...patch }`. -/
def ProcessPatch.apply (q : ProcessPatch) (p : Process) : Process :=
  { p with
    lifecycleStatus := q.lifecycleStatus.getD p.lifecycleStatus
    selectedTurnId := q.selectedTurnId.getD p.selectedTurnId
    currentExecution := q.currentExecution.getD p.currentExecution
    planRevision := q.planRevision.getD p.planRevision
    externalId := q.externalId.getD p.externalId
    externalUrl := q.externalUrl.getD p.externalUrl
    metadata := q.metadata.getD p.metadata
    selectedTurnModelProfileId := q.selectedTurnModelProfileId.getD p.selectedTurnModelProfileId
    selectedTurnModelKind := q.selectedTurnModelKind.getD p.selectedTurnModelKind
    selectedTurnModelSource := q.selectedTurnModelSource.getD p.selectedTurnModelSource
    paramsJson := q.paramsJson.getD p.paramsJson
    stateJson := q.stateJson.getD p.stateJson }

/-- `Object.assign(q, r)`. -/
def ProcessPatch.assign (q r : ProcessPatch) : ProcessPatch where
  lifecycleStatus := r.lifecycleStatus.or q.lifecycleStatus
  selectedTurnId := r.selectedTurnId.or q.selectedTurnId
  currentExecution := r.currentExecution.or q.currentExecution
  planRevision := r.planRevision.or q.planRevision
  externalId := r.externalId.or q.externalId
  externalUrl := r.externalUrl.or q.externalUrl
  metadata := r.metadata.or q.metadata
  selectedTurnModelProfileId := r.selectedTurnModelProfileId.or q.selectedTurnModelProfileId
  selectedTurnModelKind := r.selectedTurnModelKind.or q.selectedTurnModelKind
  selectedTurnModelSource := r.selectedTurnModelSource.or q.selectedTurnModelSource
  paramsJson := r.paramsJson.or q.paramsJson
  stateJson := r.stateJson.or q.stateJson

/-! ## Writes -/

/-- `TurnStartWrite`. -/
inductive TurnStartWrite where
  | create (input : TurnStartInput)
  | casState (id : String) (expectedKind : StartStateKind) (state : StartState)
      (automaticRetry : Option StartupRetryState)
  deriving DecidableEq

/-- `UpdateProcessTurnRecordInput`: a column that is `none` keeps its value. -/
structure TurnRecordPatch where
  turnType : Option TurnType := none
  status : Option TurnRecordStatus := none
  resultPiEntryId : Option (Option String) := none
  modelProfileId : Option (Option String) := none
  turnResultMarkdown : Option (Option String) := none
  errorSummary : Option (Option String) := none
  errorClass : Option (Option ErrorClass) := none
  endedAt : Option (Option String) := none
  deriving DecidableEq

/-- The `SET` of `turnRecords.update`. -/
def TurnRecordPatch.apply (q : TurnRecordPatch) (r : TurnRecord) : TurnRecord :=
  { r with
    turnType := q.turnType.getD r.turnType
    status := q.status.getD r.status
    resultPiEntryId := q.resultPiEntryId.getD r.resultPiEntryId
    modelProfileId := q.modelProfileId.getD r.modelProfileId
    turnResultMarkdown := q.turnResultMarkdown.getD r.turnResultMarkdown
    errorSummary := q.errorSummary.getD r.errorSummary
    errorClass := q.errorClass.getD r.errorClass
    endedAt := q.endedAt.getD r.endedAt }

/-- `TurnRecordWrite`. -/
inductive TurnRecordWrite where
  | create (record : TurnRecord)
  | update (id : String) (input : TurnRecordPatch)
  deriving DecidableEq

/-- `MappedRunWrite`. -/
inductive MappedRunWrite where
  | create (id : String) (run : MappedRun)
  | completeItem (runId : String) (itemIndex : Nat) (outcome : String) (resultJson : Json) (turnRecordId : String)
  | abortActive
  deriving DecidableEq

/-- `WorkerIntent`. -/
inductive WorkerIntent where
  | reconcile
  | restartWorker
  | startIfNeeded
  | abortTurn (reason : String)
  | stopWithReason (reason : String)
  deriving DecidableEq

/-- `Writes`. -/
structure Writes where
  waitForAdmission : Option String := none
  processPatch : ProcessPatch := {}
  changedFields : List String := []
  turnRecordWrites : List TurnRecordWrite := []
  turnStartWrites : List TurnStartWrite := []
  mappedRunWrites : List MappedRunWrite := []
  projects : Option Json := none
  workerIntent : Option WorkerIntent := none
  turnSelectedEvents : List TurnSelected := []
  deriving DecidableEq

/-- `{ ...process, ...writes.processPatch }`: the process as the writes so far leave it. -/
def Writes.candidate (w : Writes) (p : Process) : Process := w.processPatch.apply p

/-- The start a write creates. -/
def TurnStartWrite.create? : TurnStartWrite → Option TurnStartInput
  | .create s => some s
  | .casState .. => none

/-- The starts the writes create. -/
def Writes.creates (w : Writes) : List TurnStartInput := w.turnStartWrites.filterMap (·.create?)

/-- The state changes of existing starts among the writes. -/
def Writes.casWrites (w : Writes) : List TurnStartWrite := w.turnStartWrites.filter (·.create?.isNone)

/-- Takes the first created start that meets `pred` out of the writes. -/
def Writes.removeCreate (w : Writes) (pred : TurnStartInput → Bool) : Writes :=
  { w with turnStartWrites := w.turnStartWrites.eraseP fun x => x.create?.any pred }

/-- Replaces the first created start that `f` has a replacement for. -/
def Writes.replaceCreate (w : Writes) (f : TurnStartInput → Option TurnStartInput) : Writes :=
  { w with turnStartWrites := w.turnStartWrites.replaceF fun x => (x.create?.bind f).map .create }

/-- Changes every created start. -/
def Writes.mapCreates (w : Writes) (g : TurnStartInput → TurnStartInput) : Writes :=
  { w with turnStartWrites := w.turnStartWrites.map fun
      | .create s => .create (g s)
      | cas => cas }

/-- Appends a field name that is not listed yet. -/
def addField (fields : List String) (field : String) : List String :=
  if field ∈ fields then fields else fields ++ [field]

/-- `mergeWrites` of two writes. -/
def mergeWrites (w v : Writes) : Writes where
  waitForAdmission := v.waitForAdmission.or w.waitForAdmission
  processPatch := w.processPatch.assign v.processPatch
  changedFields := v.changedFields.foldl addField w.changedFields
  turnRecordWrites := w.turnRecordWrites ++ v.turnRecordWrites
  turnStartWrites := w.turnStartWrites ++ v.turnStartWrites
  mappedRunWrites := w.mappedRunWrites ++ v.mappedRunWrites
  projects := v.projects.or w.projects
  workerIntent := v.workerIntent.or w.workerIntent
  turnSelectedEvents := w.turnSelectedEvents ++ v.turnSelectedEvents

/-! ## Patching one field -/

/-- A column `applyProcessPatchField` may write. `same` is the source's `===`:
identity for a value that is an object, so a fresh one is never the same. -/
structure Field (α : Type) where
  name : String
  get : Process → α
  set : α → Process → Process
  put : ProcessPatch → α → ProcessPatch
  same : α → α → Bool
  get_set : ∀ v p, get (set v p) = v
  apply_put : ∀ q v p, (put q v).apply p = set v (q.apply p)
  same_eq : ∀ a b, same a b = true → a = b

namespace Field

def lifecycleStatus : Field LifecycleStatus where
  name := "lifecycleStatus"
  get := (·.lifecycleStatus)
  set := fun v p => { p with lifecycleStatus := v }
  put := fun q v => { q with lifecycleStatus := some v }
  same := (· == ·)
  get_set := fun _ _ => rfl
  apply_put := fun _ _ _ => rfl
  same_eq := fun _ _ => by simp

def selectedTurnId : Field (Option TurnId) where
  name := "selectedTurnId"
  get := (·.selectedTurnId)
  set := fun v p => { p with selectedTurnId := v }
  put := fun q v => { q with selectedTurnId := some v }
  same := (· == ·)
  get_set := fun _ _ => rfl
  apply_put := fun _ _ _ => rfl
  same_eq := fun _ _ => by simp

/-- A reference `{ kind, id }` is a fresh object wherever it is written. -/
def currentExecution : Field (Option String) where
  name := "currentExecution"
  get := (·.currentExecution)
  set := fun v p => { p with currentExecution := v }
  put := fun q v => { q with currentExecution := some v }
  same := fun a b => a.isNone && b.isNone
  get_set := fun _ _ => rfl
  apply_put := fun _ _ _ => rfl
  same_eq := by rintro (_ | _) (_ | _) <;> simp

def metadata : Field Metadata where
  name := "metadata"
  get := (·.metadata)
  set := fun v p => { p with metadata := v }
  put := fun q v => { q with metadata := some v }
  same := (· == ·)
  get_set := fun _ _ => rfl
  apply_put := fun _ _ _ => rfl
  same_eq := fun _ _ => by simp

def planRevision : Field Nat where
  name := "planRevision"
  get := (·.planRevision)
  set := fun v p => { p with planRevision := v }
  put := fun q v => { q with planRevision := some v }
  same := (· == ·)
  get_set := fun _ _ => rfl
  apply_put := fun _ _ _ => rfl
  same_eq := fun _ _ => by simp

def externalId : Field (Option String) where
  name := "externalId"
  get := (·.externalId)
  set := fun v p => { p with externalId := v }
  put := fun q v => { q with externalId := some v }
  same := (· == ·)
  get_set := fun _ _ => rfl
  apply_put := fun _ _ _ => rfl
  same_eq := fun _ _ => by simp

def externalUrl : Field (Option String) where
  name := "externalUrl"
  get := (·.externalUrl)
  set := fun v p => { p with externalUrl := v }
  put := fun q v => { q with externalUrl := some v }
  same := (· == ·)
  get_set := fun _ _ => rfl
  apply_put := fun _ _ _ => rfl
  same_eq := fun _ _ => by simp

def selectedTurnModelProfileId : Field (Option String) where
  name := "selectedTurnModelProfileId"
  get := (·.selectedTurnModelProfileId)
  set := fun v p => { p with selectedTurnModelProfileId := v }
  put := fun q v => { q with selectedTurnModelProfileId := some v }
  same := (· == ·)
  get_set := fun _ _ => rfl
  apply_put := fun _ _ _ => rfl
  same_eq := fun _ _ => by simp

def selectedTurnModelKind : Field (Option ModelSelectionKind) where
  name := "selectedTurnModelKind"
  get := (·.selectedTurnModelKind)
  set := fun v p => { p with selectedTurnModelKind := v }
  put := fun q v => { q with selectedTurnModelKind := some v }
  same := (· == ·)
  get_set := fun _ _ => rfl
  apply_put := fun _ _ _ => rfl
  same_eq := fun _ _ => by simp

def selectedTurnModelSource : Field (Option ModelSelectionSource) where
  name := "selectedTurnModelSource"
  get := (·.selectedTurnModelSource)
  set := fun v p => { p with selectedTurnModelSource := v }
  put := fun q v => { q with selectedTurnModelSource := some v }
  same := (· == ·)
  get_set := fun _ _ => rfl
  apply_put := fun _ _ _ => rfl
  same_eq := fun _ _ => by simp

def paramsJson : Field (Option Json) where
  name := "paramsJson"
  get := (·.paramsJson)
  set := fun v p => { p with paramsJson := v }
  put := fun q v => { q with paramsJson := some v }
  same := (· == ·)
  get_set := fun _ _ => rfl
  apply_put := fun _ _ _ => rfl
  same_eq := fun _ _ => by simp

def stateJson : Field (Option Json) where
  name := "stateJson"
  get := (·.stateJson)
  set := fun v p => { p with stateJson := v }
  put := fun q v => { q with stateJson := some v }
  same := (· == ·)
  get_set := fun _ _ => rfl
  apply_put := fun _ _ _ => rfl
  same_eq := fun _ _ => by simp

end Field

/-- Writes the column and lists it as changed, whatever it held. -/
def Writes.put {α : Type} (w : Writes) (f : Field α) (v : α) : Writes :=
  { w with processPatch := f.put w.processPatch v, changedFields := addField w.changedFields f.name }

/-- `applyProcessPatchField`: a value the process already has is not written,
also where the patch holds another one. -/
def applyProcessPatchField {α : Type} (w : Writes) (p : Process) (f : Field α) (v : α) : Writes :=
  if f.same (f.get p) v then w else w.put f v

/-- `applyMetadataPatch`, which compares the JSON of the two. -/
def applyMetadataPatch (w : Writes) (p : Process) (next : Metadata) : Writes :=
  applyProcessPatchField w p Field.metadata next

/-- `updateProcessMetadata`, with the cleared groups and the update as one function of the
process's metadata. -/
def updateProcessMetadata (w : Writes) (p : Process) (update : Metadata → Metadata) : Writes :=
  applyMetadataPatch w p (update p.metadata)

/-! ## Commit -/

/-- `turnStarts.compareAndSetState`: `automaticRetry` is kept unless the new state names one. -/
def compareAndSetState (starts : Table String TurnStartRecord) (id : String) (expectedKind : StartStateKind)
    (state : StartState) (automaticRetry : Option StartupRetryState) : Option (Table String TurnStartRecord) :=
  match starts.get? id with
  | some current =>
    if current.state.kind = expectedKind then
      some (starts.modify id fun s => { s with state := state, automaticRetry := automaticRetry.or s.automaticRetry })
    else none
  | none => none

/-- One turn-start write; `none` is the error that aborts the transaction. No two starts
propose one turn record, by a unique index. -/
def applyTurnStartWrite (starts : Table String TurnStartRecord) : TurnStartWrite → Option (Table String TurnStartRecord)
  | .create s =>
    if starts.values.any fun r => r.proposedTurnRecordId = s.proposedTurnRecordId then none
    else starts.create s.id s.toRecord
  | .casState id expectedKind state retry => compareAndSetState starts id expectedKind state retry

def applyTurnRecordWrite (records : Table String TurnRecord) : TurnRecordWrite → Option (Table String TurnRecord)
  | .create r => records.create r.id r
  | .update id input => some (records.modify id input.apply)

/-- `mappedRuns.completeItem` on the run it is for. -/
def MappedRun.complete (run : MappedRun) (itemIndex : Nat) (outcome : String) (resultJson : Json)
    (turnRecordId : String) : MappedRun :=
  { run with
    items := run.items.modify itemIndex fun item =>
      { item with outcome := some outcome, resultJson := some resultJson, turnRecordId := some turnRecordId }
    nextIndex := itemIndex + 1
    status := if itemIndex + 1 = run.items.length then .completed else .active }

def applyMappedRunWrite (runs : Table String MappedRun) : MappedRunWrite → Option (Table String MappedRun)
  | .create id run => runs.create id run
  | .completeItem runId itemIndex outcome resultJson turnRecordId =>
    match runs.get? runId with
    | some run =>
      if run.status = .active ∧ run.nextIndex = itemIndex ∧
          (run.items[itemIndex]?).any (·.resultJson.isNone) = true then
        some (runs.modify runId (·.complete itemIndex outcome resultJson turnRecordId))
      else none
    | none => none
  | .abortActive =>
    some (runs.rows.foldl (fun acc r =>
      if r.2.status = .active then acc.modify r.1 fun run => { run with status := .aborted } else acc) runs)

/-- Applies writes in order until one fails. -/
def applyAll {σ ω : Type} (f : σ → ω → Option σ) : σ → List ω → Option σ
  | s, [] => some s
  | s, w :: ws => (f s w).bind fun s' => applyAll f s' ws

/-- `processes.update`: the patch, and the time of the first terminal status it writes. -/
def updateProcess (p : Process) (patch : ProcessPatch) (now : String) : Process :=
  { patch.apply p with
    closedAt := if patch.lifecycleStatus = some .completed ∨ patch.lifecycleStatus = some .aborted then
      p.closedAt.or (some now) else p.closedAt }

/-- `commitWrites`: mapped runs, starts, records, then the process. -/
def commitWrites (now : String) (st : Store) (w : Writes) : Option Store := do
  let mappedRuns ← applyAll applyMappedRunWrite st.mappedRuns w.mappedRunWrites
  let turnStarts ← applyAll applyTurnStartWrite st.turnStarts w.turnStartWrites
  let turnRecords ← applyAll applyTurnRecordWrite st.turnRecords w.turnRecordWrites
  some { st with
    process := if w.changedFields.isEmpty then st.process else updateProcess st.process w.processPatch now
    turnStarts, turnRecords, mappedRuns
    projects := w.projects.getD st.projects
    turnSelectedEvents := st.turnSelectedEvents ++ w.turnSelectedEvents }

end Leitwerk.Engine
