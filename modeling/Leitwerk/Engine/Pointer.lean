import Leitwerk.Engine.Patch
/-!
# Where writes leave the execution

Every builder that selects a turn leaves the process's execution pointer in one
of three ways: kept, cleared, or at a start the same writes reserve. `Routed`
says so of the writes a builder returns, `Pointer` of the writes of a whole
decision, which may hold starts of several builders.
-/

namespace Leitwerk.Engine

/-- Whether a created start is ready for a worker at once. -/
def TurnStart.begins (s : TurnStartInput) : Bool := s.state.begins

/-- The created starts whose model is prepared before the commit. -/
def Writes.llmCreates (w : Writes) : List TurnStartInput := w.creates.filter (·.turnType = .llm)

variable {d : ProcessDefinition} {p : Process} {w v : Writes} {ids : FreshIds} {asked exempt : Prop}

/-! ## What one builder returns -/

/-- The writes of one builder: no start, or one start the process is left at. `asked` is
whether somebody other than the model preparation asked for the `error` status. -/
inductive Routed (d : ProcessDefinition) (asked : Prop) (p : Process) (w : Writes) : Prop
  | kept (hs : w.turnStartWrites = []) (hx : (w.candidate p).currentExecution = p.currentExecution)
  | cleared (hs : w.turnStartWrites = []) (hx : (w.candidate p).currentExecution = none)
  | reserved (s : TurnStartInput) (hs : w.turnStartWrites = [.create s])
      (hx : (w.candidate p).currentExecution = some s.id)
      (hsel : (w.candidate p).selectedTurnId = some s.turnId)
      (hty : d.workerTurnType s.turnId = some s.turnType)
      (hst : s.begins = true → (w.candidate p).lifecycleStatus = .error → asked)
      (hllm : s.turnType = .llm →
        s.begins = false ∧ (p.lifecycleStatus ≠ .error → (w.candidate p).lifecycleStatus = .error))

/-- A start reserved for a selected turn under the given ids: no item's, and no recovery. -/
structure Reserved (ids : FreshIds) (s : TurnStartInput) : Prop where
  id : s.id = ids.startId
  proposed : s.proposedTurnRecordId = ids.turnRecordId
  startKind : s.startKind = .selectedTurn
  recovery : s.recoveryTurnRecordId = none
  continuation : s.continuation = none
  iteration : s.iteration = none
  automaticRetry : s.automaticRetry = none

theorem reserved_of_no_starts (h : w.turnStartWrites = []) : ∀ s ∈ w.creates, Reserved ids s := by
  intro s hs
  rw [mem_creates, h] at hs
  cases hs

/-- What a builder leaves alone, and what it reserves. -/
structure Routes (p : Process) (ids : FreshIds) (w : Writes) : Prop where
  starts : ∀ s ∈ w.creates, Reserved ids s
  records : w.turnRecordWrites = []
  admission : w.waitForAdmission = none
  wait : (w.candidate p).metadata.turnWait = p.metadata.turnWait ∨ (w.candidate p).metadata.turnWait = none
  tracked : Tracked p w

theorem Routed.of_sameMove (h : Routed d asked p w) (hm : SameMove w v) : Routed d asked p v := by
  cases h with
  | kept hs hx => exact .kept (hm.starts.trans hs) ((hm.current p).trans hx)
  | cleared hs hx => exact .cleared (hm.starts.trans hs) ((hm.current p).trans hx)
  | reserved s hs hx hsel hty hst hllm =>
    refine .reserved s (hm.starts.trans hs) ((hm.current p).trans hx) ((hm.selected p).trans hsel) hty ?_ ?_
    · rw [hm.lifecycle]; exact hst
    · rw [hm.lifecycle]; exact hllm

theorem Routed.mono {asked' : Prop} (h : Routed d asked p w) (ha : asked → asked') : Routed d asked' p w := by
  cases h with
  | kept hs hx => exact .kept hs hx
  | cleared hs hx => exact .cleared hs hx
  | reserved s hs hx hsel hty hst hllm => exact .reserved s hs hx hsel hty (fun h1 h2 => ha (hst h1 h2)) hllm

/-! ## Reserving a start -/

section
variable (p : Process) (w : Writes) (turnId : TurnId) (ids : FreshIds) (iteration : Option MappedTurnItemRef)

theorem starts_reserve (turnType : WorkerTurnType) :
    (reserveSelectedTurnStart p w turnId turnType ids iteration).turnStartWrites =
      w.turnStartWrites ++ [.create (selectedTurnStart p turnId turnType ids iteration)] := by
  cases turnType <;> simp [reserveSelectedTurnStart]

theorem records_reserve (turnType : WorkerTurnType) :
    (reserveSelectedTurnStart p w turnId turnType ids iteration).turnRecordWrites = w.turnRecordWrites := by
  cases turnType <;> simp [reserveSelectedTurnStart]

theorem admission_reserve (turnType : WorkerTurnType) :
    (reserveSelectedTurnStart p w turnId turnType ids iteration).waitForAdmission = w.waitForAdmission := by
  cases turnType <;> simp [reserveSelectedTurnStart]

theorem current_reserve (turnType : WorkerTurnType) (q : Process) :
    ((reserveSelectedTurnStart p w turnId turnType ids iteration).candidate q).currentExecution = some ids.startId := by
  cases turnType <;> simp [reserveSelectedTurnStart]

theorem selected_reserve (turnType : WorkerTurnType) (q : Process) :
    ((reserveSelectedTurnStart p w turnId turnType ids iteration).candidate q).selectedTurnId =
      (w.candidate q).selectedTurnId := by
  cases turnType <;> simp [reserveSelectedTurnStart] <;> rfl

theorem metadata_reserve (turnType : WorkerTurnType) (q : Process) :
    ((reserveSelectedTurnStart p w turnId turnType ids iteration).candidate q).metadata = (w.candidate q).metadata := by
  cases turnType <;> simp [reserveSelectedTurnStart] <;> rfl

theorem tracked_reserve (turnType : WorkerTurnType) (q : Process) :
    Tracked q (reserveSelectedTurnStart p w turnId turnType ids iteration) := by
  apply Tracked.of_changed
  cases turnType with
  | llm => exact changed_apply (changed_applyCurrent _ _ _) _
  | automatic => exact changed_applyCurrent _ _ _

/-- Reserving an automatic start leaves the lifecycle status to the caller. -/
theorem lifecycle_reserve_automatic (q : Process) :
    ((reserveSelectedTurnStart p w turnId .automatic ids iteration).candidate q).lifecycleStatus =
      (w.candidate q).lifecycleStatus := by
  simp [reserveSelectedTurnStart]; rfl

/-- Reserving an LLM start stops the process until its model is prepared. -/
theorem lifecycle_reserve_llm (hp : p.lifecycleStatus ≠ .error) (q : Process) :
    ((reserveSelectedTurnStart p w turnId .llm ids iteration).candidate q).lifecycleStatus = .error := by
  simp only [reserveSelectedTurnStart]
  rcases get_apply_or (f := Field.lifecycleStatus) (q := p) (p := q)
    (w := applyProcessPatchField { w with turnStartWrites := w.turnStartWrites ++
      [.create (selectedTurnStart p turnId .llm ids iteration)] } p .currentExecution (some ids.startId))
    .error with h | h
  · exact h
  · exact absurd h.1.symm hp

theorem selectedTurnStart_begins (turnType : WorkerTurnType) :
    (selectedTurnStart p turnId turnType ids iteration).begins = decide (turnType = .automatic) := by
  cases turnType <;> rfl
end

/-! ## Selecting a turn -/

/-- Whether a selection replaces or clears the execution of the process. -/
def TurnSelectionWritesInput.replacesExecution (d : ProcessDefinition) (p : Process) (input : TurnSelectionWritesInput) :
    Bool :=
  match input.toTurnId, input.targetLifecycleStatus d p with
  | some turnId, .active => (d.workerTurnType turnId).isSome
  | none, _ | _, .waiting | _, .completed | _, .aborted => true
  | some _, .discovered | some _, .error => false

/-- The selection's writes before it decides on the execution. -/
def selectWrites (d : ProcessDefinition) (p : Process) (input : TurnSelectionWritesInput) : Writes :=
  applyProcessPatchField
    (applyProcessPatchField
      { workerIntent := some (input.workerIntent.getD .reconcile)
        turnSelectedEvents := if p.selectedTurnId = input.toTurnId then [] else [⟨p.selectedTurnId, input.toTurnId⟩] }
      p .selectedTurnId input.toTurnId)
    p .lifecycleStatus (input.targetLifecycleStatus d p)

theorem turnSelectionWrites_eq (d : ProcessDefinition) (p : Process) (input : TurnSelectionWritesInput) (ids : FreshIds) :
    turnSelectionWrites d p input ids =
      match input.toTurnId, input.targetLifecycleStatus d p with
      | some turnId, .active => match d.workerTurnType turnId with
        | some turnType => reserveSelectedTurnStart p (selectWrites d p input) turnId turnType ids
        | none => selectWrites d p input
      | none, _ | _, .waiting | _, .completed | _, .aborted =>
        applyProcessPatchField (selectWrites d p input) p .currentExecution none
      | some _, .discovered | some _, .error => selectWrites d p input := rfl

theorem selected_selectWrites (input : TurnSelectionWritesInput) :
    ((selectWrites d p input).candidate p).selectedTurnId = input.toTurnId := by
  unfold selectWrites
  rw [selectedTurnId_applyLifecycle]
  exact get_apply (f := Field.selectedTurnId) rfl _

theorem lifecycle_selectWrites (input : TurnSelectionWritesInput) (q : Process) :
    ((selectWrites d p input).candidate q).lifecycleStatus =
      if input.targetLifecycleStatus d p = p.lifecycleStatus then q.lifecycleStatus
      else input.targetLifecycleStatus d p := by
  unfold selectWrites
  apply lifecycle_apply
  unfold applyProcessPatchField
  split <;> rfl

theorem lifecycle_selectWrites_self (input : TurnSelectionWritesInput) :
    ((selectWrites d p input).candidate p).lifecycleStatus = input.targetLifecycleStatus d p := by
  rw [lifecycle_selectWrites]
  split
  · rename_i h
    exact h.symm
  · rfl

theorem current_selectWrites (input : TurnSelectionWritesInput) :
    ((selectWrites d p input).candidate p).currentExecution = p.currentExecution := by
  unfold selectWrites
  rw [currentExecution_applyLifecycle, currentExecution_applySelected]
  rfl

theorem metadata_selectWrites (input : TurnSelectionWritesInput) (q : Process) :
    ((selectWrites d p input).candidate q).metadata = q.metadata := by
  unfold selectWrites
  rw [metadata_applyLifecycle, metadata_applySelected]
  rfl

theorem starts_selectWrites (input : TurnSelectionWritesInput) : (selectWrites d p input).turnStartWrites = [] := by
  simp [selectWrites]

theorem routes_selectWrites (ids : FreshIds) (input : TurnSelectionWritesInput) : Routes p ids (selectWrites d p input) where
  starts := reserved_of_no_starts (starts_selectWrites input)
  records := by simp [selectWrites]
  admission := by simp [selectWrites]
  wait := by rw [metadata_selectWrites]; exact .inl rfl
  tracked := ((tracked_empty _ rfl rfl).apply _).apply _

/-- A selection keeps the execution exactly when it does not replace it, and clears it or
leaves the process at the start it reserves when it does. -/
structure Selects (d : ProcessDefinition) (p : Process) (ids : FreshIds) (input : TurnSelectionWritesInput)
    (w : Writes) : Prop where
  selected : (w.candidate p).selectedTurnId = input.toTurnId
  routes : Routes p ids w
  routed : Routed d False p w
  keeps : input.replacesExecution d p = false → w.turnStartWrites = [] ∧
    (w.candidate p).currentExecution = p.currentExecution
  replaces : input.replacesExecution d p = true →
    w.turnStartWrites = [] ∧ (w.candidate p).currentExecution = none ∨
      ∃ s, w.turnStartWrites = [.create s] ∧ (w.candidate p).currentExecution = some s.id
  metadata : ∀ q, (w.candidate q).metadata = q.metadata
  lifecycle : (∀ s, w.turnStartWrites = [.create s] → s.turnType = .automatic) ∧
      (∀ q, (w.candidate q).lifecycleStatus =
        if input.targetLifecycleStatus d p = p.lifecycleStatus then q.lifecycleStatus
        else input.targetLifecycleStatus d p) ∨
    ∃ s, w.turnStartWrites = [.create s] ∧ s.begins = false ∧
      (p.lifecycleStatus ≠ .error → ∀ q, (w.candidate q).lifecycleStatus = .error)

theorem selects_keep (input : TurnSelectionWritesInput) (hr : input.replacesExecution d p = false) :
    Selects d p ids input (selectWrites d p input) where
  selected := selected_selectWrites input
  routes := routes_selectWrites ids input
  routed := .kept (starts_selectWrites input) (current_selectWrites input)
  keeps := fun _ => ⟨starts_selectWrites input, current_selectWrites input⟩
  replaces := fun h => absurd h (by simp [hr])
  metadata := metadata_selectWrites input
  lifecycle := .inl ⟨fun s hs => absurd ((starts_selectWrites input).symm.trans hs) (by simp), lifecycle_selectWrites input⟩

theorem selects_clear (input : TurnSelectionWritesInput) (hr : input.replacesExecution d p = true) :
    Selects d p ids input (applyProcessPatchField (selectWrites d p input) p .currentExecution none) := by
  have hx : ((applyProcessPatchField (selectWrites d p input) p .currentExecution none).candidate p).currentExecution =
      none := get_apply (f := Field.currentExecution) (current_selectWrites input) none
  have hs : (applyProcessPatchField (selectWrites d p input) p .currentExecution none).turnStartWrites = [] := by
    rw [turnStartWrites_apply]
    exact starts_selectWrites input
  refine ⟨?_, ⟨reserved_of_no_starts hs, ?_, ?_, ?_, ?_⟩, .cleared hs hx, fun h => absurd h (by simp [hr]), fun _ => .inl ⟨hs, hx⟩, fun q => ?_,
    .inl ⟨fun s h => absurd (hs.symm.trans h) (by simp), ?_⟩⟩
  · rw [selectedTurnId_applyCurrent]
    exact selected_selectWrites input
  · rw [turnRecordWrites_apply]
    exact (routes_selectWrites ids input).records
  · rw [waitForAdmission_apply]
    exact (routes_selectWrites ids input).admission
  · rw [metadata_applyCurrent]
    exact (routes_selectWrites ids input).wait
  · exact (routes_selectWrites ids input).tracked.apply _
  · rw [metadata_applyCurrent]
    exact metadata_selectWrites input q
  · intro q
    rw [lifecycleStatus_applyCurrent]
    exact lifecycle_selectWrites input q

theorem selects_reserve (input : TurnSelectionWritesInput) {turnId : TurnId} {turnType : WorkerTurnType}
    (ht : input.toTurnId = some turnId) (ha : input.targetLifecycleStatus d p = .active)
    (hw : d.workerTurnType turnId = some turnType) (hr : input.replacesExecution d p = true) :
    Selects d p ids input (reserveSelectedTurnStart p (selectWrites d p input) turnId turnType ids) := by
  have hs : (reserveSelectedTurnStart p (selectWrites d p input) turnId turnType ids).turnStartWrites =
      [.create (selectedTurnStart p turnId turnType ids none)] := by
    rw [starts_reserve, starts_selectWrites, List.nil_append]
  have hx := current_reserve p (selectWrites d p input) turnId ids none turnType p
  have hsel : ((reserveSelectedTurnStart p (selectWrites d p input) turnId turnType ids).candidate p).selectedTurnId =
      some turnId := by
    rw [selected_reserve, selected_selectWrites, ht]
  have hauto : turnType = .automatic → ∀ q,
      ((reserveSelectedTurnStart p (selectWrites d p input) turnId turnType ids).candidate q).lifecycleStatus =
        ((selectWrites d p input).candidate q).lifecycleStatus := by
    intro h q
    rw [h, lifecycle_reserve_automatic]
  refine ⟨hsel.trans ht.symm, ⟨?_, ?_, ?_, ?_, tracked_reserve _ _ _ _ _ _ _⟩, ?_, fun h => absurd h (by simp [hr]),
    fun _ => .inr ⟨_, hs, hx⟩, fun q => ?_, ?_⟩
  · intro s hmem
    rw [mem_creates, hs, List.mem_singleton] at hmem
    cases hmem
    exact ⟨rfl, rfl, rfl, rfl, rfl, rfl, rfl⟩
  · rw [records_reserve]
    exact (routes_selectWrites ids input).records
  · rw [admission_reserve]
    exact (routes_selectWrites ids input).admission
  · rw [metadata_reserve]
    exact (routes_selectWrites ids input).wait
  · refine .reserved _ hs hx hsel hw ?_ ?_
    · intro hb he
      rw [selectedTurnStart_begins, decide_eq_true_eq] at hb
      rw [hauto hb, lifecycle_selectWrites_self, ha] at he
      cases he
    · intro hl
      have hl' : turnType = .llm := hl
      subst hl'
      exact ⟨rfl, fun hp => lifecycle_reserve_llm p _ turnId ids none hp p⟩
  · rw [metadata_reserve]
    exact metadata_selectWrites input q
  · cases turnType with
    | automatic =>
      refine .inl ⟨fun s h => ?_, fun q => (hauto rfl q).trans (lifecycle_selectWrites input q)⟩
      rw [hs] at h
      cases h
      rfl
    | llm => exact .inr ⟨_, hs, rfl, fun hp q => lifecycle_reserve_llm p _ turnId ids none hp q⟩

/-- Unless the process stays active, in `discovered` or in `error`, a selection clears its execution. -/
theorem replaces_of_status {input : TurnSelectionWritesInput} (h : input.targetLifecycleStatus d p = .waiting ∨
    input.targetLifecycleStatus d p = .completed ∨ input.targetLifecycleStatus d p = .aborted) :
    input.replacesExecution d p = true := by
  unfold TurnSelectionWritesInput.replacesExecution
  rcases h with h | h | h <;> rw [h] <;> cases input.toTurnId <;> rfl

theorem turnSelectionWrites_spec (d : ProcessDefinition) (p : Process) (input : TurnSelectionWritesInput) (ids : FreshIds) :
    Selects d p ids input (turnSelectionWrites d p input ids) := by
  rw [turnSelectionWrites_eq]
  split
  · rename_i turnId hto ha
    split
    · rename_i turnType hw
      exact selects_reserve input hto ha hw (by simp [TurnSelectionWritesInput.replacesExecution, hto, ha, hw])
    · rename_i hw
      exact selects_keep input (by simp [TurnSelectionWritesInput.replacesExecution, hto, ha, hw])
  · rename_i hto
    exact selects_clear input (by simp [TurnSelectionWritesInput.replacesExecution, hto])
  · rename_i ha _
    exact selects_clear input (replaces_of_status (.inl ha))
  · rename_i ha _
    exact selects_clear input (replaces_of_status (.inr (.inl ha)))
  · rename_i ha _
    exact selects_clear input (replaces_of_status (.inr (.inr ha)))
  · rename_i turnId hto ha
    exact selects_keep input (by simp [TurnSelectionWritesInput.replacesExecution, hto, ha])
  · rename_i turnId hto ha
    exact selects_keep input (by simp [TurnSelectionWritesInput.replacesExecution, hto, ha])

/-- What an accepted selection decided. -/
theorem buildTurnSelectionWrites_ok {input : TurnSelectionWritesInput}
    (h : buildTurnSelectionWrites d p input ids = .ok w) :
    checkTurnSelection d p input = .ok () ∧ Selects d p ids input w := by
  unfold buildTurnSelectionWrites at h
  cases hc : checkTurnSelection d p input with
  | error e => rw [hc] at h; cases h
  | ok u =>
    rw [hc] at h
    cases h
    exact ⟨rfl, turnSelectionWrites_spec d p input ids⟩

end Leitwerk.Engine
