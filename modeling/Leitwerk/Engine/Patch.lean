import Leitwerk.Engine.Record
import Leitwerk.Lib.Results
/-!
# What patches do to a process

The small lemmas of `Writes`: the process a patch leaves, field by field, the
starts the writes create, and what merging does to both. `SameMove` relates
writes that differ only in what the engine's invariants never read (parameters,
state, references, the model selection).
-/

namespace Leitwerk.Engine

variable {α β : Type} {f : Field α} {p q : Process} {w v : Writes}

/-! ## One field -/

@[simp] theorem candidate_empty (p : Process) : ({} : Writes).candidate p = p := rfl

@[simp] theorem candidate_put (w : Writes) (f : Field α) (v : α) (p : Process) :
    (w.put f v).candidate p = f.set v (w.candidate p) := f.apply_put _ _ _

/-- Patching a field leaves whatever it does not set. -/
theorem apply_other (g : Process → β) (hg : ∀ x r, g (f.set x r) = g r) (x : α) :
    g ((applyProcessPatchField w q f x).candidate p) = g (w.candidate p) := by
  unfold applyProcessPatchField
  split
  · rfl
  · rw [candidate_put, hg]

/-- A field patched for the first time has the value it was given. -/
theorem get_apply (h : f.get (w.candidate p) = f.get q) (x : α) :
    f.get ((applyProcessPatchField w q f x).candidate p) = x := by
  unfold applyProcessPatchField
  split
  · rename_i hs
    rw [h, f.same_eq _ _ hs]
  · rw [candidate_put, f.get_set]

/-- A patched field has the value it was given, or keeps one equal to the process's. -/
theorem get_apply_or (x : α) :
    f.get ((applyProcessPatchField w q f x).candidate p) = x ∨
      x = f.get q ∧ applyProcessPatchField w q f x = w := by
  unfold applyProcessPatchField
  split
  · rename_i hs
    exact .inr ⟨(f.same_eq _ _ hs).symm, rfl⟩
  · left
    rw [candidate_put, f.get_set]

section
variable (x : LifecycleStatus)

@[simp] theorem selectedTurnId_applyLifecycle : ((applyProcessPatchField w q .lifecycleStatus x).candidate p).selectedTurnId =
    (w.candidate p).selectedTurnId := apply_other (·.selectedTurnId) (fun _ _ => rfl) x

@[simp] theorem currentExecution_applyLifecycle :
    ((applyProcessPatchField w q .lifecycleStatus x).candidate p).currentExecution = (w.candidate p).currentExecution :=
  apply_other (·.currentExecution) (fun _ _ => rfl) x

@[simp] theorem metadata_applyLifecycle : ((applyProcessPatchField w q .lifecycleStatus x).candidate p).metadata =
    (w.candidate p).metadata := apply_other (·.metadata) (fun _ _ => rfl) x
end

section
variable (x : Option TurnId)

@[simp] theorem lifecycleStatus_applySelected :
    ((applyProcessPatchField w q .selectedTurnId x).candidate p).lifecycleStatus = (w.candidate p).lifecycleStatus :=
  apply_other (·.lifecycleStatus) (fun _ _ => rfl) x

@[simp] theorem currentExecution_applySelected :
    ((applyProcessPatchField w q .selectedTurnId x).candidate p).currentExecution = (w.candidate p).currentExecution :=
  apply_other (·.currentExecution) (fun _ _ => rfl) x

@[simp] theorem metadata_applySelected : ((applyProcessPatchField w q .selectedTurnId x).candidate p).metadata =
    (w.candidate p).metadata := apply_other (·.metadata) (fun _ _ => rfl) x
end

section
variable (x : Option String)

@[simp] theorem lifecycleStatus_applyCurrent :
    ((applyProcessPatchField w q .currentExecution x).candidate p).lifecycleStatus = (w.candidate p).lifecycleStatus :=
  apply_other (·.lifecycleStatus) (fun _ _ => rfl) x

@[simp] theorem selectedTurnId_applyCurrent :
    ((applyProcessPatchField w q .currentExecution x).candidate p).selectedTurnId = (w.candidate p).selectedTurnId :=
  apply_other (·.selectedTurnId) (fun _ _ => rfl) x

@[simp] theorem metadata_applyCurrent : ((applyProcessPatchField w q .currentExecution x).candidate p).metadata =
    (w.candidate p).metadata := apply_other (·.metadata) (fun _ _ => rfl) x

/-- A reference to an execution is always written. -/
@[simp] theorem currentExecution_applyCurrent_some (id : String) :
    ((applyProcessPatchField w q .currentExecution (some id)).candidate p).currentExecution = some id := by
  simp [applyProcessPatchField, Field.currentExecution]
end

section
variable (x : Metadata)

@[simp] theorem lifecycleStatus_applyMetadata :
    ((applyProcessPatchField w q .metadata x).candidate p).lifecycleStatus = (w.candidate p).lifecycleStatus :=
  apply_other (·.lifecycleStatus) (fun _ _ => rfl) x

@[simp] theorem selectedTurnId_applyMetadata :
    ((applyProcessPatchField w q .metadata x).candidate p).selectedTurnId = (w.candidate p).selectedTurnId :=
  apply_other (·.selectedTurnId) (fun _ _ => rfl) x

@[simp] theorem currentExecution_applyMetadata :
    ((applyProcessPatchField w q .metadata x).candidate p).currentExecution = (w.candidate p).currentExecution :=
  apply_other (·.currentExecution) (fun _ _ => rfl) x
end

/-- An update of other metadata than the wait. -/
theorem metadata_updateProcessMetadata (w : Writes) (p : Process) (update : Metadata → Metadata)
    (hu : ∀ m, (update m).turnWait = m.turnWait) (hw : (w.candidate p).metadata = p.metadata) :
    ((updateProcessMetadata w p update).candidate p).metadata.turnWait = p.metadata.turnWait := by
  rw [updateProcessMetadata, applyMetadataPatch]
  rw [show ((applyProcessPatchField w p Field.metadata (update p.metadata)).candidate p).metadata = update p.metadata from
    get_apply (f := Field.metadata) hw _]
  exact hu _

/-! ## The columns a patch leaves -/

theorem candidate_selected (w : Writes) (p : Process) :
    (w.candidate p).selectedTurnId = w.processPatch.selectedTurnId.getD p.selectedTurnId := rfl

theorem candidate_current (w : Writes) (p : Process) :
    (w.candidate p).currentExecution = w.processPatch.currentExecution.getD p.currentExecution := rfl

theorem candidate_lifecycle (w : Writes) (p : Process) :
    (w.candidate p).lifecycleStatus = w.processPatch.lifecycleStatus.getD p.lifecycleStatus := rfl

theorem candidate_metadata (w : Writes) (p : Process) :
    (w.candidate p).metadata = w.processPatch.metadata.getD p.metadata := rfl

/-- A lifecycle status the process has already is not written, so another write's stays. -/
theorem lifecycle_apply (hw : w.processPatch.lifecycleStatus = none) (p q : Process) (x : LifecycleStatus) :
    ((applyProcessPatchField w p .lifecycleStatus x).candidate q).lifecycleStatus =
      if x = p.lifecycleStatus then q.lifecycleStatus else x := by
  unfold applyProcessPatchField
  by_cases h : x = p.lifecycleStatus
  · rw [if_pos (by simp [Field.lifecycleStatus, h]), if_pos h, candidate_lifecycle, hw]
    rfl
  · rw [if_neg (by simpa [Field.lifecycleStatus] using Ne.symm h), if_neg h, candidate_put]
    rfl

/-! ## The other writes -/

section
variable (w : Writes) (q : Process) (f : Field α) (x : α)

@[simp] theorem turnStartWrites_apply : (applyProcessPatchField w q f x).turnStartWrites = w.turnStartWrites := by
  unfold applyProcessPatchField; split <;> rfl

@[simp] theorem turnRecordWrites_apply : (applyProcessPatchField w q f x).turnRecordWrites = w.turnRecordWrites := by
  unfold applyProcessPatchField; split <;> rfl

@[simp] theorem waitForAdmission_apply : (applyProcessPatchField w q f x).waitForAdmission = w.waitForAdmission := by
  unfold applyProcessPatchField; split <;> rfl

@[simp] theorem turnStartWrites_put : (w.put f x).turnStartWrites = w.turnStartWrites := rfl

@[simp] theorem turnRecordWrites_put : (w.put f x).turnRecordWrites = w.turnRecordWrites := rfl

@[simp] theorem creates_apply : (applyProcessPatchField w q f x).creates = w.creates := by
  simp [Writes.creates]

@[simp] theorem creates_put : (w.put f x).creates = w.creates := rfl
end

theorem creates_of_starts (h : w.turnStartWrites = v.turnStartWrites) : w.creates = v.creates := by
  simp [Writes.creates, h]

theorem mem_creates {s : TurnStartInput} : s ∈ w.creates ↔ .create s ∈ w.turnStartWrites := by
  constructor
  · intro h
    obtain ⟨x, hx, hs⟩ := List.mem_filterMap.1 h
    cases x with
    | create s' => cases hs; exact hx
    | casState => cases hs
  · intro h
    exact List.mem_filterMap.2 ⟨_, h, rfl⟩

/-! ## Merging -/

theorem candidate_merge (w v : Writes) (p : Process) : (mergeWrites w v).candidate p = v.candidate (w.candidate p) := by
  simp only [mergeWrites, Writes.candidate, ProcessPatch.assign, ProcessPatch.apply, Option.getD_or]

@[simp] theorem creates_merge (w v : Writes) : (mergeWrites w v).creates = w.creates ++ v.creates :=
  List.filterMap_append

@[simp] theorem turnStartWrites_merge (w v : Writes) :
    (mergeWrites w v).turnStartWrites = w.turnStartWrites ++ v.turnStartWrites := rfl

@[simp] theorem turnRecordWrites_merge (w v : Writes) :
    (mergeWrites w v).turnRecordWrites = w.turnRecordWrites ++ v.turnRecordWrites := rfl

@[simp] theorem waitForAdmission_merge (w v : Writes) :
    (mergeWrites w v).waitForAdmission = v.waitForAdmission.or w.waitForAdmission := rfl

/-! ## Writes that move the process alike -/

/-- `v` moves a process, its starts and its records as `w` does. -/
structure SameMove (w v : Writes) : Prop where
  lifecycle : ∀ p, (v.candidate p).lifecycleStatus = (w.candidate p).lifecycleStatus
  selected : ∀ p, (v.candidate p).selectedTurnId = (w.candidate p).selectedTurnId
  current : ∀ p, (v.candidate p).currentExecution = (w.candidate p).currentExecution
  metadata : ∀ p, (v.candidate p).metadata = (w.candidate p).metadata
  starts : v.turnStartWrites = w.turnStartWrites
  records : v.turnRecordWrites = w.turnRecordWrites
  admission : v.waitForAdmission = w.waitForAdmission

theorem SameMove.refl : SameMove w w := ⟨fun _ => rfl, fun _ => rfl, fun _ => rfl, fun _ => rfl, rfl, rfl, rfl⟩

theorem SameMove.trans {u : Writes} (h : SameMove w v) (h' : SameMove v u) : SameMove w u where
  lifecycle p := (h'.lifecycle p).trans (h.lifecycle p)
  selected p := (h'.selected p).trans (h.selected p)
  current p := (h'.current p).trans (h.current p)
  metadata p := (h'.metadata p).trans (h.metadata p)
  starts := h'.starts.trans h.starts
  records := h'.records.trans h.records
  admission := h'.admission.trans h.admission

/-- A field no invariant reads. -/
structure Field.Quiet (f : Field α) : Prop where
  lifecycle : ∀ x r, (f.set x r).lifecycleStatus = r.lifecycleStatus
  selected : ∀ x r, (f.set x r).selectedTurnId = r.selectedTurnId
  current : ∀ x r, (f.set x r).currentExecution = r.currentExecution
  metadata : ∀ x r, (f.set x r).metadata = r.metadata

theorem SameMove.apply (hf : f.Quiet) (x : α) : SameMove w (applyProcessPatchField w q f x) where
  lifecycle _ := apply_other (·.lifecycleStatus) hf.lifecycle x
  selected _ := apply_other (·.selectedTurnId) hf.selected x
  current _ := apply_other (·.currentExecution) hf.current x
  metadata _ := apply_other (·.metadata) hf.metadata x
  starts := by simp
  records := by simp
  admission := by simp

theorem quiet_stateJson : Field.stateJson.Quiet := ⟨fun _ _ => rfl, fun _ _ => rfl, fun _ _ => rfl, fun _ _ => rfl⟩
theorem quiet_paramsJson : Field.paramsJson.Quiet := ⟨fun _ _ => rfl, fun _ _ => rfl, fun _ _ => rfl, fun _ _ => rfl⟩
theorem quiet_planRevision : Field.planRevision.Quiet := ⟨fun _ _ => rfl, fun _ _ => rfl, fun _ _ => rfl, fun _ _ => rfl⟩
theorem quiet_externalId : Field.externalId.Quiet := ⟨fun _ _ => rfl, fun _ _ => rfl, fun _ _ => rfl, fun _ _ => rfl⟩
theorem quiet_externalUrl : Field.externalUrl.Quiet := ⟨fun _ _ => rfl, fun _ _ => rfl, fun _ _ => rfl, fun _ _ => rfl⟩
theorem quiet_modelProfileId : Field.selectedTurnModelProfileId.Quiet :=
  ⟨fun _ _ => rfl, fun _ _ => rfl, fun _ _ => rfl, fun _ _ => rfl⟩
theorem quiet_modelKind : Field.selectedTurnModelKind.Quiet :=
  ⟨fun _ _ => rfl, fun _ _ => rfl, fun _ _ => rfl, fun _ _ => rfl⟩
theorem quiet_modelSource : Field.selectedTurnModelSource.Quiet :=
  ⟨fun _ _ => rfl, fun _ _ => rfl, fun _ _ => rfl, fun _ _ => rfl⟩

theorem SameMove.creates (h : SameMove w v) : v.creates = w.creates := creates_of_starts h.starts

theorem SameMove.modelSelection (q : Process) (modelProfileId : Option String) (provenance : Option ModelSelectionProvenance) :
    SameMove w (writeModelSelection w q modelProfileId provenance) :=
  ((SameMove.apply quiet_modelProfileId _).trans (SameMove.apply quiet_modelKind _)).trans
    (SameMove.apply quiet_modelSource _)

/-- Merging in writes that move nothing. -/
theorem SameMove.merge (h : SameMove {} v) : SameMove w (mergeWrites w v) where
  lifecycle p := by rw [candidate_merge]; exact h.lifecycle _
  selected p := by rw [candidate_merge]; exact h.selected _
  current p := by rw [candidate_merge]; exact h.current _
  metadata p := by rw [candidate_merge]; exact h.metadata _
  starts := by rw [turnStartWrites_merge, h.starts]; exact List.append_nil _
  records := by rw [turnRecordWrites_merge, h.records]; exact List.append_nil _
  admission := by rw [waitForAdmission_merge, h.admission]; rfl

/-- Writes that only move a process on, merged behind writes that move nothing. -/
theorem SameMove.merge_left (h : SameMove {} v) : SameMove w (mergeWrites v w) where
  lifecycle p := by
    rw [candidate_merge]
    exact congrArg w.processPatch.lifecycleStatus.getD (h.lifecycle p)
  selected p := by
    rw [candidate_merge]
    exact congrArg w.processPatch.selectedTurnId.getD (h.selected p)
  current p := by
    rw [candidate_merge]
    exact congrArg w.processPatch.currentExecution.getD (h.current p)
  metadata p := by
    rw [candidate_merge]
    exact congrArg w.processPatch.metadata.getD (h.metadata p)
  starts := by rw [turnStartWrites_merge, h.starts]; exact List.nil_append _
  records := by rw [turnRecordWrites_merge, h.records]; exact List.nil_append _
  admission := by rw [waitForAdmission_merge, h.admission]; exact Option.or_none

/-- Three writes merged either way. -/
theorem sameMove_assoc (u w v : Writes) : SameMove (mergeWrites u (mergeWrites w v)) (mergeWrites (mergeWrites u w) v) := by
  have hc : ∀ p, (mergeWrites (mergeWrites u w) v).candidate p = (mergeWrites u (mergeWrites w v)).candidate p := by
    intro p
    rw [candidate_merge, candidate_merge, candidate_merge, candidate_merge]
  exact ⟨fun p => congrArg _ (hc p), fun p => congrArg _ (hc p), fun p => congrArg _ (hc p), fun p => congrArg _ (hc p),
    List.append_assoc _ _ _, List.append_assoc _ _ _, Option.or_assoc.symm⟩

/-! ## Writes that list what they change -/

/-- Writes that list no changed field leave the process alone and start nothing, so committing
them without the patch loses nothing. -/
def Tracked (p : Process) (w : Writes) : Prop := w.changedFields = [] → w.candidate p = p ∧ w.creates = []

theorem addField_ne_nil (fields : List String) (field : String) : addField fields field ≠ [] := by
  unfold addField
  split
  · rename_i h
    intro h0
    rw [h0] at h
    cases h
  · simp

theorem tracked_empty (w : Writes) (hp : w.processPatch = {}) (hs : w.turnStartWrites = []) : Tracked p w :=
  fun _ => ⟨by simp only [Writes.candidate, hp]; rfl, by simp [Writes.creates, hs]⟩

theorem Tracked.put (w : Writes) (x : α) : Tracked p (w.put f x) := fun h => absurd h (addField_ne_nil _ _)

theorem Tracked.apply (h : Tracked p w) (x : α) : Tracked p (applyProcessPatchField w q f x) := by
  unfold applyProcessPatchField
  split
  · exact h
  · exact Tracked.put w x

/-- A write of the current execution is always listed. -/
theorem changed_applyCurrent (w : Writes) (q : Process) (id : String) :
    (applyProcessPatchField w q .currentExecution (some id)).changedFields ≠ [] := by
  simp [applyProcessPatchField, Field.currentExecution, Writes.put, addField_ne_nil]

theorem changed_apply (h : w.changedFields ≠ []) (x : α) : (applyProcessPatchField w q f x).changedFields ≠ [] := by
  unfold applyProcessPatchField
  split
  · exact h
  · exact addField_ne_nil _ _

theorem Tracked.of_changed (h : w.changedFields ≠ []) : Tracked p w := fun h' => absurd h' h

theorem foldl_addField_nil {fields l : List String} (h : l.foldl addField fields = []) : fields = [] ∧ l = [] := by
  induction l generalizing fields with
  | nil => exact ⟨h, rfl⟩
  | cons x l ih => exact absurd (ih h).1 (addField_ne_nil _ _)

/-- Two tracked writes merge to tracked ones, whether the second was decided on the process or
on what the first left of it. -/
theorem Tracked.merge (hw : Tracked p w) (hv : Tracked p v ∨ Tracked (w.candidate p) v) : Tracked p (mergeWrites w v) := by
  intro h
  obtain ⟨hw0, hv0⟩ := foldl_addField_nil h
  obtain ⟨hp, hc⟩ := hw hw0
  rw [candidate_merge, creates_merge, hp, hc]
  rcases hv with hv | hv
  · exact ⟨(hv hv0).1, (hv hv0).2⟩
  · rw [hp] at hv
    exact ⟨(hv hv0).1, (hv hv0).2⟩

/-! ## What a preparation does -/

/-- What preflight leaves of a write set, in an engine that has it or not. -/
inductive Preflighted (ctx : Context) (p : Process) (u v : Writes) : Prop
  | skipped (hp : ctx.preflight = none) (hv : v = u)
  | prepared (preflight : Process → TurnStartInput → PreflightVerdict) (hp : ctx.preflight = some preflight)
      (hv : prepareTurnStarts preflight (u.candidate p) [] u u.turnStartWrites = .ok v)

/-- What `runModelPreparation` leaves: the starts are prepared, maybe after a selection, or the
LLM start is parked. -/
inductive ModelPrepared (ctx : Context) (p : Process) (w v : Writes) : Prop
  | kept (h : Preflighted ctx p w v)
  | selected (modelProfileId : Option String) (provenance : Option ModelSelectionProvenance)
      (h : Preflighted ctx p (writeModelSelection w p modelProfileId provenance) v)
  | parked (s : TurnStartInput) (hs : w.createdLlmStart = some s) (summary : String)
      (hv : v = parkInvalidModelConfiguration w (w.candidate p) summary)

theorem runModelPreparation_ok {d : ProcessDefinition} {ctx : Context} {metadata : Option DecisionMetadata}
    (h : runModelPreparation d ctx p metadata w = .ok v) : ModelPrepared ctx p w v := by
  unfold runModelPreparation at h
  dsimp only at h
  split at h
  · split at h
    · rename_i preflight hp
      exact .selected none none (.prepared preflight hp h)
    · rename_i hp
      exact .selected none none (.skipped hp (Except.ok.inj h).symm)
  split at h
  · split at h
    · rename_i id provenance _
      split at h
      · rename_i preflight hp
        exact .selected id provenance (.prepared preflight hp h)
      · rename_i hp
        exact .selected id provenance (.skipped hp (Except.ok.inj h).symm)
    · rename_i why _
      split at h
      · rename_i hsome
        obtain ⟨s, hs⟩ := Option.isSome_iff_exists.1 hsome
        exact .parked s hs why.message (Except.ok.inj h).symm
      · cases h
  · split at h
    · rename_i preflight hp
      exact .kept (.prepared preflight hp h)
    · rename_i hp
      exact .kept (.skipped hp (Except.ok.inj h).symm)

/-- The steps of a recorder's preparation, each of which went on. -/
theorem prepareWrites_steps {d : ProcessDefinition} {ctx : Context} {st : Store} {decision : Decision}
    (h : prepareWrites d ctx st decision = .ok v) :
    ∃ w₂ w₄, planMappedTurnEntries d ctx st
        (deferTurnWaitStarts d st.process decision.metadata ctx.waitId decision.writes) = .ok w₂ ∧
      runModelPreparation d ctx st.process decision.metadata
        (deferTurnWaitStarts d st.process decision.metadata ctx.waitId w₂) = .ok w₄ ∧ v = startEpisodes w₄ := by
  obtain ⟨w₂, hw₂, h⟩ := Results.ok_of_bind h
  obtain ⟨w₄, hw₄, h⟩ := Results.ok_of_bind h
  exact ⟨w₂, w₄, hw₂, hw₄, (Except.ok.inj h).symm⟩

end Leitwerk.Engine
