import Leitwerk.Engine.Steps
/-!
# Recovering

A recovery replaces a failed execution with a new start, of the failed record's turn
or of the failed start's.
-/

namespace Leitwerk.Engine

open Results (ok_of_bind)

variable {d : ProcessDefinition} {ctx : Context} {st : Store} {p : Process} {w v : Writes} {ids : FreshIds}

/-! ## Recovering -/

theorem not_live_of_record {r : TurnRecord} (h : st.currentTurnRecord = some r) (hr : r.status ≠ .running) :
    st.liveExecution = false := by
  obtain ⟨id, hid, -⟩ := Option.bind_eq_some_iff.1 h
  have hstart : startingExecution st = none := by
    unfold startingExecution
    unfold Store.currentTurnRecordId at hid
    cases hs : st.currentStart with
    | none => rfl
    | some s =>
      rw [hs] at hid
      dsimp only at hid ⊢
      split at hid
      · rename_i hst
        rw [hst]
      · cases hid
  unfold Store.liveExecution
  rw [hstart, h]
  simpa using hr

theorem not_live_of_failedStart {s : TurnStartRecord} (h : st.currentStart = some s)
    (hs : (retriedStartState s.state).isSome = true) : st.liveExecution = false := by
  unfold Store.liveExecution startingExecution Store.currentTurnRecord Store.currentTurnRecordId
  rw [h]
  cases hst : s.state with
  | starting start => rw [hst] at hs; cases hs
  | accepted start id lease => rw [hst] at hs; cases hs
  | preparationFailed failure => simp [hst]
  | bootstrapFailed start lease code summary => simp [hst]
  | superseded start => simp [hst]

/-- Writes that create one start and leave the process at it. -/
structure Recovers (p : Process) (turnId : TurnId) (s : TurnStartInput) (w : Writes) : Prop where
  starts : w.turnStartWrites = [.create s]
  turn : s.turnId = turnId
  current : (w.candidate p).currentExecution = some s.id
  selected : (w.candidate p).selectedTurnId = some turnId
  lifecycle : s.begins = true → (w.candidate p).lifecycleStatus = .active
  records : w.turnRecordWrites = []
  admission : w.waitForAdmission = none
  wait : (w.candidate p).metadata.turnWait = p.metadata.turnWait
  changed : w.changedFields ≠ []

theorem Recovers.apply {α : Type} {turnId : TurnId} {s : TurnStartInput} (h : Recovers p turnId s w) {f : Field α} (hf : f.Quiet)
    (q : Process) (x : α) : Recovers p turnId s (applyProcessPatchField w q f x) where
  starts := by rw [turnStartWrites_apply]; exact h.starts
  turn := h.turn
  current := (apply_other (·.currentExecution) hf.current x).trans h.current
  selected := (apply_other (·.selectedTurnId) hf.selected x).trans h.selected
  lifecycle hb := (apply_other (·.lifecycleStatus) hf.lifecycle x).trans (h.lifecycle hb)
  records := by rw [turnRecordWrites_apply]; exact h.records
  admission := by rw [waitForAdmission_apply]; exact h.admission
  wait := by rw [apply_other (·.metadata) hf.metadata x]; exact h.wait
  changed := changed_apply h.changed _

/-- The start a recovery creates. -/
def recoveryStart (failedRun : TurnRecord) (acceptedStart : TurnStartRecord) (recovery : Recovery) (ids : FreshIds) :
    TurnStartInput :=
  { id := ids.startId, turnId := failedRun.turnId, turnType := recovery.turnType
    proposedTurnRecordId := ids.turnRecordId, startKind := recovery.startKind
    recoveryTurnRecordId := some failedRun.id, continuation := recovery.continuation
    iteration := failedRun.iteration
    state := match recovery.turnType with
      | .automatic => .starting .automatic
      | .llm => .preparationFailed
        { requestedModelProfileId := failedRun.modelProfileId
          providerOptions := acceptedProviderOptions acceptedStart
          code := .modelRequired, safeSummary := "Model selection is pending recovery preparation"
          modelSelectionProvenance := some (failedRun.modelSelectionProvenance.getD ⟨.inherited, .legacyPersisted⟩) } }

theorem buildRecoveryStartWrites_spec (p : Process) (failedRun : TurnRecord) (acceptedStart : TurnStartRecord)
    (recovery : Recovery) (ids : FreshIds) :
    Recovers p failedRun.turnId (recoveryStart failedRun acceptedStart recovery ids)
        (buildRecoveryStartWrites p failedRun acceptedStart recovery ids) ∧
      ((buildRecoveryStartWrites p failedRun acceptedStart recovery ids).candidate p).metadata = p.metadata := by
  have hbase : ∀ {w : Writes}, w = applyProcessPatchField (applyProcessPatchField (applyProcessPatchField
      ({ turnStartWrites := [.create (recoveryStart failedRun acceptedStart recovery ids)]
         workerIntent := some .restartWorker } : Writes) p .selectedTurnId (some failedRun.turnId)) p .lifecycleStatus .active)
      p .currentExecution (some ids.startId) →
      Recovers p failedRun.turnId (recoveryStart failedRun acceptedStart recovery ids) w ∧
        (w.candidate p).metadata = p.metadata := by
    rintro w rfl
    refine ⟨⟨by simp, rfl, by simp; rfl, ?_, fun _ => ?_, by simp, by simp, ?_, changed_applyCurrent _ _ _⟩, ?_⟩
    · rw [selectedTurnId_applyCurrent, selectedTurnId_applyLifecycle]
      exact get_apply (f := Field.selectedTurnId) rfl _
    · rw [lifecycleStatus_applyCurrent]
      refine get_apply (f := Field.lifecycleStatus) ?_ _
      exact lifecycleStatus_applySelected _
    · rw [metadata_applyCurrent, metadata_applyLifecycle, metadata_applySelected]
      rfl
    · rw [metadata_applyCurrent, metadata_applyLifecycle, metadata_applySelected]
      rfl
  unfold buildRecoveryStartWrites
  dsimp only
  split
  · obtain ⟨hr, hm⟩ := hbase rfl
    refine ⟨((hr.apply quiet_modelProfileId p _).apply quiet_modelKind p _).apply quiet_modelSource p _, ?_⟩
    rw [apply_other (·.metadata) quiet_modelSource.metadata, apply_other (·.metadata) quiet_modelKind.metadata,
      apply_other (·.metadata) quiet_modelProfileId.metadata]
    exact hm
  · exact hbase rfl

/-- A recovery that also updates metadata other than the wait. -/
theorem Recovers.updateMetadata {turnId : TurnId} {s : TurnStartInput} (h : Recovers p turnId s w)
    (hm : (w.candidate p).metadata = p.metadata) (update : Metadata → Metadata)
    (hu : ∀ m, (update m).turnWait = m.turnWait) : Recovers p turnId s (updateProcessMetadata w p update) := by
  have hwait := metadata_updateProcessMetadata w p update hu hm
  unfold updateProcessMetadata applyMetadataPatch at *
  exact ⟨by rw [turnStartWrites_apply]; exact h.starts, h.turn, (currentExecution_applyMetadata _).trans h.current,
    (selectedTurnId_applyMetadata _).trans h.selected, fun hb => (lifecycleStatus_applyMetadata _).trans (h.lifecycle hb),
    by rw [turnRecordWrites_apply]; exact h.records, by rw [waitForAdmission_apply]; exact h.admission, hwait,
    changed_apply h.changed _⟩

theorem recovers_update (p : Process) (failedRun : TurnRecord) (acceptedStart : TurnStartRecord) (recovery : Recovery)
    (ids : FreshIds) (update : Metadata → Metadata) (hu : ∀ m, (update m).turnWait = m.turnWait) :
    Recovers p failedRun.turnId (recoveryStart failedRun acceptedStart recovery ids)
      (updateProcessMetadata (buildRecoveryStartWrites p failedRun acceptedStart recovery ids) p update) := by
  obtain ⟨hr, hm⟩ := buildRecoveryStartWrites_spec p failedRun acceptedStart recovery ids
  exact hr.updateMetadata hm update hu

theorem buildRetryWrites_ok {failedRun : TurnRecord} {acceptedStart : TurnStartRecord}
    (h : buildRetryWrites d p failedRun acceptedStart ids = .ok w) :
    ∃ recovery, Recovers p failedRun.turnId (recoveryStart failedRun acceptedStart recovery ids) w := by
  unfold buildRetryWrites at h
  split at h
  · cases h
  · cases h
    exact ⟨_, recovers_update p failedRun acceptedStart _ ids _ fun _ => rfl⟩

theorem buildContinueFailedTurnWrites_ok {failedRun : TurnRecord} {acceptedStart : TurnStartRecord}
    {continuation : TurnStartContinuation}
    (h : buildContinueFailedTurnWrites d p failedRun acceptedStart continuation ids = .ok w) :
    ∃ recovery, Recovers p failedRun.turnId (recoveryStart failedRun acceptedStart recovery ids) w := by
  unfold buildContinueFailedTurnWrites at h
  split at h
  · cases h
    exact ⟨_, recovers_update p failedRun acceptedStart _ ids _ fun _ => rfl⟩
  · cases h

theorem decided_recovery {exempt asked : TurnId → Prop} {replaces parks misroutes : Prop} {completes : String → Prop} {turnId : TurnId}
    {s : TurnStartInput} (h : Recovers st.process turnId s w) (hg : Gated d st.process)
    (hx : st.process.currentExecution.isSome = true) (hl : st.liveExecution = false) :
    Decided d ctx st exempt asked replaces parks misroutes completes w := by
  have hc : w.creates = [s] := by
    rw [Writes.creates, h.starts]
    rfl
  refine ⟨.reserved s (by rw [hc]; exact List.mem_singleton_self s) ?_ h.current (.inl (h.turn ▸ h.selected)) ?_,
    .inl (by rw [hc]; exact Nat.le_refl 1), waitOk_of_one (h.wait.trans (hg.wait_none hx)) hc fun hb => ?_, Tracked.of_changed h.changed,
    .leaves (by rw [Writes.casWrites, h.starts]; rfl) (logs_nil h.records) (.inl hl) fun h0 => ?_⟩
  · rw [Writes.llmCreates, hc, List.filter_singleton]
    simp
  · intro hb he
    rw [h.lifecycle hb] at he
    cases he
  · rw [h.lifecycle hb]
    decide
  · rw [hc] at h0
    cases h0

theorem current_isSome_of_start {s : TurnStartRecord} (h : st.currentStart = some s) :
    st.process.currentExecution.isSome = true := by
  obtain ⟨id, hid, -⟩ := Option.bind_eq_some_iff.1 h
  rw [hid]
  rfl

theorem decideRetryFailedTurn_ok {input : DecisionMetadata} {decision : Decision} {exempt asked : TurnId → Prop}
    {replaces parks misroutes : Prop} {completes : String → Prop} (h : decideRetryFailedTurn d ctx st input = .ok decision) (hg : Gated d st.process) :
    Decided d ctx st exempt asked replaces parks misroutes completes decision.writes := by
  unfold decideRetryFailedTurn at h
  split at h
  · rename_i currentStart failedRun hs hr
    split at h
    · cases h
    rename_i hfailed
    rw [ne_eq, not_not] at hfailed
    split at h
    · cases h
    obtain ⟨writes, hb, rfl⟩ := bind_ok h
    obtain ⟨_, hrec⟩ := buildRetryWrites_ok hb
    exact decided_recovery hrec hg (current_isSome_of_start hs) (not_live_of_record hr (by rw [hfailed]; nofun))
  · cases h

theorem decideContinueFailedTurn_ok {turnRecordId : String} {prompt : Option String} {input : DecisionMetadata}
    {decision : Decision} {exempt asked : TurnId → Prop} {replaces parks misroutes : Prop} {completes : String → Prop}
    (h : decideContinueFailedTurn d ctx st turnRecordId prompt input = .ok decision) (hg : Gated d st.process) :
    Decided d ctx st exempt asked replaces parks misroutes completes decision.writes := by
  unfold decideContinueFailedTurn at h
  split at h
  · cases h
  split at h
  · cases h
  split at h
  · rename_i acceptedStart failedRun hs hr
    split at h
    · cases h
    rename_i hfailed
    rw [ne_eq, not_not] at hfailed
    split at h
    · cases h
    split at h
    · split at h
      · cases h
      obtain ⟨writes, hb, rfl⟩ := bind_ok h
      obtain ⟨_, hrec⟩ := buildContinueFailedTurnWrites_ok hb
      exact decided_recovery hrec hg (current_isSome_of_start hs) (not_live_of_record hr (by rw [hfailed]; nofun))
    · cases h
    · cases h
  · cases h

/-! ## Retrying a startup -/

/-- The turn of the current start: a startup retry repeats it, whichever turn is selected. -/
def currentTurn (st : Store) (turnId : TurnId) : Prop := ∃ s, st.currentStart = some s ∧ s.turnId = turnId

theorem startupRetryTarget_ok {startRecordId : String} {failed : TurnStartRecord} {state : InitialStartState}
    (h : startupRetryTarget st startRecordId = .ok (failed, state)) :
    st.currentStart = some failed ∧ st.process.lifecycleStatus = .error ∧ retriedStartState failed.state = some state ∧
      st.process.currentExecution = some startRecordId := by
  unfold startupRetryTarget at h
  split at h
  · cases h
  rename_i hguard
  rw [not_or, not_not, not_not] at hguard
  split at h
  · rename_i s hs
    split at h
    · rename_i state' hst
      cases h
      exact ⟨by rw [Store.currentStart, hguard.2]; exact hs, hguard.1, hst, hguard.2⟩
    · cases h
  · cases h

theorem decideRetryStartup_ok {input : RetryStartupInput} {decision : Decision} {asked : TurnId → Prop}
    {replaces parks misroutes : Prop} {completes : String → Prop} (h : decideRetryStartup ctx st input = .ok decision) (hg : Gated d st.process) :
    Decided d ctx st (currentTurn st) asked replaces parks misroutes completes decision.writes := by
  unfold decideRetryStartup at h
  cases ht : startupRetryTarget st input.startRecordId with
  | error e => rw [ht] at h; cases h
  | ok target =>
    obtain ⟨failed, state⟩ := target
    obtain ⟨hs, -, hst, -⟩ := startupRetryTarget_ok ht
    rw [ht] at h
    cases h
    generalize hstart : retriedStart failed state input.automaticRetry (ctx.fresh 0) = start
    have hturn : start.turnId = failed.turnId := by rw [← hstart]; rfl
    have hbegins : start.begins = state.begins := by rw [← hstart]; rfl
    have hx := current_isSome_of_start hs
    have hl := not_live_of_failedStart hs (by rw [hst]; rfl)
    have hlife : start.begins = true → ((applyProcessPatchField (applyProcessPatchField
        { turnStartWrites := [.create start], workerIntent := if state.begins then some .restartWorker else none } st.process
        .currentExecution (some start.id)) st.process .lifecycleStatus
        (if state.begins then .active else .error)).candidate st.process).lifecycleStatus ≠ .error := by
      intro hb he
      rw [← hbegins, hb, if_pos rfl] at he
      have hactive := get_apply (f := Field.lifecycleStatus) (p := st.process) (q := st.process)
        (w := applyProcessPatchField { turnStartWrites := [.create start], workerIntent := some .restartWorker } st.process
          .currentExecution (some start.id)) (lifecycleStatus_applyCurrent _) LifecycleStatus.active
      cases hactive.symm.trans he
    refine ⟨.reserved start ?_ ?_ ?_ (.inr ⟨⟨failed, hs, hturn.symm⟩, hx, ?_, ?_⟩) fun hb he => absurd he (hlife hb), ?_,
      waitOk_of_one ?_ (by simp [Writes.creates]) hlife, ?_, .leaves ?_ (logs_nil ?_) (.inl hl) ?_⟩
    · simp [Writes.creates]
    · simp [Writes.llmCreates, Writes.creates, List.filter_singleton]
    · simp
    · simp [Writes.creates]
    · rw [selectedTurnId_applyLifecycle, selectedTurnId_applyCurrent]
      rfl
    · left
      simp [Writes.creates]
    · rw [metadata_applyLifecycle, metadata_applyCurrent]
      exact hg.wait_none hx
    · exact Tracked.of_changed (changed_apply (changed_applyCurrent _ _ _) _)
    · simp [Writes.casWrites]
    · simp
    · intro h0
      simp [Writes.creates] at h0

theorem decideAutomaticRetryStartup_ok {startRecordId : String} {decision : Decision} {asked : TurnId → Prop}
    {replaces parks misroutes : Prop} {completes : String → Prop} (h : decideAutomaticRetryStartup ctx st startRecordId = .ok decision)
    (hg : Gated d st.process) : Decided d ctx st (currentTurn st) asked replaces parks misroutes completes decision.writes := by
  unfold decideAutomaticRetryStartup at h
  obtain ⟨⟨start, state⟩, ht, h⟩ := ok_of_bind h
  obtain ⟨hs, -, hst, hcur⟩ := startupRetryTarget_ok ht
  dsimp only at h
  split at h
  · exact decideRetryStartup_ok h hg
  split at h
  · cases h
    exact decided_nothing hg
  · cases h
    exact ⟨.kept rfl rfl, .inl (Nat.zero_le 1), waitOk_of_kept hg rfl rfl,
      Tracked.of_changed (addField_ne_nil [] "currentExecution"),
      .reschedules start _ hs (by rw [hst]; rfl) rfl rfl rfl rfl⟩

end Leitwerk.Engine
