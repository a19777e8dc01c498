import Leitwerk.Engine.Steps
/-!
# Turn waits

A process that waits has no execution. A check of its condition reschedules the wait,
ends the process or admits the start that was put off.
-/

namespace Leitwerk.Engine

open Results (ok_of_bind)

variable {d : ProcessDefinition} {ctx : Context} {st : Store} {p : Process} {w v : Writes} {ids : FreshIds}

/-! ## Turn waits -/

theorem currentTurnWait_ok {input : ResolveTurnWaitInput} {wait : PendingTurnWait} (h : currentTurnWait st input = .ok wait) :
    st.process.metadata.turnWait = some wait ∧ wait.id = input.waitId ∧ wait.revision = input.revision ∧
      st.process.selectedTurnId = some wait.turnId ∧ st.process.lifecycleStatus = .waiting ∧
      st.process.paramsJson = input.paramsJson ∧ st.process.stateJson = input.stateJson ∧
      st.projects = input.projectsJson := by
  unfold currentTurnWait at h
  split at h
  · rename_i x hx
    split at h
    · rename_i hcur
      cases h
      exact ⟨hx, hcur⟩
    · cases h
  · cases h

section
variable {exempt asked : TurnId → Prop} {replaces parks misroutes : Prop} {completes : String → Prop}

/-- Writes on a process without an execution that leave it where it is, with no other wait. -/
theorem decided_waiting (hg : Gated d st.process) (hx : st.process.currentExecution = none) (hs : w.turnStartWrites = [])
    (hr : w.turnRecordWrites = []) (hcur : (w.candidate st.process).currentExecution = none) (ht : Tracked st.process w)
    (hw : ∀ x, (w.candidate st.process).metadata.turnWait = some x →
      ∃ y, st.process.metadata.turnWait = some y ∧ y.turnId = x.turnId) :
    Decided d ctx st exempt asked replaces parks misroutes completes w := by
  refine ⟨.kept (creates_nil hs) (hcur.trans hx.symm), .inl (by rw [creates_nil hs]; exact Nat.zero_le 1), ?_, ht,
    .leaves (by rw [Writes.casWrites, hs]; rfl) (logs_nil hr) (.inl (liveExecution_none hx)) fun _ => hcur⟩
  refine ⟨fun x hwx => ?_, fun hsome => ?_, fun s hmem => ?_⟩
  · obtain ⟨y, hy, hturn⟩ := hw x hwx
    rw [← hturn]
    exact (hg y hy).1
  · obtain ⟨x, hwx⟩ := Option.isSome_iff_exists.1 hsome
    obtain ⟨y, hy, -⟩ := hw x hwx
    rw [hy]
    rfl
  · rw [creates_nil hs] at hmem
    cases hmem

/-- A wait written over another of its turn. -/
theorem wait_writeTurnWait_same {wait wait' : PendingTurnWait} (hp : p.metadata.turnWait = some wait)
    (hturn : wait'.turnId = wait.turnId)
    (hw : ∀ x, (w.candidate p).metadata.turnWait = some x → ∃ y, p.metadata.turnWait = some y ∧ y.turnId = x.turnId) :
    ∀ x, ((writeTurnWait w p (some wait')).candidate p).metadata.turnWait = some x →
      ∃ y, p.metadata.turnWait = some y ∧ y.turnId = x.turnId := by
  intro x hx
  rcases wait_writeTurnWait w p (some wait') with h | h
  · rw [h] at hx
    cases hx
    exact ⟨wait, hp, hturn.symm⟩
  · rw [h] at hx
    exact hw x hx

theorem wait_of_sameMove (h : SameMove {} w) : ∀ x, (w.candidate p).metadata.turnWait = some x →
    ∃ y, p.metadata.turnWait = some y ∧ y.turnId = x.turnId := by
  intro x hx
  rw [h.metadata] at hx
  exact ⟨x, hx, rfl⟩

/-- Clearing a wait that is there. -/
theorem wait_cleared {wait : PendingTurnWait} (hp : p.metadata.turnWait = some wait) (w : Writes) :
    ((writeTurnWait w p none).candidate p).metadata.turnWait = none := by
  rcases candidate_writeTurnWait w p none with h | ⟨-, h⟩
  · rw [h]
  · rw [h] at hp
    cases hp

theorem decided_bind {wait : PendingTurnWait} {binding : InitialBinding} (hg : Gated d st.process)
    (hp : st.process.metadata.turnWait = some wait) (hm : SameMove {} v) (ht : Tracked st.process v)
    (h : bindTurnWait st wait binding v = .ok w) : Decided d ctx st exempt asked replaces parks misroutes completes w := by
  have hx := (hg wait hp).2
  unfold bindTurnWait at h
  dsimp only at h
  split at h
  · cases h
  split at h
  · cases h
  · cases h
    have hparams : SameMove {} (applyProcessPatchField v st.process .paramsJson (some binding.paramsJson)) :=
      hm.trans (.apply quiet_paramsJson _)
    have htp : Tracked st.process (applyProcessPatchField v st.process .paramsJson (some binding.paramsJson)) := ht.apply _
    generalize applyProcessPatchField v st.process .paramsJson (some binding.paramsJson) = u at hparams htp
    refine decided_waiting hg hx ?_ ?_ ?_ ?_ (wait_writeTurnWait_same hp rfl fun x hwx => ?_)
    · rw [starts_writeTurnWait]
      exact (turnStartWrites_apply _ _ _ _).trans hparams.starts
    · rw [records_writeTurnWait]
      exact (turnRecordWrites_apply _ _ _ _).trans hparams.records
    · rw [current_writeTurnWait]
      exact (currentExecution_applyMetadata _).trans ((hparams.current _).trans hx)
    · exact tracked_writeTurnWait _ _ _ (htp.apply _)
    · have hmeta : ((applyProcessPatchField u st.process .metadata
          { st.process.metadata with entries := mergeEntries st.process.metadata.entries binding.metadata }).candidate
            st.process).metadata =
          { st.process.metadata with entries := mergeEntries st.process.metadata.entries binding.metadata } :=
        get_apply (f := Field.metadata) (hparams.metadata _) _
      refine ⟨x, ?_, rfl⟩
      rw [← hwx]
      exact (congrArg Metadata.turnWait hmeta).symm

theorem decided_reschedule (input : ResolveTurnWaitInput) {wait : PendingTurnWait} (retry error : Bool)
    (hg : Gated d st.process) (hp : st.process.metadata.turnWait = some wait) (hm : SameMove {} v) (ht : Tracked st.process v) :
    Decided d ctx st exempt asked replaces parks misroutes completes (rescheduleTurnWait st input wait retry error v) := by
  have hx := (hg wait hp).2
  unfold rescheduleTurnWait
  dsimp only
  have hbase : ∀ wait', wait'.turnId = wait.turnId →
      Decided d ctx st exempt asked replaces parks misroutes completes (writeTurnWait v st.process (some wait')) ∧
      Decided d ctx st exempt asked replaces parks misroutes completes
        (applyProcessPatchField (writeTurnWait v st.process (some wait')) st.process .lifecycleStatus .error) := by
    intro wait' hturn
    have hwait := wait_writeTurnWait_same hp hturn (wait_of_sameMove (p := st.process) hm)
    have hs := (starts_writeTurnWait v st.process (some wait')).trans hm.starts
    have hr := (records_writeTurnWait v st.process (some wait')).trans hm.records
    have hcur : ((writeTurnWait v st.process (some wait')).candidate st.process).currentExecution = none :=
      (current_writeTurnWait v st.process (some wait') st.process).trans ((hm.current _).trans hx)
    have htr := tracked_writeTurnWait v st.process (some wait') ht
    refine ⟨decided_waiting hg hx hs hr hcur htr hwait, decided_waiting hg hx ?_ ?_ ?_ (htr.apply _) ?_⟩
    · rw [turnStartWrites_apply]
      exact hs
    · rw [turnRecordWrites_apply]
      exact hr
    · rw [currentExecution_applyLifecycle]
      exact hcur
    · rw [metadata_applyLifecycle]
      exact hwait
  split
  · refine (hbase _ ?_).2
    rfl
  · refine (hbase _ ?_).1
    rfl

theorem decided_end {wait : PendingTurnWait} (status : TerminalStatus) (hg : Gated d st.process)
    (hp : st.process.metadata.turnWait = some wait) (hm : SameMove {} v) (ht : Tracked st.process v) :
    Decided d ctx st exempt asked replaces parks misroutes completes (endTurnWait st status v) := by
  have hx := (hg wait hp).2
  unfold endTurnWait
  dsimp only
  generalize hu : applyProcessPatchField (applyProcessPatchField (applyProcessPatchField (writeTurnWait v st.process none)
    st.process .selectedTurnId none) st.process .currentExecution none) st.process .lifecycleStatus status.toLifecycle = u
  have hs : u.turnStartWrites = [] := by
    rw [← hu, turnStartWrites_apply, turnStartWrites_apply, turnStartWrites_apply, starts_writeTurnWait]
    exact hm.starts
  have hr : u.turnRecordWrites = [] := by
    rw [← hu, turnRecordWrites_apply, turnRecordWrites_apply, turnRecordWrites_apply, records_writeTurnWait]
    exact hm.records
  have htr : Tracked st.process u := by
    rw [← hu]
    exact (((tracked_writeTurnWait _ _ _ ht).apply _).apply _).apply _
  have hcur : (u.candidate st.process).currentExecution = none := by
    rw [← hu, currentExecution_applyLifecycle]
    refine (get_apply (f := Field.currentExecution) ?_ _)
    refine (currentExecution_applySelected _).trans ((current_writeTurnWait _ _ _ _).trans ?_)
    exact hm.current _
  have hwait : (u.candidate st.process).metadata.turnWait = none := by
    rw [← hu, metadata_applyLifecycle, metadata_applyCurrent, metadata_applySelected]
    exact wait_cleared hp v
  refine decided_waiting hg hx (w := { u with workerIntent := some .reconcile }) hs hr hcur htr fun x hwx => ?_
  rw [show ({ u with workerIntent := some .reconcile } : Writes).candidate st.process = u.candidate st.process from rfl,
    hwait] at hwx
  cases hwx

/-- The admission of a wait creates its start. -/
theorem decided_admit {wait : PendingTurnWait} (hg : Gated d st.process) (hp : st.process.metadata.turnWait = some wait)
    (hsel : st.process.selectedTurnId = some wait.turnId) (hm : SameMove {} v) : Decided d ctx st exempt asked replaces parks misroutes completes (admitTurnWait st wait v) := by
  have hx := (hg wait hp).2
  have hwait := wait_cleared hp v
  have hsame := wait_writeTurnWait v st.process none
  have hsl : ((writeTurnWait v st.process none).candidate st.process).selectedTurnId = st.process.selectedTurnId :=
    (selected_writeTurnWait _ _ _ _).trans (hm.selected _)
  have hll : ((writeTurnWait v st.process none).candidate st.process).lifecycleStatus = st.process.lifecycleStatus :=
    (lifecycle_writeTurnWait _ _ _ _).trans (hm.lifecycle _)
  have hs := (starts_writeTurnWait v st.process none).trans hm.starts
  have hr := (records_writeTurnWait v st.process none).trans hm.records
  unfold admitTurnWait
  dsimp only
  generalize writeTurnWait v st.process none = u at hwait hsl hll hs hr
  generalize hu' : ({ u with waitForAdmission := some wait.id
                             turnStartWrites := u.turnStartWrites ++ [.create wait.start] } : Writes) = u'
  have hcand : u'.candidate st.process = u.candidate st.process := by rw [← hu']; rfl
  have hs' : u'.turnStartWrites = [.create wait.start] := by rw [← hu', hs]; rfl
  generalize hy : ({ applyProcessPatchField (applyProcessPatchField u' st.process .currentExecution (some wait.start.id))
    st.process .lifecycleStatus .active with workerIntent := some .reconcile } : Writes) = y
  have hsy : y.turnStartWrites = [.create wait.start] := by
    rw [← hy]
    exact (turnStartWrites_apply _ _ _ _).trans ((turnStartWrites_apply _ _ _ _).trans hs')
  have hc : y.creates = [wait.start] := by
    rw [Writes.creates, hsy]
    rfl
  have hlife : (y.candidate st.process).lifecycleStatus = .active := by
    rw [← hy]
    refine get_apply (f := Field.lifecycleStatus) (p := st.process) (q := st.process)
      (w := applyProcessPatchField u' st.process .currentExecution (some wait.start.id)) ?_ LifecycleStatus.active
    refine (lifecycleStatus_applyCurrent _).trans ?_
    rw [hcand]
    exact hll
  refine ⟨.reserved wait.start (by rw [hc]; exact List.mem_singleton_self _) ?_ ?_ (.inl ?_) ?_,
    .inl (by rw [hc]; exact Nat.le_refl 1), waitOk_of_one ?_ hc fun _ => by rw [hlife]; decide, Tracked.of_changed ?_,
    .leaves ?_ (logs_nil ?_) (.inl (liveExecution_none hx)) fun h0 => ?_⟩
  · rw [Writes.llmCreates, hc, List.filter_singleton]
    simp
  · rw [← hy]
    exact (currentExecution_applyLifecycle _).trans (currentExecution_applyCurrent_some _)
  · rw [← hy]
    refine (selectedTurnId_applyLifecycle _).trans ((selectedTurnId_applyCurrent _).trans ?_)
    rw [hcand, hsl]
    exact hsel
  · intro _ he
    rw [hlife] at he
    cases he
  · rw [← hy]
    have hmeta : ((applyProcessPatchField (applyProcessPatchField u' st.process .currentExecution (some wait.start.id))
        st.process .lifecycleStatus .active).candidate st.process).metadata = (u'.candidate st.process).metadata :=
      (metadata_applyLifecycle _).trans (metadata_applyCurrent _)
    refine (congrArg Metadata.turnWait hmeta).trans ?_
    rw [hcand]
    exact hwait
  · rw [← hy]
    exact changed_apply (changed_applyCurrent _ _ _) LifecycleStatus.active
  · rw [Writes.casWrites, hsy]
    rfl
  · rw [← hy]
    refine (turnRecordWrites_apply _ _ _ _).trans ((turnRecordWrites_apply _ _ _ _).trans ?_)
    rw [← hu']
    exact hr
  · rw [hc] at h0
    cases h0

theorem decideResolveTurnWait_ok {input : ResolveTurnWaitInput} {decision : Decision}
    (h : decideResolveTurnWait st input = .ok decision) (hg : Gated d st.process) :
    Decided d ctx st exempt asked replaces parks misroutes completes decision.writes := by
  unfold decideResolveTurnWait at h
  obtain ⟨wait, hw, h⟩ := ok_of_bind h
  obtain ⟨hp, -, -, hsel, -⟩ := currentTurnWait_ok hw
  have hm := sameMove_state st.process input.nextStateJson
  have ht := tracked_state st.process st.process input.nextStateJson
  dsimp only at h
  split at h
  · obtain ⟨writes, hb, h⟩ := ok_of_bind h
    cases h
    exact decided_bind hg hp hm ht hb
  · cases h
    exact decided_admit hg hp hsel hm
  · cases h
    exact decided_end .completed hg hp hm ht
  · cases h
    exact decided_end .aborted hg hp hm ht
  · cases h
    exact decided_reschedule input false false hg hp hm ht
  · cases h
    exact decided_reschedule input true false hg hp .refl (tracked_empty _ rfl rfl)
  · cases h
    exact decided_reschedule input false true hg hp .refl (tracked_empty _ rfl rfl)

theorem decideRetryTurnWait_ok {input : DecisionMetadata} {decision : Decision}
    (h : decideRetryTurnWait st input = .ok decision) (hg : Gated d st.process) :
    Decided d ctx st exempt asked replaces parks misroutes completes decision.writes := by
  unfold decideRetryTurnWait at h
  split at h
  · rename_i wait hp
    split at h
    · cases h
    · cases h
      have hx := (hg wait hp).2
      refine decided_waiting hg hx ?_ ?_ ?_ (Tracked.apply (tracked_writeTurnWait _ _ _ (tracked_empty _ rfl rfl)) _) ?_
      · rw [turnStartWrites_apply, starts_writeTurnWait]
      · rw [turnRecordWrites_apply, records_writeTurnWait]
      · rw [currentExecution_applyLifecycle, current_writeTurnWait]
        exact hx
      · rw [metadata_applyLifecycle]
        exact wait_writeTurnWait_same hp rfl (wait_of_sameMove .refl)
  · cases h
end

end Leitwerk.Engine
