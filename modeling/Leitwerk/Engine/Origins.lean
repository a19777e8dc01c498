import Leitwerk.Engine.Sources
import Leitwerk.Engine.Sound
/-!
# Where the starts of an operation come from

A created start is of a turn that was selected, recovers the failed record of the
current start, repeats the current start after it failed, or is the one a pending
wait put off. Records that an operation creates without accepting a start belong to
no start.
-/

namespace Leitwerk.Engine

open Results (ok_of_bind)

variable {d : ProcessDefinition} {ctx : Context} {st st' : Store} {op : Op} {p q : Process} {w v : Writes} {ids : FreshIds}

/-! ## Origins -/

/-- Where a start of an operation comes from. -/
inductive Origin (ctx : Context) (st : Store) (op : Op) (s : TurnStartInput) : Prop
  | selected (hr : s.recoveryTurnRecordId = none)
  | recovers (r : TurnRecord) (hr : st.currentTurnRecord = some r) (hf : r.status = .failed)
      (hid : s.id = (ctx.fresh 0).startId) (hrec : s.recoveryTurnRecordId = some r.id) (ht : s.turnId = r.turnId)
      (hop : ∀ payload, op ≠ .turnOutcome payload)
  | repeats (failed : TurnStartRecord) (hs : st.currentStart = some failed)
      (hst : (retriedStartState failed.state).isSome = true) (hid : s.id = (ctx.fresh 0).startId)
      (hrec : s.recoveryTurnRecordId = failed.recoveryTurnRecordId) (ht : s.turnId = failed.turnId)
  | waited (x : PendingTurnWait) (hx : st.process.metadata.turnWait = some x) (hid : s.id = x.start.id)
      (hrec : s.recoveryTurnRecordId = x.start.recoveryTurnRecordId) (ht : s.turnId = x.start.turnId)

theorem Reserved.origin {s : TurnStartInput} (h : Reserved ids s) : Origin ctx st op s := .selected h.recovery

/-- A wait keeps the start it put off. -/
theorem origin_waited {x : PendingTurnWait} (hx : st.process.metadata.turnWait = some x) : Origin ctx st op x.start :=
  .waited x hx rfl rfl rfl

theorem sourceable_origin : Sourceable (Origin ctx st op) where
  state s state h := by
    cases h with
    | selected hr => exact .selected hr
    | recovers r hr hf hid hrec ht hop => exact .recovers r hr hf hid hrec ht hop
    | repeats failed hs hst hid hrec ht => exact .repeats failed hs hst hid hrec ht
    | waited x hx hid hrec ht => exact .waited x hx hid hrec ht
  item s iteration h := by
    cases h with
    | selected hr => exact .selected hr
    | recovers r hr hf hid hrec ht hop => exact .recovers r hr hf hid hrec ht hop
    | repeats failed hs hst hid hrec ht => exact .repeats failed hs hst hid hrec ht
    | waited x hx hid hrec ht => exact .waited x hx hid hrec ht
  reserved ids s h := h.origin

/-- Where everything comes from that a decision writes. -/
structure Comes (ctx : Context) (st : Store) (op : Op) (w : Writes) : Prop where
  starts : ∀ s ∈ w.creates, Origin ctx st op s
  wait : ∀ x, (w.candidate st.process).metadata.turnWait = some x →
    ∃ y, st.process.metadata.turnWait = some y ∧ y.start = x.start
  records : ∀ c, .create c ∈ w.turnRecordWrites → (∃ s start l receipt, c = acceptedTurnRecord ctx st s start l receipt) ∨
    c.turnStartRecordId = none ∧ c.parentTurnRecordId = none ∧ c.attemptNumber = 1

/-- The wait of writes that leave it alone or clear it. -/
theorem wait_kept (h : (w.candidate p).metadata.turnWait = p.metadata.turnWait ∨ (w.candidate p).metadata.turnWait = none)
    {x : PendingTurnWait} (hx : (w.candidate p).metadata.turnWait = some x) :
    ∃ y, p.metadata.turnWait = some y ∧ y.start = x.start := by
  rcases h with h | h
  · exact ⟨x, h ▸ hx, rfl⟩
  · rw [h] at hx
    cases hx

/-- Writes with neither starts nor records. -/
theorem comes_none (hs : w.creates = []) (hr : w.turnRecordWrites = [])
    (hw : (w.candidate st.process).metadata.turnWait = st.process.metadata.turnWait ∨
      (w.candidate st.process).metadata.turnWait = none) : Comes ctx st op w where
  starts s h := by
    rw [hs] at h
    cases h
  wait _ := wait_kept hw
  records c h := by
    rw [hr] at h
    cases h

theorem comes_nothing : Comes ctx st op {} := comes_none rfl rfl (.inl rfl)

theorem comes_still (hm : SameMove {} w) : Comes ctx st op w :=
  comes_none hm.creates hm.records (.inl (congrArg _ (hm.metadata _)))

/-- What selects turns reserves starts for them. -/
theorem comes_routes (h : Routes st.process ids w) : Comes ctx st op w where
  starts s hs := (h.starts s hs).origin
  wait _ := wait_kept h.wait
  records c hc := by
    rw [h.records] at hc
    cases hc

theorem Comes.of_sameMove (h : Comes ctx st op w) (hm : SameMove w v) : Comes ctx st op v where
  starts := by rw [hm.creates]; exact h.starts
  wait := by rw [hm.metadata]; exact h.wait
  records := by rw [hm.records]; exact h.records

/-- While the process executes nothing waits, before or after the decision. -/
theorem Decided.comes {exempt asked : TurnId → Prop} {replaces parks misroutes : Prop} {completes : String → Prop}
    (h : Decided d ctx st exempt asked replaces parks misroutes completes w) (hg : Gated d st.process)
    (hx : st.process.currentExecution.isSome = true) (hs : ∀ s ∈ w.creates, Origin ctx st op s)
    (hr : ∀ c, .create c ∈ w.turnRecordWrites → (∃ s start l receipt, c = acceptedTurnRecord ctx st s start l receipt) ∨
      c.turnStartRecordId = none ∧ c.parentTurnRecordId = none ∧ c.attemptNumber = 1) : Comes ctx st op w := by
  refine ⟨hs, fun x hw => ?_, hr⟩
  have hold := h.wait.old (by rw [hw]; rfl)
  rw [hg.wait_none hx] at hold
  cases hold

/-! ## Selecting -/

theorem comes_startProcess {input : StartProcessInput} {decision : Decision}
    (h : decideStartProcess d ctx st input = .ok decision) : Comes ctx st op decision.writes := by
  unfold decideStartProcess at h
  obtain ⟨u, -, h⟩ := ok_of_bind h
  split at h
  · cases h
    exact comes_nothing
  obtain ⟨selection, hb, h⟩ := ok_of_bind h
  obtain ⟨-, hsel⟩ := buildTurnSelectionWrites_ok hb
  have hc : Comes ctx st op selection := comes_routes hsel.routes
  split at h
  · cases h
    exact hc.of_sameMove ((SameMove.apply quiet_stateJson _).trans (sameMove_projects _ _))
  · cases h
    exact hc

theorem comes_activate {prepared : DeferredProcessActivation} {decision : Decision}
    (h : decideActivateDeferredProcess d ctx st prepared = .ok decision) : Comes ctx st op decision.writes := by
  unfold decideActivateDeferredProcess at h
  split at h
  · cases h
    exact comes_nothing
  split at h
  · cases h
    exact comes_nothing
  split at h
  · cases h
    exact comes_nothing
  split at h
  · cases h
    exact comes_nothing
  · rename_i selection hb
    cases h
    obtain ⟨-, hsel⟩ := buildTurnSelectionWrites_ok hb
    refine (comes_routes hsel.routes).of_sameMove (SameMove.merge_left ?_)
    exact ⟨fun _ => rfl, fun _ => rfl, fun _ => rfl, fun _ => rfl, rfl, rfl, rfl⟩

theorem comes_armTurnWait {decision : Decision} (h : decideArmTurnWait d ctx st = .ok decision) :
    Comes ctx st op decision.writes := by
  unfold decideArmTurnWait at h
  split at h
  · cases h
    exact comes_nothing
  · obtain ⟨selection, hb, rfl⟩ := bind_ok h
    exact comes_routes (buildTurnSelectionWrites_ok hb).2.routes

/-- An action selects turns and logs the human turn it settles. -/
theorem comes_executeAction {decision : Decision} (h : decideExecuteAction d ctx st = .ok decision) :
    Comes ctx st op decision.writes := by
  unfold decideExecuteAction at h
  obtain ⟨planned, -, h⟩ := ok_of_bind h
  obtain ⟨writes, hw, h⟩ := ok_of_bind h
  have hc : Comes ctx st op writes := comes_routes (planWrites_ok hw).routes
  cases h
  refine ⟨hc.starts, hc.wait, fun c hmem => ?_⟩
  rcases List.mem_append.1 hmem with hmem | hmem
  · exact hc.records c hmem
  · right
    cases hres : planned.resolvedTurnAction with
    | none =>
      rw [hres] at hmem
      cases hmem
    | some turn =>
      rw [hres, List.mem_singleton] at hmem
      cases hmem
      exact ⟨rfl, rfl, rfl⟩

/-! ## Accepting -/

/-- An acceptance creates the record of the start and no start. -/
theorem comes_accept {input : AcceptWorkerTurnStartInput} {decision : Decision}
    (h : decideAcceptWorkerTurnStart d ctx st input = .ok decision) (hs : Sound d st) : Comes ctx st op decision.writes := by
  have hdec : Decided d ctx st (fun _ => False) (fun _ => False) False False False (fun _ => False) decision.writes :=
    decideAcceptWorkerTurnStart_ok h hs.gated
  unfold decideAcceptWorkerTurnStart at h
  obtain ⟨start, hstart, h⟩ := ok_of_bind h
  obtain ⟨⟨lease, receipt⟩, -, h⟩ := ok_of_bind h
  obtain ⟨hcur, -⟩ := startForAcceptance_ok hstart
  dsimp only at h
  split at h
  · split at h
    · cases h
      exact comes_nothing
    · cases h
  · split at h
    · split at h
      · cases h
      split at h
      · cases h
      · cases h
        refine hdec.comes hs.gated (current_isSome_of_start hcur) (fun s hmem => ?_) fun c hc => ?_
        · rw [mem_creates] at hmem
          split at hmem <;> simp at hmem
        · left
          split at hc <;> simp at hc <;> exact ⟨_, _, _, _, hc⟩
    · cases h
  · cases h

/-! ## Failing and parking -/

/-- A change of the lifecycle status alone. -/
theorem comes_status (status : LifecycleStatus) (intent : Option WorkerIntent) :
    Comes ctx st op (applyProcessPatchField { workerIntent := intent } st.process .lifecycleStatus status) := by
  refine comes_none ?_ ?_ (.inl ?_)
  · exact creates_nil (turnStartWrites_apply _ _ _ _)
  · exact turnRecordWrites_apply _ _ _ _
  · rw [metadata_applyLifecycle]
    rfl

theorem comes_parkProcess {payload : LifecycleParkedPayload} {decision : Decision}
    (h : decideParkProcess st payload = .ok decision) : Comes ctx st op decision.writes := by
  unfold decideParkProcess at h
  obtain ⟨writes, hb, rfl⟩ := bind_ok h
  obtain ⟨-, rfl⟩ := buildParkProcessWrites_ok hb
  exact comes_status _ _

theorem comes_parkActivation {found : Json → Bool} {facts : Process → Json → Bool} {decision : Decision}
    (h : decideParkDeferredProcessActivationFailure st found facts = .ok decision) : Comes ctx st op decision.writes := by
  unfold decideParkDeferredProcessActivationFailure at h
  split at h
  · cases h
    exact comes_nothing
  · cases h
    exact comes_status _ _

/-- A worker's failure parks the process or fails what it executes. -/
theorem comes_workerFailure {payload : WorkerFailurePayload} {decision : Decision}
    (h : decideWorkerFailure d ctx st payload = .ok decision) (hg : Gated d st.process) (hk : st.RecordsKeyed) :
    Comes ctx st op decision.writes := by
  have hdec : Decided d ctx st (fun _ => False) (fun _ => False) False False False (fun _ => False) decision.writes :=
    decideWorkerFailure_ok h hg hk
  unfold decideWorkerFailure at h
  dsimp only at h
  split at h
  · cases h
    exact comes_nothing
  split at h
  · split at h
    · cases h
      exact comes_nothing
    · cases h
      exact comes_none rfl rfl (.inl rfl)
  split at h
  · rename_i running hrun
    obtain ⟨hcur, hstatus⟩ := Option.filter_eq_some_iff.1 hrun
    obtain ⟨id, hid, -⟩ := Option.bind_eq_some_iff.1 hcur
    obtain ⟨s, start, lease, hs, -⟩ := currentTurnRecordId_iff.1 hid
    obtain ⟨writes, hb, rfl⟩ := bind_ok h
    obtain ⟨⟨patch, hrec, -⟩, hs0, -⟩ := buildWorkerFailureWrites_running rfl (by simpa using hstatus) hb
    refine hdec.comes hg (current_isSome_of_start hs) (fun s hmem => ?_) fun c hc => ?_
    · rw [creates_nil hs0] at hmem
      cases hmem
    · rw [hrec] at hc
      simp at hc
  · split at h
    · cases h
      exact comes_nothing
    split at h
    · cases h
      exact comes_none rfl rfl (.inl rfl)
    · obtain ⟨writes, hb, rfl⟩ := bind_ok h
      obtain ⟨hrec, hs, ⟨status, hcand⟩, -⟩ := buildWorkerFailureWrites_none rfl hb
      exact comes_none (creates_nil hs) hrec (.inl (by rw [hcand]))

theorem comes_turnFailed {payload : TurnFailedPayload} {decision : Decision}
    (h : decideTurnFailed ctx st payload = .ok decision) : Comes ctx st op decision.writes := by
  obtain ⟨existing, -, -, hw⟩ := decideTurnFailed_inv h
  obtain ⟨⟨patch, hrec, -⟩, hs, -, -, -, hwait, -⟩ := buildTurnFailedWrites_spec st.process payload existing ctx.now
  rw [hw]
  refine ⟨fun s hmem => ?_, fun _ => wait_kept (.inl hwait), fun c hc => ?_⟩
  · rw [creates_nil hs] at hmem
    cases hmem
  · rw [hrec] at hc
    simp at hc

/-! ## Recovering -/

theorem comes_recovers {r : TurnRecord} {s : TurnStartRecord} {recovery : Recovery} (hr : st.currentTurnRecord = some r)
    (hf : r.status = .failed) (hop : ∀ payload, op ≠ .turnOutcome payload)
    (h : Recovers st.process r.turnId (recoveryStart r s recovery (ctx.fresh 0)) w) : Comes ctx st op w := by
  refine ⟨fun x hx => ?_, fun _ => wait_kept (.inl h.wait), fun c hc => ?_⟩
  · rw [mem_creates, h.starts, List.mem_singleton] at hx
    cases hx
    exact .recovers r hr hf rfl rfl rfl hop
  · rw [h.records] at hc
    cases hc

theorem comes_retryFailedTurn {input : DecisionMetadata} {decision : Decision}
    (h : decideRetryFailedTurn d ctx st input = .ok decision) : Comes ctx st (.retryFailedTurn input) decision.writes := by
  unfold decideRetryFailedTurn at h
  split at h
  · rename_i currentStart failedRun hs hr
    split at h
    · cases h
    rename_i hfailed
    split at h
    · cases h
    obtain ⟨writes, hb, rfl⟩ := bind_ok h
    obtain ⟨_, hrec⟩ := buildRetryWrites_ok hb
    exact comes_recovers hr (not_not.1 hfailed) (fun _ => Op.noConfusion) hrec
  · cases h

theorem comes_continueFailedTurn {turnRecordId : String} {prompt : Option String} {input : DecisionMetadata}
    {decision : Decision} (h : decideContinueFailedTurn d ctx st turnRecordId prompt input = .ok decision) :
    Comes ctx st (.continueFailedTurn turnRecordId prompt input) decision.writes := by
  unfold decideContinueFailedTurn at h
  split at h
  · cases h
  split at h
  · cases h
  split at h
  · rename_i acceptedStart failedRun hs hr
    split at h
    · cases h
    rename_i hfailed
    split at h
    · cases h
    split at h
    · split at h
      · cases h
      obtain ⟨writes, hb, rfl⟩ := bind_ok h
      obtain ⟨_, hrec⟩ := buildContinueFailedTurnWrites_ok hb
      exact comes_recovers hr (not_not.1 hfailed) (fun _ => Op.noConfusion) hrec
    · cases h
    · cases h
  · cases h

/-- A startup retry creates the one start that repeats the failed one. -/
theorem comes_repeats {input : RetryStartupInput} {decision : Decision} (h : decideRetryStartup ctx st input = .ok decision) :
    Comes ctx st op decision.writes := by
  unfold decideRetryStartup at h
  obtain ⟨⟨failed, state⟩, ht, h⟩ := ok_of_bind h
  obtain ⟨hs, -, hst, -⟩ := startupRetryTarget_ok ht
  cases h
  refine ⟨fun x hx => ?_, fun _ => wait_kept (.inl ?_), fun c hmem => ?_⟩
  · simp only [mem_creates, turnStartWrites_apply, List.mem_singleton, TurnStartWrite.create.injEq] at hx
    rw [hx]
    exact .repeats failed hs (by rw [hst]; rfl) rfl rfl rfl
  · rw [metadata_applyLifecycle, metadata_applyCurrent]
    rfl
  · simp at hmem

theorem comes_automaticRetryStartup {startRecordId : String} {decision : Decision}
    (h : decideAutomaticRetryStartup ctx st startRecordId = .ok decision) :
    Comes ctx st (.automaticRetryStartup startRecordId) decision.writes := by
  unfold decideAutomaticRetryStartup at h
  obtain ⟨⟨start, state⟩, ht, h⟩ := ok_of_bind h
  dsimp only at h
  split at h
  · exact comes_repeats h
  split at h
  · cases h
    exact comes_nothing
  · cases h
    exact comes_none rfl rfl (.inl rfl)

/-! ## Waiting -/

/-- A wait written over another that keeps its start. -/
theorem comes_rewait {wait wait' : PendingTurnWait} (hp : st.process.metadata.turnWait = some wait)
    (hstart : wait.start = wait'.start) (hs : w.turnStartWrites = []) (hr : w.turnRecordWrites = [])
    (hw : (w.candidate st.process).metadata.turnWait = st.process.metadata.turnWait) :
    Comes ctx st op (writeTurnWait w st.process (some wait')) := by
  refine ⟨fun s h => ?_, fun x hx => ?_, fun c h => ?_⟩
  · rw [creates_nil ((starts_writeTurnWait _ _ _).trans hs)] at h
    cases h
  · rcases wait_writeTurnWait w st.process (some wait') with h | h
    · rw [h] at hx
      cases hx
      exact ⟨wait, hp, hstart⟩
    · rw [h, hw] at hx
      exact ⟨x, hx, rfl⟩
  · rw [records_writeTurnWait, hr] at h
    cases h

theorem Comes.lifecycle (h : Comes ctx st op w) (status : LifecycleStatus) :
    Comes ctx st op (applyProcessPatchField w st.process .lifecycleStatus status) where
  starts := by rw [creates_of_starts (turnStartWrites_apply _ _ _ _)]; exact h.starts
  wait := by rw [metadata_applyLifecycle]; exact h.wait
  records := by rw [turnRecordWrites_apply]; exact h.records

theorem comes_bind {wait : PendingTurnWait} {binding : InitialBinding} (hp : st.process.metadata.turnWait = some wait)
    (hm : SameMove {} v) (h : bindTurnWait st wait binding v = .ok w) : Comes ctx st op w := by
  unfold bindTurnWait at h
  dsimp only at h
  split at h
  · cases h
  split at h
  · cases h
  · cases h
    have hparams : SameMove {} (applyProcessPatchField v st.process .paramsJson (some binding.paramsJson)) :=
      hm.trans (.apply quiet_paramsJson _)
    generalize applyProcessPatchField v st.process .paramsJson (some binding.paramsJson) = u at hparams
    have hmeta : ((applyProcessPatchField u st.process .metadata
        { st.process.metadata with entries := mergeEntries st.process.metadata.entries binding.metadata }).candidate
          st.process).metadata =
        { st.process.metadata with entries := mergeEntries st.process.metadata.entries binding.metadata } :=
      get_apply (f := Field.metadata) (hparams.metadata _) _
    refine comes_rewait hp rfl ?_ ?_ ?_
    · exact (turnStartWrites_apply _ _ _ _).trans hparams.starts
    · exact (turnRecordWrites_apply _ _ _ _).trans hparams.records
    · have hwait := congrArg Metadata.turnWait hmeta
      exact hwait

theorem comes_reschedule (input : ResolveTurnWaitInput) {wait : PendingTurnWait} (retry error : Bool)
    (hp : st.process.metadata.turnWait = some wait) (hm : SameMove {} v) :
    Comes ctx st op (rescheduleTurnWait st input wait retry error v) := by
  have hbase : ∀ wait', wait.start = wait'.start → Comes ctx st op (writeTurnWait v st.process (some wait')) :=
    fun wait' hw => comes_rewait hp hw hm.starts hm.records (congrArg _ (hm.metadata _))
  unfold rescheduleTurnWait
  dsimp only
  split
  · apply Comes.lifecycle
    exact hbase _ rfl
  · exact hbase _ rfl

/-- The end of a wait, with what it admits. -/
theorem comes_unwait {wait : PendingTurnWait} (hp : st.process.metadata.turnWait = some wait)
    (hs : ∀ s ∈ w.creates, s = wait.start) (hr : w.turnRecordWrites = [])
    (hw : (w.candidate st.process).metadata.turnWait = none) : Comes ctx st op w where
  starts s h := by
    rw [hs s h]
    exact origin_waited hp
  wait x hx := by
    rw [hw] at hx
    cases hx
  records c h := by
    rw [hr] at h
    cases h

theorem comes_resolveTurnWait {input : ResolveTurnWaitInput} {decision : Decision}
    (h : decideResolveTurnWait st input = .ok decision) : Comes ctx st op decision.writes := by
  unfold decideResolveTurnWait at h
  obtain ⟨wait, hw, h⟩ := ok_of_bind h
  have hp := (currentTurnWait_ok hw).1
  have hm := sameMove_state st.process input.nextStateJson
  have hnone := wait_cleared hp (stateWrites st.process input.nextStateJson)
  have hend : ∀ status, Comes ctx st op (endTurnWait st status (stateWrites st.process input.nextStateJson)) := by
    intro status
    refine comes_unwait hp (fun s hs => ?_) ?_ ?_
    · have hc : (endTurnWait st status (stateWrites st.process input.nextStateJson)).turnStartWrites = [] := by
        simp [endTurnWait, hm.starts]
      rw [creates_nil hc] at hs
      cases hs
    · simp [endTurnWait, hm.records]
    · refine Eq.trans ?_ hnone
      refine congrArg Metadata.turnWait ((metadata_applyLifecycle _).trans ?_)
      rw [metadata_applyCurrent, metadata_applySelected]
  dsimp only at h
  split at h
  · obtain ⟨writes, hb, h⟩ := ok_of_bind h
    cases h
    exact comes_bind hp hm hb
  · cases h
    refine comes_unwait hp (fun s hs => ?_) ?_ ?_
    · simpa [mem_creates, admitTurnWait, hm.starts] using hs
    · simp [admitTurnWait, hm.records]
    · refine Eq.trans ?_ hnone
      refine congrArg Metadata.turnWait ((metadata_applyLifecycle _).trans ?_)
      rw [metadata_applyCurrent]
      rfl
  · cases h
    exact hend .completed
  · cases h
    exact hend .aborted
  · cases h
    exact comes_reschedule input false false hp hm
  · cases h
    exact comes_reschedule input true false hp .refl
  · cases h
    exact comes_reschedule input false true hp .refl

theorem comes_retryTurnWait {input : DecisionMetadata} {decision : Decision}
    (h : decideRetryTurnWait st input = .ok decision) : Comes ctx st op decision.writes := by
  unfold decideRetryTurnWait at h
  split at h
  · rename_i wait hp
    split at h
    · cases h
    · cases h
      apply Comes.lifecycle
      exact comes_rewait hp rfl rfl rfl rfl
  · cases h

/-! ## Outcomes -/

/-- A reserved start is of a turn that was selected. -/
theorem origin_selected (turnId : TurnId) (turnType : WorkerTurnType) (item : Option MappedTurnItemRef) :
    Origin ctx st op (selectedTurnStart q turnId turnType ids item) := .selected rfl

theorem origins_mapped {payload : TurnOutcomePayload} {spec : MappedLlmTurnSpec} {iteration : Option MappedTurnItemRef}
    (h : buildMappedItemOutcomeWrites d ctx st q payload spec iteration = .ok w)
    (hsel : q.selectedTurnId = some payload.turnId) (hspec : getMappedTurnSpec d payload.turnId = some spec) :
    ∀ s ∈ w.creates, Origin ctx st op s := by
  intro s hs
  obtain ⟨runs, ⟨next, rfl⟩ | ⟨results, routed, hr, rfl⟩⟩ := buildMappedItemOutcomeWrites_inv h
  · have hmem := mem_creates.1 hs
    replace hmem : .create s ∈ (reserveSelectedTurnStart q { ({} : Writes) with mappedRunWrites := runs } payload.turnId .llm
      (ctx.fresh 0) next).turnStartWrites := hmem
    rw [starts_reserve, List.nil_append, List.mem_singleton] at hmem
    cases hmem
    exact origin_selected _ _ _
  · obtain ⟨request, ht, -⟩ := collectAndRoute_ok hr hsel hspec
    exact (ht.routes.starts s hs).origin

theorem origins_unmapped {payload : TurnOutcomePayload} {sw : Writes}
    (h : buildUnmappedOutcomeWrites d ctx q payload sw = .ok w) (hm : SameMove {} sw)
    (hd : (d.turns payload.turnId).isSome = true) : ∀ s ∈ w.creates, Origin ctx st op s := by
  unfold buildUnmappedOutcomeWrites at h
  obtain ⟨plan, -, h⟩ := ok_of_bind h
  obtain ⟨effects, he, h⟩ := ok_of_bind h
  have hpl := planWrites_ok he
  have heffects : ∀ s ∈ (mergeWrites sw effects).creates, Origin ctx st op s := by
    intro s hs
    rw [creates_merge, hm.creates] at hs
    exact (hpl.routes.starts s hs).origin
  replace h : (if hasExplicitTurnSelectionChange q effects = true then _ else _) = Except.ok w := h
  split at h
  · cases h
    exact heffects
  · obtain ⟨transition, ht, h⟩ := ok_of_bind h
    cases h
    intro s hs
    rw [creates_merge] at hs
    rcases List.mem_append.1 hs with hs | hs
    · exact heffects s hs
    · rcases declaredTransition_ok ht hd with rfl | ⟨-, -, input, -, hsel, -⟩
      · cases hs
      · exact (hsel.routes.starts s hs).origin

/-- An outcome leads on to turns that it selects. -/
theorem comes_turnOutcome {reported : TurnOutcomePayload} {decision : Decision}
    (h : decideTurnOutcome d ctx st reported = .ok decision) (hg : Gated d st.process) :
    Comes ctx st op decision.writes := by
  have hdec : Decided d ctx st (fun _ => False) (OutcomeAsks d ctx st reported) False False False
    (· = reported.turnRecordId) decision.writes := decideTurnOutcome_ok h hg
  obtain ⟨hid, payload', -, hrec⟩ := decideTurnOutcome_records h
  obtain ⟨s, start, lease, hs, -⟩ := currentTurnRecordId_iff.1 hid
  obtain ⟨payload, outcome, -, -, ho, hw⟩ := decideTurnOutcome_inv h
  refine hdec.comes hg (current_isSome_of_start hs) ?_ fun c hc => ?_
  · intro s hs
    rw [hw, (sameMove_entryRefs payload _).creates, creates_merge, creates_nil (outcomeBase ctx st payload).starts] at hs
    have hm := sameMove_state ((outcomeBaseWrites ctx st payload).candidate st.process) payload.state
    obtain ⟨hcheck, ⟨spec, mapped, hspec, hmap, rfl⟩ | ⟨-, hun⟩⟩ := buildTurnOutcomeWrites_inv ho
    · rw [creates_merge, hm.creates] at hs
      exact origins_mapped hmap ((hm.selected _).trans hcheck.2) hspec s hs
    · exact origins_unmapped hun hm hcheck.1 s hs
  · right
    rw [hrec, List.mem_singleton] at hc
    unfold completionWrite at hc
    split at hc
    · cases hc
    · cases hc
      exact ⟨rfl, rfl, rfl⟩

/-! ## Superseding -/

/-- A record of a superseded execution is none that is created. -/
theorem superseded_creates {c : TurnRecord} (h : .create c ∈ supersededRecord ctx st) : False := by
  unfold supersededRecord at h
  split at h
  · split at h
    · rw [List.mem_singleton] at h
      cases h
    · cases h
  · cases h

theorem comes_abortProcess {expected : Option String} {decision : Decision}
    (h : decideAbortProcess d ctx st expected = .ok decision) : Comes ctx st op decision.writes := by
  unfold decideAbortProcess at h
  split at h
  · cases h
  split at h
  · cases h
  obtain ⟨cleanup, hcl, h⟩ := ok_of_bind h
  obtain ⟨abort, hab, h⟩ := ok_of_bind h
  cases h
  have he := collectAbortCleanupWrites_ok (effects_empty st.process) hcl
  unfold buildAbortProcessWrites at hab
  obtain ⟨selection, hb, hab⟩ := ok_of_bind hab
  cases hab
  obtain ⟨-, hsel⟩ := buildTurnSelectionWrites_ok hb
  have hsup := supersedes_execution ctx st selection
  refine ⟨fun s hs => ?_, fun _ => wait_kept ?_, fun c hc => ?_⟩
  · rw [creates_merge, creates_nil he.starts, Writes.creates, hsup.starts, (hsel.cleared rfl).1] at hs
    replace hs : s ∈ (supersededStart st).filterMap (fun x => x.create?) := hs
    rw [creates_superseded] at hs
    cases hs
  · rw [candidate_merge, Writes.candidate, hsup.patch]
    refine he.wait.imp (fun hw => ?_) fun hw => ?_
    · exact (congrArg Metadata.turnWait (hsel.metadata _)).trans hw
    · exact (congrArg Metadata.turnWait (hsel.metadata _)).trans hw
  · rw [turnRecordWrites_merge, he.records, hsup.records, hsel.routes.records] at hc
    exact (superseded_creates hc).elim

/-- Writes of an interrupt: the execution and the wait go, and the gated turn's start comes. -/
theorem comes_superseding (hs : ∀ s ∈ w.creates, Origin ctx st op s) (hr : w.turnRecordWrites = supersededRecord ctx st)
    (hw : (w.candidate st.process).metadata.turnWait = none) : Comes ctx st op w := by
  refine ⟨hs, fun _ => wait_kept (.inr hw), fun c hc => ?_⟩
  rw [hr] at hc
  exact (superseded_creates hc).elim

theorem comes_interrupt {input : ProcessObservationUpdate} (hv : Observes st.process v)
    (h : observationInterrupt d ctx st input v = .ok w) : Comes ctx st op w := by
  unfold observationInterrupt at h
  dsimp only at h
  split at h
  · cases h
  split at h
  · cases h
  have hsup := supersedes_execution ctx st v
  generalize supersedeExecution v st.currentTurnRecord st.currentStart ctx.now = a at h hsup
  have hc : a.creates = [] := by
    rw [Writes.creates, hsup.starts, hv.starts]
    exact creates_superseded st
  have hr : a.turnRecordWrites = supersededRecord ctx st := by
    rw [hsup.records, hv.records]
    rfl
  generalize hb : writeTurnWait a { st.process with metadata := a.processPatch.metadata.getD st.process.metadata } none = b at h
  have hcb : b.creates = [] := (creates_of_starts (hb ▸ starts_writeTurnWait _ _ _)).trans hc
  have hrb : b.turnRecordWrites = supersededRecord ctx st := (hb ▸ records_writeTurnWait _ _ _).trans hr
  have hwb : (b.candidate st.process).metadata.turnWait = none := by
    rw [← hb]
    exact congrArg Metadata.turnWait (get_apply (f := Field.metadata) (p := st.process)
      (q := { st.process with metadata := a.processPatch.metadata.getD st.process.metadata }) rfl _)
  have hnone : ∀ {u : Writes}, u.turnStartWrites = b.turnStartWrites → u.turnRecordWrites = b.turnRecordWrites →
      (u.candidate st.process).metadata = (b.candidate st.process).metadata → Comes ctx st op u := by
    intro u hs hr hw
    refine comes_superseding (fun s hmem => ?_) (hr.trans hrb) ((congrArg Metadata.turnWait hw).trans hwb)
    rw [creates_of_starts hs, hcb] at hmem
    cases hmem
  cases hls : input.lifecycleStatus with
  | some status =>
    rw [hls] at h
    cases h
    refine hnone (by simp) (by simp) ?_
    refine (metadata_applyLifecycle _).trans ?_
    rw [metadata_applySelected, metadata_applyCurrent]
  | none =>
    cases hin : input.interrupt with
    | none =>
      rw [hls, hin] at h
      cases h
      exact hnone (by simp) (by simp) (metadata_applyCurrent _)
    | some turnId =>
      rw [hls, hin] at h
      dsimp only at h
      split at h
      · cases h
      split at h
      · rename_i turnType htype
        cases h
        refine comes_superseding (fun s hmem => ?_) ?_ ?_
        · replace hmem := mem_creates.1 hmem
          simp only [starts_reserve, turnStartWrites_apply, List.mem_append, List.mem_singleton] at hmem
          rcases hmem with hmem | hmem
          · have := mem_creates.2 hmem
            rw [hcb] at this
            cases this
          · cases hmem
            exact origin_selected _ _ _
        · simp [records_reserve, hrb]
        · refine Eq.trans (congrArg Metadata.turnWait ((metadata_reserve _ _ _ _ _ _ _).trans ?_)) hwb
          rw [metadata_applyLifecycle, metadata_applySelected, metadata_applyCurrent]
      · cases h

theorem comes_processObservation {input : ProcessObservationUpdate} {decision : Decision}
    (h : decideProcessObservation d ctx st input = .ok decision) : Comes ctx st op decision.writes := by
  unfold decideProcessObservation at h
  split at h
  · cases h
  dsimp only at h
  have hobs := observes_input st.process input
  generalize (if input.metadata.isEmpty = true then stateWrites st.process input.state else
    applyMetadataPatch (stateWrites st.process input.state) st.process
      { st.process.metadata with entries := mergeEntries st.process.metadata.entries input.metadata }) = u at h hobs
  split at h
  · obtain ⟨writes, hb, rfl⟩ := bind_ok h
    exact comes_interrupt hobs hb
  · cases h
    exact comes_none (creates_nil hobs.starts) hobs.records (.inl hobs.wait)

/-! ## Every operation -/

/-- What an accepted decision writes comes from one of the origins. -/
theorem Op.comes {decision : Decision} (h : op.decide d ctx st = .ok decision) (hs : Sound d st) :
    Comes ctx st op decision.writes := by
  cases op with
  | startProcess input => exact comes_startProcess h
  | activateDeferredProcess prepared => exact comes_activate h
  | parkDeferredProcessActivationFailure found facts => exact comes_parkActivation h
  | executeAction => exact comes_executeAction h
  | acceptWorkerTurnStart input => exact comes_accept h hs
  | turnOutcome payload => exact comes_turnOutcome h hs.gated
  | turnFailed payload => exact comes_turnFailed h
  | workerFailure payload => exact comes_workerFailure h hs.gated hs.recordsKeyed
  | parkProcess payload => exact comes_parkProcess h
  | retryFailedTurn input => exact comes_retryFailedTurn h
  | retryStartup input => exact comes_repeats h
  | automaticRetryStartup startRecordId => exact comes_automaticRetryStartup h
  | continueFailedTurn turnRecordId prompt input => exact comes_continueFailedTurn h
  | armTurnWait => exact comes_armTurnWait h
  | resolveTurnWait input => exact comes_resolveTurnWait h
  | retryTurnWait input => exact comes_retryTurnWait h
  | abortProcess expected => exact comes_abortProcess h
  | processObservation input => exact comes_processObservation h
  | updateRefs nextStateJson =>
    cases h
    exact comes_still (sameMove_state _ _)

end Leitwerk.Engine
