import Leitwerk.Engine.Steps
/-!
# Failing and parking

A failure settles the current record or the current start and stops the process; a
park stops the process alone.
-/

namespace Leitwerk.Engine

open Results (ok_of_bind)

variable {d : ProcessDefinition} {ctx : Context} {st : Store} {p : Process} {w v : Writes} {ids : FreshIds}

/-! ## Failing and parking -/

/-- The rows of the record table are under their ids. -/
def Store.RecordsKeyed (st : Store) : Prop := ∀ k r, st.turnRecords.get? k = some r → r.id = k

section
variable {payload : TurnFailedPayload} {existing : TurnRecord} {endedAt : String}

theorem buildTurnFailedWrites_spec (p : Process) (payload : TurnFailedPayload) (existing : TurnRecord) (endedAt : String) :
    (∃ patch, (buildTurnFailedWrites p payload existing endedAt).turnRecordWrites = [.update payload.turnRecordId patch] ∧
      patch.status = some .failed) ∧
    (buildTurnFailedWrites p payload existing endedAt).turnStartWrites = [] ∧
    ((buildTurnFailedWrites p payload existing endedAt).candidate p).currentExecution = p.currentExecution ∧
    ((buildTurnFailedWrites p payload existing endedAt).candidate p).selectedTurnId = some payload.turnId ∧
    ((buildTurnFailedWrites p payload existing endedAt).candidate p).lifecycleStatus = .error ∧
    ((buildTurnFailedWrites p payload existing endedAt).candidate p).metadata.turnWait = p.metadata.turnWait ∧
    Tracked p (buildTurnFailedWrites p payload existing endedAt) := by
  unfold buildTurnFailedWrites
  dsimp only
  refine ⟨?_, ?_, ?_, ?_, ?_, ?_, ?_⟩
  · unfold updateProcessMetadata applyMetadataPatch
    rw [turnRecordWrites_apply, turnRecordWrites_apply, turnRecordWrites_apply]
    exact ⟨_, rfl, rfl⟩
  · unfold updateProcessMetadata applyMetadataPatch
    rw [turnStartWrites_apply, turnStartWrites_apply, turnStartWrites_apply]
  · unfold updateProcessMetadata applyMetadataPatch
    rw [currentExecution_applyMetadata, currentExecution_applyLifecycle, currentExecution_applySelected]
    rfl
  · unfold updateProcessMetadata applyMetadataPatch
    rw [selectedTurnId_applyMetadata, selectedTurnId_applyLifecycle]
    exact get_apply (f := Field.selectedTurnId) rfl _
  · unfold updateProcessMetadata applyMetadataPatch
    rw [lifecycleStatus_applyMetadata]
    refine get_apply (f := Field.lifecycleStatus) ?_ _
    exact lifecycleStatus_applySelected _
  · refine metadata_updateProcessMetadata _ _ _ (fun _ => rfl) ?_
    rw [metadata_applyLifecycle, metadata_applySelected]
    rfl
  · exact Tracked.apply (Tracked.apply (Tracked.apply (tracked_empty _ rfl rfl) _) _) _
end

/-- Whether a failure of the current record names another turn than the record's. -/
def failureMisnamed (st : Store) (payload : TurnFailedPayload) : Bool :=
  st.currentTurnRecordId == some payload.turnRecordId &&
    (st.turnRecords.get? payload.turnRecordId).any (·.turnId != payload.turnId)

theorem decideTurnFailed_inv {payload : TurnFailedPayload} {decision : Decision}
    (h : decideTurnFailed ctx st payload = .ok decision) : ∃ existing, st.currentTurnRecordId = some payload.turnRecordId ∧
      st.turnRecords.get? payload.turnRecordId = some existing ∧
      decision.writes = buildTurnFailedWrites st.process payload existing ctx.now := by
  unfold decideTurnFailed at h
  obtain ⟨u, hv, h⟩ := ok_of_bind h
  have hid : st.currentTurnRecordId = some payload.turnRecordId := by
    unfold validateTurnFailedCorrelation at hv
    split at hv
    · cases hv
    · rename_i hne
      exact not_not.1 hne
  split at h
  · rename_i existing hrow
    cases h
    exact ⟨existing, hid, hrow, rfl⟩
  · cases h

theorem decideTurnFailed_ok {payload : TurnFailedPayload} {decision : Decision} {exempt asked : TurnId → Prop}
    {replaces parks : Prop} {completes : String → Prop} (h : decideTurnFailed ctx st payload = .ok decision) (hg : Gated d st.process) :
    Decided d ctx st exempt asked replaces parks (failureMisnamed st payload = true) completes decision.writes := by
  obtain ⟨existing, hid, hrow, hw⟩ := decideTurnFailed_inv h
  obtain ⟨⟨patch, hrec, hp⟩, hs, hx, hsel, -, hwait, ht⟩ :=
    buildTurnFailedWrites_spec st.process payload existing ctx.now
  rw [hw]
  refine ⟨.kept (creates_nil hs) hx, .inl (by rw [creates_nil hs]; exact Nat.zero_le 1),
    waitOk_of_kept hg hwait (creates_nil hs), ht,
    .fails _ existing patch hid hrow hp (by rw [Writes.casWrites, hs]; rfl) hrec (creates_nil hs) hx ?_⟩
  by_cases hname : existing.turnId = payload.turnId
  · exact .inr (.inl (by rw [hsel, hname]))
  · refine .inr (.inr ⟨?_, by rw [hsel]; rfl⟩)
    rw [failureMisnamed, hid, hrow, Option.any_some]
    simpa using hname

theorem buildParkProcessWrites_ok {payload : LifecycleParkedPayload} {allow : Bool}
    (h : buildParkProcessWrites p payload allow = .ok w) :
    (payload.selectedTurnId.isSome = true → payload.selectedTurnId = p.selectedTurnId) ∧
    w = applyProcessPatchField
      { workerIntent := some (.stopWithReason s!"lifecycle_parked:{p.selectedTurnId.getD p.lifecycleStatus.text}") }
      p .lifecycleStatus .error := by
  unfold buildParkProcessWrites at h
  split at h
  · cases h
  · rename_i hguard
    split at h
    · cases h
    · cases h
      refine ⟨fun hs => ?_, rfl⟩
      by_contra hne
      exact hguard ⟨hs, hne⟩

/-- Whether a park is for the selected turn, or for whichever is. -/
def parkAccepted (st : Store) (payload : LifecycleParkedPayload) : Bool :=
  payload.selectedTurnId.isNone || payload.selectedTurnId == st.process.selectedTurnId

theorem decideParkProcess_ok {payload : LifecycleParkedPayload} {decision : Decision} {exempt asked : TurnId → Prop}
    {replaces misroutes : Prop} {completes : String → Prop} (h : decideParkProcess st payload = .ok decision) (hg : Gated d st.process) :
    Decided d ctx st exempt asked replaces (parkAccepted st payload = true) misroutes completes decision.writes := by
  unfold decideParkProcess at h
  cases hb : buildParkProcessWrites st.process payload true with
  | error e => rw [hb] at h; cases h
  | ok writes =>
    rw [hb] at h
    cases h
    obtain ⟨hsame, rfl⟩ := buildParkProcessWrites_ok hb
    refine decided_status hg .error (fun _ => .inr (.inr ?_)) _
    unfold parkAccepted
    cases hsel : payload.selectedTurnId with
    | none => rfl
    | some t =>
      rw [hsel] at hsame
      simpa using hsame rfl

/-! ## Failing a worker -/

theorem startingExecution_some {id : String} {resolved : ResolvedTurnStart}
    (h : startingExecution st = some (id, resolved)) : ∃ s, st.currentStart = some s ∧ s.id = id ∧ s.state = .starting resolved := by
  unfold startingExecution at h
  cases hs : st.currentStart with
  | none => rw [hs] at h; cases h
  | some s =>
    rw [hs] at h
    dsimp only at h
    split at h
    · rename_i hst
      cases h
      exact ⟨s, rfl, rfl, hst⟩
    · cases h

/-- The park and the stop that follow a worker's failure only set the lifecycle status. -/
theorem candidate_failureTail (w : Writes) (p q : Process) (intent intent' : Option WorkerIntent) :
    ∃ status, (mergeWrites (mergeWrites w (applyProcessPatchField { workerIntent := intent } p .lifecycleStatus .error))
      { workerIntent := intent' }).candidate q = { w.candidate q with lifecycleStatus := status } := by
  rw [candidate_merge, candidate_merge]
  unfold applyProcessPatchField
  split
  · exact ⟨_, rfl⟩
  · exact ⟨.error, rfl⟩

theorem buildWorkerFailureWrites_running {input : WorkerFailureWritesInput} {r : TurnRecord} {endedAt : String}
    (hr : input.activeTurnRecord = some r) (hst : r.status = .running)
    (h : buildWorkerFailureWrites p input endedAt = .ok w) :
    (∃ patch, w.turnRecordWrites = [.update r.id patch] ∧ patch.status = some .failed) ∧ w.turnStartWrites = [] ∧
      (w.candidate p).currentExecution = p.currentExecution ∧ (w.candidate p).selectedTurnId = some r.turnId ∧
      (w.candidate p).metadata.turnWait = p.metadata.turnWait ∧ Tracked p w := by
  have hpayload : ∃ payload, toTurnFailedPayload input = some payload ∧ payload.turnRecordId = r.id ∧
      payload.turnId = r.turnId := by
    unfold toTurnFailedPayload
    rw [hr]
    dsimp only
    rw [if_pos hst]
    exact ⟨_, rfl, rfl, rfl⟩
  obtain ⟨payload, hp, hid, hturn⟩ := hpayload
  unfold buildWorkerFailureWrites at h
  rw [hp, hr] at h
  dsimp only at h
  cases hb : buildParkProcessWrites p
      { selectedTurnId := p.selectedTurnId, reason := some input.message, errorClass := input.errorClass } true with
  | error e => rw [hb] at h; cases h
  | ok park =>
    rw [hb] at h
    cases h
    obtain ⟨-, rfl⟩ := buildParkProcessWrites_ok hb
    obtain ⟨⟨patch, hrec, hst⟩, hs, hx, hsel, -, hwait, ht⟩ := buildTurnFailedWrites_spec p payload r endedAt
    obtain ⟨status, hcand⟩ := candidate_failureTail (buildTurnFailedWrites p payload r endedAt) p p
      (some (.stopWithReason s!"lifecycle_parked:{p.selectedTurnId.getD p.lifecycleStatus.text}"))
      (some (.stopWithReason s!"worker_failed:{input.errorCode}"))
    rw [hcand]
    refine ⟨⟨patch, ?_, hst⟩, ?_, hx, hsel.trans (congrArg some hturn), hwait, ?_⟩
    · rw [turnRecordWrites_merge, turnRecordWrites_merge, turnRecordWrites_apply, hrec, hid]
      rfl
    · rw [turnStartWrites_merge, turnStartWrites_merge, turnStartWrites_apply, hs]
      rfl
    · exact (ht.merge (.inl ((tracked_empty _ rfl rfl).apply _))).merge (.inl (tracked_empty _ rfl rfl))

theorem buildWorkerFailureWrites_none {input : WorkerFailureWritesInput} {endedAt : String}
    (hr : input.activeTurnRecord = none) (h : buildWorkerFailureWrites p input endedAt = .ok w) :
    w.turnRecordWrites = [] ∧ w.turnStartWrites = [] ∧
      (∃ status, w.candidate p = { p with lifecycleStatus := status }) ∧ Tracked p w := by
  unfold buildWorkerFailureWrites toTurnFailedPayload at h
  rw [hr] at h
  dsimp only at h
  cases hb : buildParkProcessWrites p
      { selectedTurnId := p.selectedTurnId, reason := some input.message, errorClass := input.errorClass } true with
  | error e => rw [hb] at h; cases h
  | ok park =>
    rw [hb] at h
    cases h
    obtain ⟨-, rfl⟩ := buildParkProcessWrites_ok hb
    refine ⟨?_, ?_, candidate_failureTail {} p p _ _, ?_⟩
    · rw [turnRecordWrites_merge, turnRecordWrites_merge, turnRecordWrites_apply]
      rfl
    · rw [turnStartWrites_merge, turnStartWrites_merge, turnStartWrites_apply]
      rfl
    · exact ((tracked_empty _ rfl rfl).merge (.inl ((tracked_empty _ rfl rfl).apply _))).merge
        (.inl (tracked_empty _ rfl rfl))

/-- A failure that its lease may report fails the current record while it runs. -/
theorem decideWorkerFailure_running {payload : WorkerFailurePayload} {decision : Decision}
    (h : decideWorkerFailure d ctx st payload = .ok decision) (hown : failureFromReplacedWorker st payload = false)
    (hstart : startingExecution st = none) {r : TurnRecord} (hcur : st.currentTurnRecord = some r)
    (hrun : r.status = .running) :
    ∃ patch, decision.writes.turnRecordWrites = [.update r.id patch] ∧ patch.status = some .failed := by
  have hfilter : st.currentTurnRecord.filter (·.status = .running) = some r := by
    rw [hcur]
    exact Option.filter_eq_some_iff.2 ⟨rfl, by simpa using hrun⟩
  unfold decideWorkerFailure at h
  dsimp only at h
  rw [hown, if_neg (by decide), hstart, hfilter] at h
  obtain ⟨writes, hb, rfl⟩ := bind_ok h
  exact (buildWorkerFailureWrites_running rfl hrun hb).1

theorem decideWorkerFailure_ok {payload : WorkerFailurePayload} {decision : Decision} {exempt asked : TurnId → Prop}
    {replaces parks misroutes : Prop} {completes : String → Prop} (h : decideWorkerFailure d ctx st payload = .ok decision) (hg : Gated d st.process)
    (hk : st.RecordsKeyed) : Decided d ctx st exempt asked replaces parks misroutes completes decision.writes := by
  unfold decideWorkerFailure at h
  dsimp only at h
  split at h
  · cases h
    exact decided_nothing hg
  split at h
  · rename_i startId resolved hstart
    obtain ⟨s, hs, rfl, hst⟩ := startingExecution_some hstart
    split at h
    · cases h
      exact decided_nothing hg
    · cases h
      exact ⟨.kept rfl rfl, .inl (Nat.zero_le 1), waitOk_of_kept hg rfl rfl,
        Tracked.of_changed (addField_ne_nil [] "lifecycleStatus"),
        .failsBootstrap s resolved _ _ _ hs hst rfl rfl rfl rfl⟩
  · rename_i hstart
    split at h
    · rename_i running hrun
      obtain ⟨hcur, hstatus⟩ := Option.filter_eq_some_iff.1 hrun
      have hstatus : running.status = .running := by simpa using hstatus
      obtain ⟨id, hid, hrow⟩ := Option.bind_eq_some_iff.1 hcur
      obtain rfl := hk id running hrow
      obtain ⟨writes, hb, rfl⟩ := bind_ok h
      obtain ⟨⟨patch, hrec, hp⟩, hs, hx, hsel, hwait, ht⟩ := buildWorkerFailureWrites_running rfl hstatus hb
      exact ⟨.kept (creates_nil hs) hx, .inl (by rw [creates_nil hs]; exact Nat.zero_le 1),
        waitOk_of_kept hg hwait (creates_nil hs), ht, .fails _ running patch hid hrow hp (by rw [Writes.casWrites, hs]; rfl)
          hrec (creates_nil hs) hx (.inr (.inl hsel))⟩
    · rename_i hrun
      have hlive : st.liveExecution = false := by
        unfold Store.liveExecution
        rw [hstart]
        cases hcur : st.currentTurnRecord with
        | none => rfl
        | some r =>
          rw [hcur] at hrun
          have : r.status ≠ .running := by simpa using hrun
          simpa using this
      split at h
      · cases h
        exact decided_nothing hg
      split at h
      · cases h
        exact decided_still hg ⟨fun _ => rfl, fun _ => rfl, fun _ => rfl, fun _ => rfl, rfl, rfl, rfl⟩ fun _ => ⟨rfl, rfl⟩
      · obtain ⟨writes, hb, rfl⟩ := bind_ok h
        obtain ⟨hrec, hs, ⟨status, hcand⟩, ht⟩ := buildWorkerFailureWrites_none rfl hb
        refine ⟨.kept (creates_nil hs) (by rw [hcand]), .inl (by rw [creates_nil hs]; exact Nat.zero_le 1),
          waitOk_of_kept hg (by rw [hcand]) (creates_nil hs), ht, .keeps (by rw [Writes.casWrites, hs]; rfl) (logs_nil hrec)
            ⟨creates_nil hs, by rw [hcand], fun _ => .inr (.inl hlive), .inl (by rw [hcand])⟩⟩

end Leitwerk.Engine
