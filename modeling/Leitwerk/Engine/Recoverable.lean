import Leitwerk.Engine.Sound
/-!
# A stopped process can be retried

A process in the `error` status with a worker execution is retried by what its
current start says: a start that failed before it was accepted is started again,
an accepted one has its failed record retried. The status is meant to be reached
only together with such a start.
-/

namespace Leitwerk.Engine

variable {d : ProcessDefinition} {ctx : Context} {st st' : Store} {op : Op} {w v : Writes}

/-- Whether the current start failed, before or after its acceptance. -/
def Store.retryable (st : Store) : Bool :=
  match st.currentStart with
  | some s => match s.state with
    | .preparationFailed _ | .bootstrapFailed .. => true
    | .accepted .. => st.currentTurnRecord.any (·.status == .failed)
    | .starting _ | .superseded _ => false
  | none => false

/-- Whether an event stops the process neither while its execution lives nor with a start that is ready. -/
def stopsSettled (d : ProcessDefinition) (st : Store) : Event → Bool
  | .op op ctx => !(op.parksExecution d ctx st && st.liveExecution) && !op.stopsStart d ctx st
  | .leases _ => true

/-- A stopped process has no execution that lives. -/
def Store.Stopped (st : Store) : Prop := st.process.lifecycleStatus = .error → st.liveExecution = false

/-! ## What one operation does to the execution -/

/-- An operation that keeps the execution, its start and its record keeps it over. -/
theorem Ran.not_live_kept (h : Ran d ctx st op w v st') (hs : Sound d st) (hc : w.creates = [])
    (hx : (w.candidate st.process).currentExecution = st.process.currentExecution) (hcas : w.casWrites = [])
    (hrec : ∀ k r, st.turnRecords.get? k = some r → ∃ r', st'.turnRecords.get? k = some r' ∧
      (r'.status = .running → r.status = .running)) (hl : st.liveExecution = false) : st'.liveExecution = false := by
  by_contra hlive
  rw [Bool.not_eq_false] at hlive
  obtain ⟨s', hs', hrest⟩ := liveExecution_iff.1 hlive
  obtain ⟨k, hcur, hrow'⟩ := Option.bind_eq_some_iff.1 hs'
  rw [(h.stayed hc).2.1, hx] at hcur
  obtain ⟨s, hrow, hp⟩ := hs.current k hcur
  have hcs := currentStart_of_row hcur hrow
  rw [h.start_same hcas hrow, Option.some.injEq] at hrow'
  subst hrow'
  have : st.liveExecution = true := by
    refine liveExecution_iff.2 ⟨s, hcs, hrest.imp_right ?_⟩
    rintro ⟨start, rid, lease, r', hst, hr', hrun⟩
    obtain ⟨r, hr, -⟩ := hp.record start rid lease hst
    obtain ⟨r'', hr'', himp⟩ := hrec rid r hr
    rw [hr', Option.some.injEq] at hr''
    subst hr''
    exact ⟨start, rid, lease, r, hst, hr, himp hrun⟩
  rw [hl] at this
  cases this

/-- An execution whose start is at a given row. -/
theorem not_live_of_row {k : String} {s : TurnStartRecord} (hcur : st.process.currentExecution = some k)
    (hrow : st.turnStarts.get? k = some s) (hstart : s.state.kind ≠ .starting)
    (hrec : ∀ start rid lease r, s.state = .accepted start rid lease → st.turnRecords.get? rid = some r →
      r.status ≠ .running) : st.liveExecution = false := by
  by_contra hlive
  rw [Bool.not_eq_false] at hlive
  obtain ⟨s', hs', hrest⟩ := liveExecution_iff.1 hlive
  rw [currentStart_of_row hcur hrow, Option.some.injEq] at hs'
  subst hs'
  rcases hrest with ⟨resolved, hst⟩ | ⟨start, rid, lease, r, hst, hr, hrun⟩
  · rw [hst] at hstart
    exact hstart rfl
  · exact hrec start rid lease r hst hr hrun

/-- A new execution of a process that is stopped awaits nothing. -/
theorem Ran.not_live_moved (h : Ran d ctx st op w v st') (hs : Sound d st)
    (hx : w.creates = [] → (w.candidate st.process).currentExecution = none) (hok : op.stopsStart d ctx st = false)
    (he : st'.process.lifecycleStatus = .error) : st'.liveExecution = false := by
  rcases h.moved hx with hnone | ⟨c, hc, hcur, -, hst⟩
  · exact liveExecution_none hnone
  · refine not_live_of_row hcur (h.start_created hs.startsKeyed hc).2.1 (fun hkind => ?_) ?_
    · have hbegins : c.begins = true := by
        cases hst' : c.state with
        | starting s => rw [TurnStart.begins, hst']; rfl
        | preparationFailed f =>
          rw [show c.toRecord.state = c.state.toState from rfl, hst'] at hkind
          cases hkind
      rw [hst hbegins he] at hok
      cases hok
    · intro start rid lease r hacc
      rcases toState_kind c.state with h' | h' <;> rw [show c.state.toState = c.toRecord.state from rfl, hacc] at h' <;>
        cases h'

theorem Store.Stopped.step (hi : st.Stopped) (hs : Sound d st) (hok : stopsSettled d st (.op op ctx) = true)
    (h : Ran d ctx st op w v st') : st'.Stopped := by
  intro he
  simp only [stopsSettled, Bool.and_eq_true, Bool.not_eq_true', Bool.and_eq_false_iff] at hok
  cases h.decided.act with
  | keeps hc hr hk =>
    refine h.not_live_kept hs hk.creates hk.current hc (fun k r hrow => ⟨r, h.record_logged hr hrow, id⟩) ?_
    rw [(h.stayed hk.creates).2.2.2] at he
    rcases hk.error he with hold | hl | hparks
    · exact hi hold
    · exact hl
    · rcases hok.1 with hno | hl
      · rw [hparks] at hno
        cases hno
      · exact hl
  | leaves hc hr hl hx => exact h.not_live_moved hs hx hok.2 he
  | succeeds payload hco hid hc hr hx => exact h.not_live_moved hs hx hok.2 he
  | supersedes hc hr hx => exact h.not_live_moved hs hx hok.2 he
  | accepts s resolved lease receipt hcs hst hlife hsel hc hr hnil hcand =>
    obtain ⟨m, hcand⟩ := hcand
    rw [(h.stayed hnil).2.2.2, hcand] at he
    exact absurd (hlife.symm.trans he) (by decide)
  | fails id r patch hid hrow hp hc hr hnil hx hsel =>
    obtain ⟨s, start, lease, hcs, hst⟩ := currentTurnRecordId_iff.1 hid
    obtain ⟨hcur, hrows⟩ := currentStart_row hcs hs.startsKeyed
    refine not_live_of_row ((h.stayed hnil).2.1.trans (hx.trans hcur)) (h.start_same hc hrows) (by rw [hst]; nofun) ?_
    intro start' rid lease' r' hacc hr' hrun
    rw [hst] at hacc
    cases hacc
    -- the current record is the one that failed
    rw [h.record_updated hr hrow, if_pos rfl, Option.some.injEq] at hr'
    rw [← hr', TurnRecordPatch.apply, hp] at hrun
    cases hrun
  | failsBootstrap s resolved lease code message hcs hst hc hr hnil hcand =>
    obtain ⟨hcur, hrow⟩ := h.current_cas hs.startsKeyed hcs hc hnil (by rw [hcand])
    refine not_live_of_row hcur hrow nofun ?_
    intro start rid lease' r hacc
    cases hacc
  | reschedules s retry hcs hst hc hr hnil hcand =>
    obtain ⟨hcur, hrow⟩ := h.current_cas hs.startsKeyed hcs hc hnil (by rw [hcand])
    refine not_live_of_row hcur hrow (fun hkind => ?_) ?_
    · cases hs' : s.state with
      | starting start => rw [hs'] at hst; cases hst
      | _ => replace hkind : s.state.kind = .starting := hkind
             rw [hs'] at hkind
             cases hkind
    · intro start rid lease r hacc
      replace hacc : s.state = .accepted start rid lease := hacc
      rw [hacc] at hst
      cases hst

/-! ## Retrying -/

theorem Sound.retryable (hs : Sound d st) (hl : st.liveExecution = false)
    (hx : st.process.currentExecution.isSome = true) : st.retryable = true := by
  obtain ⟨k, hk⟩ := Option.isSome_iff_exists.1 hx
  obtain ⟨s, hcs, -, hp⟩ := hs.currentStart hk
  unfold Store.retryable
  rw [hcs]
  dsimp only
  cases hst : s.state with
  | preparationFailed failure => rfl
  | bootstrapFailed start lease code summary => rfl
  | superseded start => exact absurd (by rw [hst]; rfl) hp.kind
  | starting start =>
    have := liveExecution_iff.2 ⟨s, hcs, .inl ⟨start, hst⟩⟩
    rw [hl] at this
    cases this
  | accepted start rid lease =>
    have hid := currentTurnRecordId_iff.2 ⟨s, start, lease, hcs, hst⟩
    obtain ⟨r, hr, hstatus⟩ := hp.record start rid lease hst
    dsimp only
    rw [Store.currentTurnRecord, hid, Option.bind_some, hr, Option.any_some]
    rcases hstatus with hrun | hfailed
    · have := liveExecution_iff.2 ⟨s, hcs, .inr ⟨start, rid, lease, r, hst, hr, hrun⟩⟩
      rw [hl] at this
      cases this
    · rw [hfailed]
      rfl

/-- A retry of a failed startup is never refused for want of a target. -/
theorem Sound.retryStartup (ctx : Context) (input : RetryStartupInput) (hs : Sound d st) (he : st.process.lifecycleStatus = .error) {s : TurnStartRecord}
    (hcs : st.currentStart = some s) (hst : (retriedStartState s.state).isSome = true)
    (hid : input.startRecordId = s.id) : ∃ decision, decideRetryStartup ctx st input = .ok decision := by
  obtain ⟨hcur, hrow⟩ := currentStart_row hcs hs.startsKeyed
  obtain ⟨state, hstate⟩ := Option.isSome_iff_exists.1 hst
  have htarget : startupRetryTarget st input.startRecordId = .ok (s, state) := by
    unfold startupRetryTarget
    rw [hid, if_neg (by rw [not_or, not_not, not_not]; exact ⟨he, hcur⟩), hrow]
    dsimp only
    rw [hstate]
  unfold decideRetryStartup
  rw [htarget]
  exact ⟨_, rfl⟩

theorem Sound.retry (hs : Sound d st) (he : st.process.lifecycleStatus = .error)
    (hx : st.process.currentExecution.isSome = true) (hr : st.retryable = true) (input : DecisionMetadata) {why : Rejection}
    (h : (retryProcessOp st input).decide d ctx st = .error why) : why.code ≠ "retry_target_missing" := by
  unfold retryProcessOp at h
  rw [hs.gated.wait_none hx, Option.any_none, if_neg (by decide)] at h
  unfold Store.retryable at hr
  cases hcs : st.currentStart with
  | none => rw [hcs] at hr; cases hr
  | some s =>
    rw [hcs] at hr h
    dsimp only at hr h
    cases hst : s.state with
    | starting start => rw [hst] at hr; cases hr
    | superseded start => rw [hst] at hr; cases hr
    | preparationFailed failure =>
      obtain ⟨decision, hd⟩ := Sound.retryStartup ctx { startRecordId := s.id, metadata := input } hs he hcs
        (by rw [hst]; rfl) rfl
      rw [hst] at h
      exact nomatch hd.symm.trans h
    | bootstrapFailed start lease code summary =>
      obtain ⟨decision, hd⟩ := Sound.retryStartup ctx { startRecordId := s.id, metadata := input } hs he hcs
        (by rw [hst]; cases start <;> rfl) rfl
      rw [hst] at h
      exact nomatch hd.symm.trans h
    | accepted start rid lease =>
      rw [hst] at h hr
      dsimp only at hr h
      cases hrec : st.currentTurnRecord with
      | none => rw [hrec] at hr; cases hr
      | some r =>
        rw [hrec, Option.any_some, beq_iff_eq] at hr
        replace h : decideRetryFailedTurn d ctx st input = .error why := h
        unfold decideRetryFailedTurn at h
        rw [hcs, hrec] at h
        dsimp only at h
        rw [if_neg (not_not.2 hr), if_neg (not_not.2 he)] at h
        -- only the definition may refuse the turn now
        unfold buildRetryWrites at h
        cases hty : d.workerTurnType r.turnId with
        | none =>
          rw [hty] at h
          cases h
          decide
        | some turnType => rw [hty] at h; cases h

/-- In a run whose steps never stop the process while its execution lives, or with a start that is
ready for a worker, a stopped process with an execution can always be retried. -/
theorem error_recoverable {st₀ : Store} {h : Runs.Hist Event Result} (h₀ : Fresh st₀)
    (hr : Runs.Run (Runs.Guard (EngineStep d) fun st e => stopsSettled d st e = true) st₀ h st)
    (he : st.process.lifecycleStatus = .error) (hx : st.process.currentExecution.isSome = true) :
    st.retryable = true ∧ ∀ ctx input why, (retryProcessOp st input).decide d ctx st = .error why →
      why.code ≠ "retry_target_missing" := by
  have hs : Sound d st := sound_of_run hr.of_guard (sound_fresh h₀)
  have hstopped : st.Stopped := inv_of_run hr (sound_fresh h₀) (fun _ => liveExecution_none h₀.execution)
    (fun st op ctx w v st' hs hi hok hran => hi.step hs hok hran) (fun st leases hi => hi)
  have hretry := hs.retryable (hstopped he) hx
  exact ⟨hretry, fun ctx input why => hs.retry he hx hretry input⟩

theorem error_recoverable_demo : (afterDemo demoFailed).retryable = true ∧ ∀ ctx input why,
    (retryProcessOp (afterDemo demoFailed) input).decide demoDefinition ctx (afterDemo demoFailed) = .error why →
      why.code ≠ "retry_target_missing" :=
  error_recoverable fresh_demo (run_demo_guarded (stopsSettled demoDefinition) (by decide +kernel)) (by decide +kernel) (by decide +kernel)

/-- A park of a process whose start awaits acceptance stops it with a start that nothing retries. -/
theorem park_leaves_starting : ¬ ∀ (d : ProcessDefinition) (st₀ st : Store) (h : Runs.Hist Event Result), Fresh st₀ →
    Runs.Run (EngineStep d) st₀ h st → st.process.lifecycleStatus = .error →
    st.process.currentExecution.isSome = true → st.retryable = true := by
  intro hall
  have := hall demoDefinition demoFresh _ _ fresh_demo
    (run_demo (demoStarted ++ [.op (.parkProcess ⟨none, none, none⟩) (demoContext "2")])) (by decide +kernel) (by decide +kernel)
  exact absurd this (by decide +kernel)

end Leitwerk.Engine
