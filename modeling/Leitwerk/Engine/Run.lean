import Leitwerk.Engine.Decisions.Starting
import Leitwerk.Engine.Decisions.Failing
import Leitwerk.Engine.Decisions.Recovering
import Leitwerk.Engine.Decisions.Waiting
import Leitwerk.Engine.Decisions.Superseding
import Leitwerk.Engine.Decisions.Outcome
/-!
# One operation, from its decision to its commit

The conditions under which an operation drops, parks or misroutes a live
execution, and what every accepted operation did: its decision, the writes
`record` made of it, and the rows they left.
-/

namespace Leitwerk.Engine

open Results (ok_of_bind)

variable {d : ProcessDefinition} {ctx : Context} {st st' : Store} {op : Op}

/-! ## Where an operation endangers a live execution -/

/-- Whether the operation replaces or clears the execution without settling it first. -/
def Op.replacesExecution (d : ProcessDefinition) (ctx : Context) (st : Store) : Op → Bool
  | .startProcess input => input.replacesExecution d st.process
  | .executeAction => actionReplaces d ctx st
  | _ => false

/-- Whether the operation stops the process and keeps its execution as it is. -/
def Op.parksExecution (d : ProcessDefinition) (ctx : Context) (st : Store) : Op → Bool
  | .parkProcess payload => parkAccepted st payload
  | .executeAction => !actionReplaces d ctx st && actionAsksError d ctx st
  | _ => false

/-- Whether the operation selects another turn than the one its execution is for. -/
def Op.misroutes (d : ProcessDefinition) (ctx : Context) (st : Store) : Op → Bool
  | .executeAction => actionMisroutes d ctx st
  | .turnFailed payload => failureMisnamed st payload
  | _ => false

/-- The automatic turn the operation reserves a start of in a process it stops. -/
def Op.Asks (d : ProcessDefinition) (ctx : Context) (st : Store) (op : Op) (turnId : TurnId) : Prop :=
  match op with
  | .executeAction => ActionAsks d ctx st turnId
  | .turnOutcome payload => OutcomeAsks d ctx st payload turnId
  | _ => False

/-- Whether the operation stops the process with a start that is ready for a worker. -/
def Op.stopsStart (d : ProcessDefinition) (ctx : Context) (st : Store) : Op → Bool
  | .executeAction => actionStopsStart d ctx st
  | .turnOutcome payload => outcomeStopsStart d ctx st payload
  | _ => false

/-- The turn a startup retry repeats, whichever turn is selected. -/
def Op.Exempts (st : Store) (op : Op) (turnId : TurnId) : Prop :=
  match op with
  | .retryStartup _ | .automaticRetryStartup _ => currentTurn st turnId
  | _ => False

theorem Op.exempts_not_asks {t : TurnId} (h : op.Exempts st t) : ¬ op.Asks d ctx st t := by
  cases op <;> first | exact h.elim | exact id

theorem Op.Asks.stops {t : TurnId} (h : op.Asks d ctx st t) (hg : turnWaitPredicate d (some t) = false) :
    op.stopsStart d ctx st = true := by
  cases op with
  | executeAction =>
    obtain ⟨plan, hplan, ha⟩ := h
    rw [stopsStart, actionStopsStart, hplan]
    exact ha.stops hg
  | turnOutcome payload =>
    obtain ⟨plan, hplan, ha⟩ := h
    rw [stopsStart, outcomeStopsStart, hplan]
    exact ha.stops hg
  | _ => exact h.elim

/-- Whether the operation is the outcome of a record. -/
def Op.Completes (op : Op) (turnRecordId : String) : Prop :=
  ∃ payload, op = .turnOutcome payload ∧ payload.turnRecordId = turnRecordId

/-! ## What an accepted operation did -/

theorem Op.decide_ok {decision : Decision} (h : op.decide d ctx st = .ok decision) (hg : Gated d st.process)
    (hs : st.Selected) (hk : st.RecordsKeyed) :
    Decided d ctx st (op.Exempts st) (op.Asks d ctx st) (op.replacesExecution d ctx st = true)
      (op.parksExecution d ctx st = true) (op.misroutes d ctx st = true) op.Completes decision.writes := by
  cases op with
  | startProcess input =>
    exact (decideStartProcess_ok h hg hs).mono (fun _ h => h) (fun _ h => h.elim) id False.elim False.elim fun _ h => h
  | activateDeferredProcess prepared => exact decideActivateDeferredProcess_ok h hg hs
  | parkDeferredProcessActivationFailure found facts => exact decideParkDeferredProcessActivationFailure_ok h hg hs
  | executeAction =>
    refine (decideExecuteAction_ok h hg).mono (fun _ h => h) (fun _ h => h) id (fun hp => ?_) id fun _ h => h
    rw [Op.parksExecution, hp.1, hp.2]
    rfl
  | acceptWorkerTurnStart input => exact decideAcceptWorkerTurnStart_ok h hg
  | turnOutcome payload =>
    exact (decideTurnOutcome_ok h hg).mono (fun _ h => h) (fun _ h => h) id id id fun _ hid => ⟨payload, rfl, hid.symm⟩
  | turnFailed payload => exact decideTurnFailed_ok h hg
  | workerFailure payload => exact decideWorkerFailure_ok h hg hk
  | parkProcess payload => exact decideParkProcess_ok h hg
  | retryFailedTurn input => exact decideRetryFailedTurn_ok h hg
  | retryStartup input => exact decideRetryStartup_ok h hg
  | automaticRetryStartup startRecordId => exact decideAutomaticRetryStartup_ok h hg
  | continueFailedTurn turnRecordId prompt input => exact decideContinueFailedTurn_ok h hg
  | armTurnWait => exact decideArmTurnWait_ok h hg
  | resolveTurnWait input => exact decideResolveTurnWait_ok h hg
  | retryTurnWait input => exact decideRetryTurnWait_ok h hg
  | abortProcess expected => exact decideAbortProcess_ok h hg
  | processObservation input => exact decideProcessObservation_ok h hg
  | updateRefs nextStateJson => exact decideUpdateRefs_ok h hg

theorem record_ok {decision : Decision} (h : record d ctx st decision = .ok st') :
    ∃ v, prepareWrites d ctx st decision = .ok v ∧ commitWrites ctx.now st v = some st' := by
  unfold record at h
  obtain ⟨v, hp, h⟩ := ok_of_bind h
  split at h
  · rename_i st'' hc
    cases h
    exact ⟨v, hp, hc⟩
  · cases h

theorem Op.run_ok (h : op.run d ctx st = .ok st') :
    ∃ decision v, op.decide d ctx st = .ok decision ∧ prepareWrites d ctx st decision = .ok v ∧
      commitWrites ctx.now st v = some st' := by
  unfold Op.run at h
  split at h
  · cases h
  cases hd : op.decide d ctx st with
  | error e => rw [hd] at h; cases h
  | ok decision =>
    rw [hd] at h
    obtain ⟨v, hv, hc⟩ := record_ok h
    exact ⟨decision, v, rfl, hv, hc⟩

/-- What an accepted operation did to the store. -/
structure Ran (d : ProcessDefinition) (ctx : Context) (st : Store) (op : Op) (w v : Writes) (st' : Store) : Prop where
  decided : Decided d ctx st (op.Exempts st) (op.Asks d ctx st) (op.replacesExecution d ctx st = true)
    (op.parksExecution d ctx st = true) (op.misroutes d ctx st = true) op.Completes w
  prepared : Prepared d (op.Exempts st) (fun t => op.Asks d ctx st t ∧ turnWaitPredicate d (some t) = false) st.process w v
  committed : Committed st v st'

theorem Op.ran (h : op.run d ctx st = .ok st') (hg : Gated d st.process) (hs : st.Selected) (hk : st.RecordsKeyed) :
    ∃ decision v, op.decide d ctx st = .ok decision ∧ prepareWrites d ctx st decision = .ok v ∧
      Ran d ctx st op decision.writes v st' := by
  obtain ⟨decision, v, hd, hv, hc⟩ := Op.run_ok h
  have hdec := Op.decide_ok hd hg hs hk
  have hprep := prepareWrites_ok hv (fun hw => by
    obtain ⟨x, hx⟩ := Option.isSome_iff_exists.1 hw
    exact (hg x hx).2) hdec.pointer hdec.typed hdec.wait hdec.tracked
    fun _ => Op.exempts_not_asks
  exact ⟨decision, v, hd, hv, hdec, hprep, commitWrites_ok hc hprep.tracked⟩

end Leitwerk.Engine
