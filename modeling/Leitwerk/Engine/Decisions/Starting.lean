import Leitwerk.Engine.Steps
/-!
# Starting, acting and accepting

A selection by the graph moves the execution; an action's plan may keep it, and an
accepted start gets its turn record.
-/

namespace Leitwerk.Engine

open Results (ok_of_bind)

variable {d : ProcessDefinition} {ctx : Context} {st : Store} {p : Process} {w v : Writes} {ids : FreshIds}

/-! ## Starting and activating -/

/-- The turn selection of `StartProcess`. -/
def StartProcessInput.selection (input : StartProcessInput) (p : Process) : TurnSelectionWritesInput :=
  { fromTurnId := some p.selectedTurnId, toTurnId := some input.startTurnId, trigger := some "start" }

/-- Whether a `StartProcess` drops the execution the process has: it neither insists on a process
without one nor restarts a waiting one, and its selection is accepted. -/
def StartProcessInput.replacesExecution (d : ProcessDefinition) (p : Process) (input : StartProcessInput) : Bool :=
  !input.onlyIfUnstarted && input.restart.isNone && (checkTurnSelection d p (input.selection p)).isOk &&
    (input.selection p).replacesExecution d p

theorem checkRestart_some {restart : WaitingProcessRestart} (h : checkRestart ctx st (some restart) = .ok ()) :
    st.process.currentExecution = none := by
  unfold checkRestart at h
  dsimp only at h
  split at h
  · cases h
  · rename_i hcur
    rw [Bool.not_eq_false] at hcur
    unfold restartCurrent at hcur
    simp only [Bool.and_eq_true, beq_iff_eq, Option.isNone_iff_eq_none] at hcur
    exact hcur.1.1.1.2

theorem decideStartProcess_ok {input : StartProcessInput} {decision : Decision} {exempt : TurnId → Prop} {completes : String → Prop}
    (h : decideStartProcess d ctx st input = .ok decision) (hg : Gated d st.process) (hs : st.Selected) :
    Decided d ctx st exempt (fun _ => False) (input.replacesExecution d st.process = true) False False completes decision.writes := by
  unfold decideStartProcess at h
  obtain ⟨u, hr, h⟩ := ok_of_bind h
  split at h
  · cases h
    exact decided_nothing hg
  rename_i hstart
  obtain ⟨selection, hb, h⟩ := ok_of_bind h
  obtain ⟨hcheck, hsel⟩ := buildTurnSelectionWrites_ok hb
  -- the writes of a restart move the process as its selection does
  have hmove : SameMove selection decision.writes ∧ Tracked st.process decision.writes := by
    split at h
    · cases h
      exact ⟨(SameMove.apply quiet_stateJson _).trans (sameMove_projects _ _), hsel.routes.tracked.apply _⟩
    · cases h
      exact ⟨.refl, hsel.routes.tracked⟩
  refine ((decided_selection hg hsel hmove.1 hmove.2).of_not_live (fun hrep => ?_)).mono
    (fun _ h => h) (fun _ h => h) id ?_ ?_ fun _ h => h
  · by_cases hx : st.process.currentExecution = none
    · exact .inl (liveExecution_none hx)
    · right
      have hnone : input.restart = none := by
        cases hre : input.restart with
        | none => rfl
        | some restart =>
          rw [hre] at hr
          exact absurd (checkRestart_some hr) hx
      have hstart' : input.onlyIfUnstarted = false := by
        rw [not_and, not_or, not_or] at hstart
        by_contra hon
        rw [Bool.not_eq_false] at hon
        have := (hstart hon).2.2
        rw [Option.not_isSome_iff_eq_none] at this
        exact hx this
      rw [StartProcessInput.replacesExecution, hstart', hnone, StartProcessInput.selection, hcheck, hrep]
      rfl
  · intro he
    exact absurd he (target_ne_error rfl rfl)
  · rintro ⟨hk, hne, hx⟩
    rcases kept_of_derived hcheck rfl rfl hk with hsame | hnone
    · exact hne hsame
    · have := hs hx
      rw [hnone] at this
      cases this

theorem decideActivateDeferredProcess_ok {prepared : DeferredProcessActivation} {decision : Decision}
    {exempt asked : TurnId → Prop} {replaces parks misroutes : Prop} {completes : String → Prop}
    (h : decideActivateDeferredProcess d ctx st prepared = .ok decision) (hg : Gated d st.process) (hs : st.Selected) :
    Decided d ctx st exempt asked replaces parks misroutes completes decision.writes := by
  unfold decideActivateDeferredProcess at h
  split at h
  · cases h
    exact decided_nothing hg
  split at h
  · cases h
    exact decided_nothing hg
  split at h
  · cases h
    exact decided_nothing hg
  rename_i hguard
  rw [not_or, not_or, not_not, Option.not_isSome_iff_eq_none] at hguard
  -- a process without a selected turn has no execution
  have hx : st.process.currentExecution = none := by
    by_contra hx
    have := hs (Option.isSome_iff_ne_none.2 hx)
    rw [hguard.2.1] at this
    cases this
  split at h
  · cases h
    exact decided_nothing hg
  · rename_i selection hb
    cases h
    obtain ⟨-, hsel⟩ := buildTurnSelectionWrites_ok hb
    have hm : SameMove {}
        ({ processPatch := { paramsJson := some prepared.paramsJson }
           changedFields := if st.process.paramsJson = prepared.paramsJson then [] else ["paramsJson"]
           projects := some (prepared.bindProject st.projects) } : Writes) :=
      ⟨fun _ => rfl, fun _ => rfl, fun _ => rfl, fun _ => rfl, rfl, rfl, rfl⟩
    refine ((decided_selection hg hsel hm.merge_left ?_).of_not_live fun _ => .inl (liveExecution_none hx)).mono
      (fun _ h => h) (fun _ h => h.elim) id (fun he => absurd he (target_ne_error rfl rfl)) ?_ fun _ h => h
    · refine Tracked.merge ?_ (.inl hsel.routes.tracked)
      intro h0
      split at h0
      · rename_i hparams
        refine ⟨?_, rfl⟩
        show { st.process with paramsJson := prepared.paramsJson } = st.process
        rw [← hparams]
      · cases h0
    · rintro ⟨-, -, hcur⟩
      rw [hx] at hcur
      cases hcur

theorem decideParkDeferredProcessActivationFailure_ok {found : Json → Bool} {facts : Process → Json → Bool}
    {decision : Decision} {exempt asked : TurnId → Prop} {replaces parks misroutes : Prop} {completes : String → Prop}
    (h : decideParkDeferredProcessActivationFailure st found facts = .ok decision) (hg : Gated d st.process)
    (hs : st.Selected) : Decided d ctx st exempt asked replaces parks misroutes completes decision.writes := by
  unfold decideParkDeferredProcessActivationFailure at h
  split at h
  · cases h
    exact decided_nothing hg
  · rename_i hguard
    cases h
    rw [not_or, not_or, not_or, Option.not_isSome_iff_eq_none] at hguard
    have hx : st.process.currentExecution = none := by
      by_contra hx
      have := hs (Option.isSome_iff_ne_none.2 hx)
      rw [hguard.2.2.1] at this
      cases this
    exact decided_status hg .error (fun _ => .inr (.inl (liveExecution_none hx))) _

theorem decideArmTurnWait_ok {decision : Decision} {exempt asked : TurnId → Prop} {replaces parks misroutes : Prop} {completes : String → Prop}
    (h : decideArmTurnWait d ctx st = .ok decision) (hg : Gated d st.process) :
    Decided d ctx st exempt asked replaces parks misroutes completes decision.writes := by
  unfold decideArmTurnWait at h
  split at h
  · cases h
    exact decided_nothing hg
  · rename_i hguard
    rw [not_or, not_or, Option.not_isSome_iff_eq_none, Option.not_isSome_iff_eq_none] at hguard
    obtain ⟨-, hx, hguard⟩ := hguard
    rw [not_or, Option.isNone_iff_eq_none] at hguard
    obtain ⟨turnId, hto⟩ := Option.ne_none_iff_exists'.1 hguard.1
    cases hb : buildTurnSelectionWrites d st.process { toTurnId := st.process.selectedTurnId } (ctx.fresh 0) with
    | error e => rw [hb] at h; cases h
    | ok selection =>
      rw [hb] at h
      cases h
      obtain ⟨-, hsel⟩ := buildTurnSelectionWrites_ok hb
      refine ((decided_selection hg hsel .refl hsel.routes.tracked).of_not_live
        fun _ => .inl (liveExecution_none hx)).mono (fun _ h => h) (fun _ h => h.elim) id
        (fun he => absurd he (target_ne_error rfl hto)) ?_ fun _ h => h
      rintro ⟨-, hne, -⟩
      exact absurd rfl hne

/-! ## Acting -/

/-- The plan of an action that is executed. -/
def actionPlan (ctx : Context) (st : Store) : Option ProcessPlan :=
  match ctx.planProcessAction st.process with
  | .ok planned => some planned.plan
  | .error _ => none

/-- Whether the action drops the execution the process has. -/
def actionReplaces (d : ProcessDefinition) (ctx : Context) (st : Store) : Bool :=
  (actionPlan ctx st).any (·.replacesExecution d st.process)

/-- Whether the action asks for the `error` status. -/
def actionAsksError (d : ProcessDefinition) (ctx : Context) (st : Store) : Bool :=
  (actionPlan ctx st).any (·.lifecycleStatus d st.process == .error)

/-- The automatic turn an action reserves a start of in a process it stops. -/
def ActionAsks (d : ProcessDefinition) (ctx : Context) (st : Store) (turnId : TurnId) : Prop :=
  ∃ plan, actionPlan ctx st = some plan ∧ plan.Asks d st.process turnId

/-- Whether an action stops the process with a start that is ready. -/
def actionStopsStart (d : ProcessDefinition) (ctx : Context) (st : Store) : Bool :=
  (actionPlan ctx st).any (·.stopsStart d st.process)

/-- Whether the action selects another turn and keeps the execution. -/
def actionMisroutes (d : ProcessDefinition) (ctx : Context) (st : Store) : Bool :=
  (actionPlan ctx st).any fun plan =>
    !plan.replacesExecution d st.process && plan.turnId.getD st.process.selectedTurnId != st.process.selectedTurnId

theorem decideExecuteAction_ok {decision : Decision} {exempt : TurnId → Prop} {completes : String → Prop}
    (h : decideExecuteAction d ctx st = .ok decision) (hg : Gated d st.process) :
    Decided d ctx st exempt (ActionAsks d ctx st) (actionReplaces d ctx st = true)
      (actionReplaces d ctx st = false ∧ actionAsksError d ctx st = true) (actionMisroutes d ctx st = true) completes
      decision.writes := by
  unfold decideExecuteAction at h
  cases hp : ctx.planProcessAction st.process with
  | error e => rw [hp] at h; cases h
  | ok planned =>
    rw [hp] at h
    have hplan : actionPlan ctx st = some planned.plan := by
      unfold actionPlan
      rw [hp]
    cases hw : planWrites d st.process planned.plan (ctx.fresh 0) with
    | error e =>
      replace h : (planWrites d st.process planned.plan (ctx.fresh 0)).bind _ = Except.ok decision := h
      rw [hw] at h
      cases h
    | ok writes =>
      replace h : (planWrites d st.process planned.plan (ctx.fresh 0)).bind _ = Except.ok decision := h
      rw [hw] at h
      have hpl := planWrites_ok hw
      -- the settled record of a human turn is the only other write
      obtain ⟨records, hrec, hlogs⟩ : ∃ records, decision.writes = { writes with turnRecordWrites := records } ∧
          ∀ x ∈ records, ∃ r, x = .create r ∧ r.id = (ctx.fresh 1).turnRecordId ∧ r.status = .succeeded ∧
            r.errorSummary = none ∧ r.errorClass = none := by
        cases h
        refine ⟨_, rfl, fun x hx => ?_⟩
        rw [hpl.routes.records, List.nil_append] at hx
        cases hres : planned.resolvedTurnAction with
        | none => rw [hres] at hx; cases hx
        | some turn =>
          rw [hres] at hx
          rw [List.mem_singleton.1 hx]
          exact ⟨_, rfl, rfl, rfl, rfl, rfl⟩
      have hs : decision.writes.turnStartWrites = writes.turnStartWrites := by rw [hrec]
      have hcand : decision.writes.candidate st.process = writes.candidate st.process := by rw [hrec]; rfl
      have hrouted' := hpl.routed.of_patch (v := decision.writes) (by rw [hrec]) hs
      have hpt : Pointer exempt (ActionAsks d ctx st) st.process decision.writes :=
        (hpl.pointer.mono (fun _ h => h) fun t ht => ⟨_, hplan, ht⟩).of_patch (by rw [hrec]) hs
      have hc : decision.writes.creates = writes.creates := creates_of_starts hs
      have hl : Logs ctx decision.writes := by
        rw [Logs, hrec]
        exact hlogs
      refine ⟨hpt, typed_of_routed hrouted', ?_, ?_, ?_⟩
      · have hwait := waitOk_of_routes hg hpl.routes
        refine ⟨by rw [hcand]; exact hwait.gated, by rw [hcand]; exact hwait.old, fun s hs1 ha => ?_⟩
        rw [hcand, hc]
        refine hwait.admission s (hc ▸ hs1) ?_
        rw [← ha]
        unfold startAdmitted
        rw [hrec]
      · intro h0
        rw [hcand, hc]
        exact hpl.routes.tracked (by rw [hrec] at h0; exact h0)
      · have hrep : actionReplaces d ctx st = planned.plan.replacesExecution d st.process := by
          rw [actionReplaces, hplan]
          rfl
        cases hr : planned.plan.replacesExecution d st.process with
        | true =>
          refine .leaves (cas_of_routed hrouted') hl (.inr (hrep.trans hr)) fun h0 => ?_
          rw [hcand]
          rcases hpl.replaced hr with ⟨-, hx⟩ | ⟨s, hs, -⟩
          · exact hx
          · rw [hc, Writes.creates, hs] at h0
            cases h0
        | false =>
          obtain ⟨hs0, hx⟩ := hpl.kept hr
          refine .keeps (cas_of_routed hrouted') hl ⟨creates_nil (hs.trans hs0), by rw [hcand]; exact hx, fun he => ?_, ?_⟩
          · refine .inr (.inr ⟨hrep.trans hr, ?_⟩)
            rw [actionAsksError, hplan, Option.any_some, beq_iff_eq]
            rcases hpl.lifecycle with hl | ⟨s, hs1, -⟩
            · rw [← hl, ← hcand]
              exact he
            · rw [hs0] at hs1
              cases hs1
          · rw [hcand, hpl.selected]
            by_cases hsel : planned.plan.turnId.getD st.process.selectedTurnId = st.process.selectedTurnId
            · exact .inl hsel
            · refine .inr (.inr ⟨?_, ?_⟩)
              · rw [actionMisroutes, hplan, Option.any_some, hr]
                simpa using hsel
              · exact planned.plan.turnId_isSome hr hsel

/-! ## Accepting -/

theorem startForAcceptance_ok {input : AcceptWorkerTurnStartInput} {s : TurnStartRecord}
    (h : startForAcceptance st input = .ok s) :
    st.currentStart = some s ∧ st.process.lifecycleStatus = .active ∧ st.process.selectedTurnId = some s.turnId ∧
      st.process.currentExecution = some input.startRecordId ∧ s.proposedTurnRecordId = input.proposedTurnRecordId := by
  unfold startForAcceptance at h
  split at h
  · cases h
  rename_i hguard
  rw [not_or, not_not, not_not] at hguard
  split at h
  · rename_i start hstart
    split at h
    · rename_i hsame
      cases h
      exact ⟨by rw [Store.currentStart, hguard.2]; exact hstart, hguard.1, hsame.2.symm, hguard.2, hsame.1⟩
    · cases h
  · cases h

theorem decideAcceptWorkerTurnStart_ok {input : AcceptWorkerTurnStartInput} {decision : Decision}
    {exempt asked : TurnId → Prop} {replaces parks misroutes : Prop} {completes : String → Prop}
    (h : decideAcceptWorkerTurnStart d ctx st input = .ok decision) (hg : Gated d st.process) :
    Decided d ctx st exempt asked replaces parks misroutes completes decision.writes := by
  unfold decideAcceptWorkerTurnStart at h
  obtain ⟨start, hs, h⟩ := ok_of_bind h
  obtain ⟨⟨lease, receipt⟩, hl, h⟩ := ok_of_bind h
  obtain ⟨hcur, hlife, hsel, -, -⟩ := startForAcceptance_ok hs
  dsimp only at h
  split at h
  · split at h
    · cases h
      exact decided_nothing hg
    · cases h
  · rename_i resolved hst
    split at h
    · split at h
      · cases h
      split at h
      · cases h
      · cases h
        -- the metadata of a continuation is consumed with its start
        refine ⟨?_, ?_, ?_, ?_, .accepts start resolved lease receipt hcur hst hlife hsel ?_ ?_ ?_ ?_⟩
        · split <;> exact .kept rfl rfl
        · split <;> exact .inl (Nat.zero_le 1)
        · split <;> exact waitOk_of_kept hg rfl rfl
        · split
          · exact Tracked.put _ _
          · exact fun _ => ⟨rfl, rfl⟩
        · split <;> rfl
        · split <;> rfl
        · split <;> rfl
        · split
          · exact ⟨_, rfl⟩
          · exact ⟨_, rfl⟩
    · cases h
  · cases h

end Leitwerk.Engine
