import Leitwerk.Engine.Sound
/-!
# A worker report never redirects a process

A worker names a turn in its reports beside the record they are for. The process
is meant to follow the record: its selection stays the turn of the current start,
or moves from the record's turn along declared transitions.
-/

namespace Leitwerk.Engine

open Results (ok_of_bind)

variable {d : ProcessDefinition} {ctx : Context} {st st' : Store} {op : Op} {p q : Process} {w v : Writes}

/-! ## Where an outcome leads -/

theorem buildMappedItemOutcomeWrites_reach {payload : TurnOutcomePayload} {spec : MappedLlmTurnSpec}
    {iteration : Option MappedTurnItemRef} (h : buildMappedItemOutcomeWrites d ctx st q payload spec iteration = .ok w)
    (hsel : q.selectedTurnId = some payload.turnId) (hspec : getMappedTurnSpec d payload.turnId = some spec) :
    Reach d q.selectedTurnId (w.candidate q).selectedTurnId := by
  obtain ⟨runs, ⟨next, rfl⟩ | ⟨results, routed, hr, rfl⟩⟩ := buildMappedItemOutcomeWrites_inv h
  · refine (congrArg (Reach d q.selectedTurnId) (selected_reserve q _ _ _ _ _ q)).mpr ?_
    exact Reach.refl d _
  · obtain ⟨request, ht, -⟩ := collectAndRoute_ok hr hsel hspec
    rw [candidate_merge]
    exact ht.reach (by rw [hsel]; rfl)

theorem buildUnmappedOutcomeWrites_reach {payload : TurnOutcomePayload} {sw : Writes}
    (h : buildUnmappedOutcomeWrites d ctx q payload sw = .ok w) (hm : SameMove {} sw)
    (hsel : q.selectedTurnId = some payload.turnId) (hd : (d.turns payload.turnId).isSome = true) :
    Reach d q.selectedTurnId (w.candidate q).selectedTurnId := by
  unfold buildUnmappedOutcomeWrites at h
  have hsw : (sw.candidate q).selectedTurnId = q.selectedTurnId := hm.selected q
  cases hh : ctx.outcomeHandlers (sw.candidate q) payload with
  | error e => rw [hh] at h; cases h
  | ok plan =>
    rw [hh] at h
    replace h : (planWrites d (sw.candidate q) plan (ctx.fresh 0)).bind _ = Except.ok w := h
    cases he : planWrites d (sw.candidate q) plan (ctx.fresh 0) with
    | error e => rw [he] at h; cases h
    | ok effects =>
      rw [he] at h
      -- the handlers' own request, checked against the turn the outcome is for
      have hplan : Reach d q.selectedTurnId ((mergeWrites sw effects).candidate q).selectedTurnId := by
        have := (planWrites_ok he).reach (by rw [hsw, hsel]; rfl)
        rwa [hsw, ← candidate_merge] at this
      replace h : (if hasExplicitTurnSelectionChange q effects = true then _ else _) = Except.ok w := h
      split at h
      · cases h
        exact hplan
      · cases ht : declaredTransition d ((mergeWrites sw effects).candidate q) payload (ctx.fresh 1) with
        | error e => rw [ht] at h; cases h
        | ok transition =>
          rw [ht] at h
          cases h
          rw [candidate_merge]
          rcases declaredTransition_ok ht hd with rfl | ⟨-, hturn, input, hcheck, hto, -⟩
          · exact hplan
          · refine hplan.trans ?_
            rw [hto.selected]
            exact reach_of_check hcheck (by rw [hturn]; rfl)

theorem buildTurnOutcomeWrites_reach {payload : TurnOutcomePayload} {iteration : Option MappedTurnItemRef}
    (h : buildTurnOutcomeWrites d ctx st q payload iteration = .ok w) :
    q.selectedTurnId = some payload.turnId ∧ Reach d q.selectedTurnId (w.candidate q).selectedTurnId := by
  obtain ⟨⟨hd, hsel⟩, hcases⟩ := buildTurnOutcomeWrites_inv h
  refine ⟨hsel, ?_⟩
  have hm := sameMove_state q payload.state
  rcases hcases with ⟨spec, mapped, hspec, hmap, rfl⟩ | ⟨-, h⟩
  · have := buildMappedItemOutcomeWrites_reach hmap ((hm.selected q).trans hsel) hspec
    rw [hm.selected] at this
    rw [candidate_merge]
    exact this
  · exact buildUnmappedOutcomeWrites_reach h hm hsel hd

/-- An outcome is for the selected turn and leads from it along declared transitions. -/
theorem decideTurnOutcome_reach {reported : TurnOutcomePayload} {decision : Decision}
    (h : decideTurnOutcome d ctx st reported = .ok decision) :
    st.currentTurnRecordId = some reported.turnRecordId ∧ st.process.selectedTurnId = some reported.turnId ∧
      Reach d st.process.selectedTurnId (decision.writes.candidate st.process).selectedTurnId := by
  obtain ⟨payload, outcome, hpay, hid, ho, hw⟩ := decideTurnOutcome_inv h
  have hbase := outcomeBase ctx st payload
  have hturn : payload.turnId = reported.turnId := by
    rw [hpay]
    rfl
  obtain ⟨hsel, hreach⟩ := buildTurnOutcomeWrites_reach ho
  rw [hbase.selected] at hsel hreach
  rw [hturn] at hsel
  refine ⟨hid, hsel, ?_⟩
  rw [hw, (sameMove_entryRefs _ _).selected, candidate_merge]
  exact hreach

/-! ## The selection follows the execution -/

/-- The selected turn is that of the current start. -/
def Store.OnTurn (st : Store) : Prop :=
  ∀ s, st.currentStart = some s → st.process.selectedTurnId = some s.turnId

/-- Whether an event selects another turn than the executed one only where nothing is executed. -/
def routesSettled (d : ProcessDefinition) (st : Store) : Event → Bool
  | .op op ctx => !(op.misroutes d ctx st && st.process.currentExecution.isSome)
  | .leases _ => true

/-- The current start of an operation that stays at the execution. -/
theorem Sound.currentStart_stayed (hs : Sound d st) (h : Ran d ctx st op w v st') (hc : w.creates = [])
    (hx : (w.candidate st.process).currentExecution = st.process.currentExecution) {s' : TurnStartRecord}
    (hs' : st'.currentStart = some s') : ∃ s, st.currentStart = some s ∧ SameStart s s' := by
  obtain ⟨hcur', hrow'⟩ := currentStart_row hs' (h.startsKeyed hs.startsKeyed)
  have hcur : st.process.currentExecution = some s'.id := by rw [← hcur', (h.stayed hc).2.1, hx]
  obtain ⟨s, hrow, -⟩ := hs.current _ hcur
  obtain ⟨s'', hrow'', hsame, -⟩ := h.start_moves hs.startsKeyed hrow
  rw [hrow', Option.some.injEq] at hrow''
  exact ⟨s, currentStart_of_row hcur hrow, hrow'' ▸ hsame⟩

/-- An operation that leaves the execution leaves the process at the turn of its new start. -/
theorem Store.OnTurn.of_moved (hi : st.OnTurn) (hs : Sound d st) (h : Ran d ctx st op w v st')
    (hx : w.creates = [] → (w.candidate st.process).currentExecution = none) : st'.OnTurn := by
  intro s' hs'
  obtain ⟨hcur', hrow'⟩ := currentStart_row hs' (h.startsKeyed hs.startsKeyed)
  rcases h.moved hx with hnone | ⟨c, hc, hcur, hsel, -⟩
  · rw [hnone] at hcur'
    cases hcur'
  · rw [hcur, Option.some.injEq] at hcur'
    have hrow := (h.start_created hs.startsKeyed hc).2.1
    rw [hcur', hrow', Option.some.injEq] at hrow
    have hturn : s'.turnId = c.turnId := by
      rw [hrow]
      rfl
    rw [hturn]
    rcases hsel with hsel | ⟨hex, -, hsame⟩
    · exact hsel
    · -- a startup retry repeats the turn of the current start
      rw [hsame]
      cases op <;> first | exact hex.elim | skip
      all_goals
        obtain ⟨s, hcs, hst⟩ := hex
        rw [hi s hcs, hst]

theorem Store.OnTurn.of_stayed (hi : st.OnTurn) (hs : Sound d st) (h : Ran d ctx st op w v st') (hc : w.creates = [])
    (hx : (w.candidate st.process).currentExecution = st.process.currentExecution)
    (hsel : ∀ s, st.currentStart = some s → (w.candidate st.process).selectedTurnId = st.process.selectedTurnId ∨
      (w.candidate st.process).selectedTurnId = some s.turnId) : st'.OnTurn := by
  intro s' hs'
  obtain ⟨s, hcs, hsame⟩ := hs.currentStart_stayed h hc hx hs'
  rw [(h.stayed hc).2.2.1, hsame.turnId]
  rcases hsel s hcs with hsel | hsel
  · rw [hsel]
    exact hi s hcs
  · exact hsel

theorem currentExecution_of_currentStart {s : TurnStartRecord} (h : st.currentStart = some s) :
    st.process.currentExecution.isSome = true := by
  obtain ⟨id, hcur, -⟩ := Option.bind_eq_some_iff.1 h
  rw [hcur]
  rfl

theorem Store.OnTurn.step (hi : st.OnTurn) (hs : Sound d st) (hok : routesSettled d st (.op op ctx) = true)
    (h : Ran d ctx st op w v st') : st'.OnTurn := by
  have hmis : ∀ s, st.currentStart = some s → op.misroutes d ctx st ≠ true := by
    intro s hcs hm
    rw [routesSettled, hm, currentExecution_of_currentStart hcs] at hok
    cases hok
  cases h.decided.act with
  | leaves hc hl hlive hx => exact hi.of_moved hs h hx
  | succeeds payload hco hid hc hrec hx => exact hi.of_moved hs h hx
  | supersedes hc hrec hx => exact hi.of_moved hs h hx
  | keeps hc hl hk =>
    refine hi.of_stayed hs h hk.creates hk.current fun s hcs => ?_
    rcases hk.selected with hsame | hnone | ⟨hm, -⟩
    · exact .inl hsame
    · have := currentExecution_of_currentStart hcs
      rw [hnone] at this
      cases this
    · exact absurd hm (hmis s hcs)
  | accepts s resolved lease receipt hcs hst hlife hsel hc hrec hnil hcand =>
    obtain ⟨m, hcand⟩ := hcand
    exact hi.of_stayed hs h hnil (by rw [hcand]) fun _ _ => .inl (by rw [hcand])
  | failsBootstrap s resolved lease code message hcs hst hc hrec hnil hcand =>
    exact hi.of_stayed hs h hnil (by rw [hcand]) fun _ _ => .inl (by rw [hcand])
  | reschedules s retry hcs hst hc hrec hnil hcand =>
    exact hi.of_stayed hs h hnil (by rw [hcand]) fun _ _ => .inl (by rw [hcand])
  | fails id r patch hid hrow hp hc hrec hnil hx hsel =>
    obtain ⟨s₀, r₀, hcs₀, hrow₀, -, -, hturn, -⟩ := hs.currentRecord hid
    refine hi.of_stayed hs h hnil hx fun s hcs => ?_
    rw [hcs₀, Option.some.injEq] at hcs
    subst hcs
    rw [hrow, Option.some.injEq] at hrow₀
    subst hrow₀
    rcases hsel with hsame | hsel | ⟨hm, -⟩
    · exact .inl hsame
    · exact .inr (hturn ▸ hsel)
    · exact absurd hm (hmis s₀ hcs₀)

/-! ## One report -/

/-- A failure that names the record's turn leaves the process at it. -/
theorem Sound.failed_selected {payload : TurnFailedPayload} (hs : Sound d st)
    (hok : routesSettled d st (.op (.turnFailed payload) ctx) = true) (h : (Op.turnFailed payload).run d ctx st = .ok st') :
    ∃ r, st.turnRecords.get? payload.turnRecordId = some r ∧ st'.process.selectedTurnId = some r.turnId := by
  obtain ⟨decision, v, hd, -, hran⟩ := hs.ran h
  obtain ⟨r, hid, hrow, hw⟩ := decideTurnFailed_inv hd
  refine ⟨r, hrow, ?_⟩
  obtain ⟨s, -, hcs, -⟩ := hs.currentRecord hid
  have hnamed : r.turnId = payload.turnId := by
    by_contra hne
    have hm : (Op.turnFailed payload).misroutes d ctx st = true := by
      show failureMisnamed st payload = true
      unfold failureMisnamed
      rw [hid, hrow, Option.any_some, beq_self_eq_true, Bool.true_and, bne_iff_ne]
      exact hne
    rw [routesSettled, hm, currentExecution_of_currentStart hcs] at hok
    cases hok
  obtain ⟨-, hnil, -, hsel, -⟩ := buildTurnFailedWrites_spec st.process payload r ctx.now
  rw [← hw] at hnil hsel
  rw [(hran.stayed (creates_nil hnil)).2.2.1, hsel, hnamed]

/-- An outcome leads on from its record's turn. -/
theorem Sound.outcome_selected {payload : TurnOutcomePayload} (hs : Sound d st) (hi : st.OnTurn)
    (h : (Op.turnOutcome payload).run d ctx st = .ok st') : ∃ r, st.turnRecords.get? payload.turnRecordId = some r ∧
      Reach d (some r.turnId) st'.process.selectedTurnId := by
  obtain ⟨decision, v, hd, -, hran⟩ := hs.ran h
  obtain ⟨hid, hsel, hreach⟩ := decideTurnOutcome_reach hd
  obtain ⟨s, r, hcs, hrow, -, -, hturn, -⟩ := hs.currentRecord hid
  refine ⟨r, hrow, ?_⟩
  rw [hi s hcs, ← hturn] at hreach
  rw [hran.committed.selected]
  exact hreach.trans hran.prepared.reach

/-! ## Every run -/

/-- In a run whose failure reports name their record's turn, and whose actions select another turn
only where they leave the execution, the selected turn is that of the current start. A failure
leaves the process at its record's turn, an outcome leads on from it by declared transitions. -/
theorem reports_never_redirect {st₀ : Store} {h : Runs.Hist Event Result} (h₀ : Fresh st₀)
    (hr : Runs.Run (Runs.Guard (EngineStep d) fun st e => routesSettled d st e = true) st₀ h st) :
    (∀ s, st.currentStart = some s → st.process.selectedTurnId = some s.turnId) ∧
      (∀ payload ctx st', routesSettled d st (.op (.turnFailed payload) ctx) = true →
        (Op.turnFailed payload).run d ctx st = .ok st' → ∃ r, st.turnRecords.get? payload.turnRecordId = some r ∧
          st'.process.selectedTurnId = some r.turnId) ∧
      ∀ payload ctx st', (Op.turnOutcome payload).run d ctx st = .ok st' →
        ∃ r, st.turnRecords.get? payload.turnRecordId = some r ∧ Reach d (some r.turnId) st'.process.selectedTurnId := by
  have hs : Sound d st := sound_of_run hr.of_guard (sound_fresh h₀)
  have hi : st.OnTurn := by
    refine inv_of_run hr (sound_fresh h₀) (fun s hcs => ?_)
      (fun st op ctx w v st' hs hi hok hran => hi.step hs hok hran) (fun st leases hi => hi)
    have := currentExecution_of_currentStart hcs
    rw [h₀.execution] at this
    cases this
  exact ⟨hi, fun _ _ _ hok hrun => hs.failed_selected hok hrun, fun _ _ _ hrun => hs.outcome_selected hi hrun⟩

theorem reports_never_redirect_demo :
    (∀ s, (afterDemo demoFailed).currentStart = some s →
      (afterDemo demoFailed).process.selectedTurnId = some s.turnId) ∧
    (∀ payload ctx st', routesSettled demoDefinition (afterDemo demoFailed) (.op (.turnFailed payload) ctx) = true →
      (Op.turnFailed payload).run demoDefinition ctx (afterDemo demoFailed) = .ok st' →
      ∃ r, (afterDemo demoFailed).turnRecords.get? payload.turnRecordId = some r ∧
        st'.process.selectedTurnId = some r.turnId) ∧
    ∀ payload ctx st', (Op.turnOutcome payload).run demoDefinition ctx (afterDemo demoFailed) = .ok st' →
      ∃ r, (afterDemo demoFailed).turnRecords.get? payload.turnRecordId = some r ∧
        Reach demoDefinition (some r.turnId) st'.process.selectedTurnId :=
  reports_never_redirect fresh_demo (run_demo_guarded (routesSettled demoDefinition) (by decide +kernel))

/-- The failure of the running record, under the name of another turn. -/
def demoMisnamed : List Event :=
  demoRunning ++ [.op (.turnFailed { turnRecordId := "trn-10", turnId := "review", turnType := .automatic
                                     errorSummary := "exit 1" }) (demoContext "3")]

/-- A failure that names another turn selects that turn. -/
theorem failure_redirects : ¬ ∀ (d : ProcessDefinition) (st₀ st : Store) (h : Runs.Hist Event Result), Fresh st₀ →
    Runs.Run (EngineStep d) st₀ h st → ∀ s, st.currentStart = some s → st.process.selectedTurnId = some s.turnId := by
  intro hall
  have hrow : (afterDemo demoMisnamed).currentStart.any (fun s => s.turnId == "build") = true := by decide +kernel
  obtain ⟨s, hs, hturn⟩ := (Option.any_eq_true _ _).1 hrow
  rw [beq_iff_eq] at hturn
  have := hall demoDefinition demoFresh _ _ fresh_demo (run_demo demoMisnamed) s hs
  rw [hturn] at this
  exact absurd this (by decide +kernel)

end Leitwerk.Engine
