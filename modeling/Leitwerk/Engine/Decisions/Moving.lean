import Leitwerk.Engine.Movement
/-!
# Where a decision selects a turn

One lemma for each operation: the writes of its decision leave the selection, or
select a turn its request, its outcome, its record or its interrupt names.
-/

namespace Leitwerk.Engine

open Results (ok_of_bind)

variable {d : ProcessDefinition} {ctx : Context} {st : Store} {p q : Process} {w v : Writes} {ids : FreshIds}
  {asks : Ask → Prop} {returns interrupts : TurnId → Prop}

/-- Where a decision takes a process from `p` to `q`. -/
inductive Lands (d : ProcessDefinition) (asks : Ask → Prop) (returns interrupts : TurnId → Prop) (p q : Process) : Prop
  | stays (hq : q.selectedTurnId = p.selectedTurnId)
  | enters (trigger : Option String) (turnId : TurnId) (hp : p.selectedTurnId = none) (hl : p.lifecycleStatus = .discovered)
      (hd : turnId ∈ d.entryTurnIds) (ha : asks (.request trigger turnId)) (hq : q.selectedTurnId = some turnId)
  | follows (ask : Ask) (a b : TurnId) (hp : p.selectedTurnId = some a) (ha : asks ask) (hf : Follows d ask a b)
      (hd : (d.turns b).isSome = true) (hq : q.selectedTurnId = some b)
  | returns (turnId : TurnId) (hr : returns turnId) (hq : q.selectedTurnId = some turnId)
  | interrupts (turnId : TurnId) (hi : interrupts turnId) (hd : (d.turns turnId).isSome = true)
      (hq : q.selectedTurnId = some turnId)
  | ends (hq : q.selectedTurnId = none) (hc : Closes q.lifecycleStatus ∨ Closes p.lifecycleStatus)

theorem Lands.mono {asks' : Ask → Prop} {returns' interrupts' : TurnId → Prop} (h : Lands d asks returns interrupts p q)
    (ha : ∀ ask, asks ask → asks' ask) (hr : ∀ t, returns t → returns' t) (hi : ∀ t, interrupts t → interrupts' t) :
    Lands d asks' returns' interrupts' p q := by
  cases h with
  | stays hq => exact .stays hq
  | enters trigger turnId hp hl hd hask hq => exact .enters trigger turnId hp hl hd (ha _ hask) hq
  | follows ask a b hp hask hf hd hq => exact .follows ask a b hp (ha _ hask) hf hd hq
  | returns turnId h hq => exact .returns turnId (hr _ h) hq
  | interrupts turnId h hd hq => exact .interrupts turnId (hi _ h) hd hq
  | ends hq hc => exact .ends hq hc

/-- A process that differs in what no selection reads. -/
theorem Lands.of_process {p' q' : Process} (h : Lands d asks returns interrupts p q) (hp : p.selectedTurnId = p'.selectedTurnId)
    (hl : Closes p.lifecycleStatus → p.lifecycleStatus = p'.lifecycleStatus) (hq : q'.selectedTurnId = q.selectedTurnId)
    (hlq : q'.lifecycleStatus = q.lifecycleStatus) : Lands d asks returns interrupts p' q' := by
  cases h with
  | stays h => exact .stays (hq.trans (h.trans hp))
  | enters trigger turnId h1 h2 h3 h4 h5 =>
    refine .enters trigger turnId (hp ▸ h1) ?_ h3 h4 (hq.trans h5)
    rw [← hl (.inr (.inr h2))]
    exact h2
  | follows ask a b h1 h2 h3 h4 h5 => exact .follows ask a b (hp ▸ h1) h2 h3 h4 (hq.trans h5)
  | returns turnId h1 h2 => exact .returns turnId h1 (hq.trans h2)
  | interrupts turnId h1 h2 h3 => exact .interrupts turnId h1 h2 (hq.trans h3)
  | ends h1 h2 =>
    refine .ends (hq.trans h1) (h2.imp (fun h => hlq ▸ h) fun h => ?_)
    rw [← hl h]
    exact h

/-! ## Selections, requests and plans -/

/-- A checked selection, by where it leaves the process. -/
theorem lands_selection {input : TurnSelectionWritesInput} (hcheck : checkTurnSelection d p input = .ok ())
    (ha : ∀ turnId, input.toTurnId = some turnId → asks (.request input.trigger turnId))
    (hq : q.selectedTurnId = input.toTurnId)
    (hc : input.toTurnId = none → Closes q.lifecycleStatus ∨ Closes p.lifecycleStatus) :
    Lands d asks returns interrupts p q := by
  cases hto : input.toTurnId with
  | none => exact .ends (hq.trans hto) (hc hto)
  | some turnId =>
    rw [hto] at hq
    rcases follows_of_check hcheck hto with hsame | ⟨hp, hl, hd⟩ | ⟨a, hp, hf, hd⟩
    · exact .stays (hq.trans hsame.symm)
    · exact .enters input.trigger turnId hp hl hd (ha turnId hto) hq
    · exact .follows _ a turnId hp (ha turnId hto) hf hd hq

theorem Selects.lands {input : TurnSelectionWritesInput} (h : Selects d p ids input w)
    (hcheck : checkTurnSelection d p input = .ok ())
    (ha : ∀ turnId, input.toTurnId = some turnId → asks (.request input.trigger turnId)) :
    Lands d asks returns interrupts p (w.candidate p) :=
  lands_selection hcheck ha h.selected fun hto => .inl (h.closes hcheck hto)

/-- What a request asks for. -/
def ServerTransitionRequest.Asks (request : ServerTransitionRequest) (ask : Ask) : Prop :=
  ∃ turnId, request.turnId = some (some turnId) ∧ ask = .request request.trigger turnId

theorem Transits.lands {request : ServerTransitionRequest} (h : Transits d p ids request w)
    (ha : ∀ ask, request.Asks ask → asks ask) : Lands d asks returns interrupts p (w.candidate p) := by
  cases hto : request.turnId with
  | none =>
    refine .stays (h.selected.trans ?_)
    rw [hto]
    rfl
  | some toTurnId =>
    have hcheck := h.checked toTurnId hto
    have hsel := h.selected
    rw [hto] at hsel
    refine lands_selection hcheck (fun turnId ht => ha _ ⟨turnId, ?_, rfl⟩) hsel
      fun hn => .inl (h.closes hcheck hto hn)
    rw [hto]
    exact congrArg some ht

theorem Planned.lands {plan : ProcessPlan} (h : Planned d p ids plan w)
    (ha : ∀ request ∈ plan.transitionRequest, ∀ ask, request.Asks ask → asks ask) :
    Lands d asks returns interrupts p (w.candidate p) := by
  have hsel := h.selected
  cases hreq : plan.transitionRequest with
  | none =>
    rw [ProcessPlan.turnId, hreq] at hsel
    exact .stays hsel
  | some request =>
    rw [ProcessPlan.turnId, hreq, Option.bind_some] at hsel
    cases hto : request.turnId with
    | none =>
      rw [hto] at hsel
      exact .stays hsel
    | some toTurnId =>
      rw [hto] at hsel
      have hcheck := h.checked request hreq toTurnId hto
      refine lands_selection hcheck (fun turnId ht => ha request hreq _ ⟨turnId, ?_, rfl⟩) hsel fun hn => ?_
      · rw [hto]
        exact congrArg some ht
      have hclosed := closes_of_check hcheck hn
      have htarget : request.targetLifecycle d p = some ((request.selection p toTurnId).targetLifecycleStatus d p) := by
        rw [ServerTransitionRequest.targetLifecycle, hto]
      rcases h.lifecycle with hl | ⟨s, hs, -⟩
      · rw [hl, ProcessPlan.lifecycleStatus, hreq]
        simp only [Option.bind_some, htarget]
        -- a status the process has already is the effects' to change
        split
        · rename_i hsame
          exact .inr (hsame ▸ hclosed)
        · exact .inl hclosed
      · -- a start is of the turn that is selected
        cases h.routed with
        | kept h0 => rw [h0] at hs; cases hs
        | cleared h0 => rw [h0] at hs; cases hs
        | reserved r _ _ hr =>
          rw [hsel] at hr
          change toTurnId = _ at hr
          rw [show toTurnId = none from hn] at hr
          cases hr

/-! ## Outcomes -/

/-- The transition an outcome takes is declared for it. -/
theorem declaredTransition_lands {payload : TurnOutcomePayload} (h : declaredTransition d p payload ids = .ok w)
    (hd : (d.turns payload.turnId).isSome = true) (ha : asks (.outcome payload.outcome)) (hq : p.selectedTurnId = q.selectedTurnId) :
    Lands d asks returns interrupts q (w.candidate p) := by
  unfold declaredTransition at h
  split at h
  · rename_i hguard
    cases hf : findOutcomeTransition d payload.turnId payload.outcome with
    | error e => rw [hf] at h; cases h
    | ok found =>
      rw [hf] at h
      cases found with
      | none =>
        cases h
        exact .stays hq
      | some t =>
        obtain ⟨hcheck, hsel⟩ := buildTurnSelectionWrites_ok h
        have hmatch : t ∈ d.transitions payload.turnId ∧ (Ask.outcome payload.outcome).Matches t := by
          unfold findOutcomeTransition at hf
          split at hf
          · cases hf
          · rename_i hfilter
            cases hf
            have hin : t ∈ [t] := List.mem_singleton_self t
            rw [← hfilter] at hin
            simpa [Ask.Matches] using List.mem_filter.1 hin
          · cases hf
        cases hto : t.nextTurnId with
        | none => exact .ends (hsel.selected.trans hto) (.inl (hsel.closes hcheck hto))
        | some target =>
          exact .follows _ payload.turnId target (hq ▸ hguard.1) ha ⟨t, hmatch.1, hmatch.2, hto⟩
            (declared_of_check hcheck hto hguard.1 hd) (hsel.selected.trans hto)
  · cases h
    exact .stays hq

/-- Handlers that select no other turn leave the selection. -/
theorem selected_of_implicit (h : ¬ hasExplicitTurnSelectionChange p w = true) :
    (w.candidate p).selectedTurnId = p.selectedTurnId := by
  unfold hasExplicitTurnSelectionChange at h
  rw [candidate_selected]
  cases hs : w.processPatch.selectedTurnId with
  | none => rfl
  | some x =>
    rw [hs] at h
    simpa using h

/-- What the outcome of a turn asks for: its own transition, what its handlers request, or what
its collected results do. -/
inductive OutcomeAsk (d : ProcessDefinition) (ctx : Context) (payload : TurnOutcomePayload) : Ask → Prop
  | declared : OutcomeAsk d ctx payload (.outcome payload.outcome)
  | handler (p : Process) (plan : ProcessPlan) (request : ServerTransitionRequest) (ask : Ask)
      (hm : getMappedTurnSpec d payload.turnId = none) (hp : ctx.outcomeHandlers p payload = .ok plan)
      (hr : plan.transitionRequest = some request) (ha : request.Asks ask) : OutcomeAsk d ctx payload ask
  | collected (p : Process) (spec : MappedLlmTurnSpec) (results : List Json) (collected : MappedCollectResult) (turnId : TurnId)
      (hm : getMappedTurnSpec d payload.turnId = some spec) (hc : spec.collectResults p results = .ok collected)
      (ht : collected.nextTurnId = some turnId) : OutcomeAsk d ctx payload (.request (some collected.trigger) turnId)

/-- Writes built on what a changed state left of the process. -/
theorem Lands.merge_state (h : Lands d asks returns interrupts (v.candidate q) (w.candidate (v.candidate q))) (hm : SameMove {} v) :
    Lands d asks returns interrupts q ((mergeWrites v w).candidate q) := by
  rw [candidate_merge]
  exact h.of_process (hm.selected q) (fun _ => hm.lifecycle q) rfl rfl

theorem collectAndRoute_lands {payload : TurnOutcomePayload} {spec : MappedLlmTurnSpec} {results : List Json}
    (h : collectAndRoute d q spec results ids = .ok w) (hspec : getMappedTurnSpec d payload.turnId = some spec) :
    Lands d (OutcomeAsk d ctx payload) returns interrupts q (w.candidate q) := by
  unfold collectAndRoute at h
  cases hc : spec.collectResults q results with
  | error e => rw [hc] at h; cases h
  | ok collected =>
    rw [hc] at h
    replace h : buildServerTransitionWrites d q
      { turnId := some collected.nextTurnId
        lifecycleStatus := collected.lifecycleStatus.map TerminalStatus.toLifecycle
        trigger := some collected.trigger, state := some collected.state } ids = .ok w := h
    refine (buildServerTransitionWrites_ok h).lands ?_
    rintro ask ⟨turnId, ht, rfl⟩
    exact .collected q spec results collected turnId hspec hc (Option.some.inj ht)

theorem buildMappedItemOutcomeWrites_lands {payload : TurnOutcomePayload} {spec : MappedLlmTurnSpec}
    {iteration : Option MappedTurnItemRef} (h : buildMappedItemOutcomeWrites d ctx st q payload spec iteration = .ok w)
    (hspec : getMappedTurnSpec d payload.turnId = some spec) :
    Lands d (OutcomeAsk d ctx payload) returns interrupts q (w.candidate q) := by
  obtain ⟨runs, ⟨next, rfl⟩ | ⟨results, routed, hr, rfl⟩⟩ := buildMappedItemOutcomeWrites_inv h
  · exact .stays (selected_reserve q _ _ _ _ _ q)
  · exact (collectAndRoute_lands (q := q) hr hspec).merge_state (sameMove_mapped {} _)

theorem buildUnmappedOutcomeWrites_lands {payload : TurnOutcomePayload} {sw : Writes}
    (h : buildUnmappedOutcomeWrites d ctx q payload sw = .ok w) (hm : SameMove {} sw)
    (hspec : getMappedTurnSpec d payload.turnId = none) (hd : (d.turns payload.turnId).isSome = true) :
    Lands d (OutcomeAsk d ctx payload) returns interrupts q (w.candidate q) := by
  unfold buildUnmappedOutcomeWrites at h
  cases hh : ctx.outcomeHandlers (sw.candidate q) payload with
  | error e => rw [hh] at h; cases h
  | ok plan =>
    rw [hh] at h
    cases he : planWrites d (sw.candidate q) plan (ctx.fresh 0) with
    | error e =>
      replace h : (planWrites d (sw.candidate q) plan (ctx.fresh 0)).bind _ = Except.ok w := h
      rw [he] at h
      cases h
    | ok effects =>
      replace h : (planWrites d (sw.candidate q) plan (ctx.fresh 0)).bind _ = Except.ok w := h
      rw [he] at h
      have hl : Lands d (OutcomeAsk d ctx payload) returns interrupts (sw.candidate q) (effects.candidate (sw.candidate q)) :=
        (planWrites_ok he).lands fun request hr ask ha => .handler _ plan request ask hspec hh hr ha
      replace h : (if hasExplicitTurnSelectionChange q effects = true then _ else _) = Except.ok w := h
      split at h
      · cases h
        exact hl.merge_state hm
      · rename_i himplicit
        cases ht : declaredTransition d ((mergeWrites sw effects).candidate q) payload (ctx.fresh 1) with
        | error e => rw [ht] at h; cases h
        | ok transition =>
          rw [ht] at h
          cases h
          rw [candidate_merge (mergeWrites sw effects)]
          refine declaredTransition_lands ht hd .declared ?_
          rw [candidate_merge]
          refine Eq.trans ?_ (selected_of_implicit himplicit)
          exact congrArg effects.processPatch.selectedTurnId.getD (hm.selected q)

theorem buildTurnOutcomeWrites_lands {payload : TurnOutcomePayload} {iteration : Option MappedTurnItemRef}
    (h : buildTurnOutcomeWrites d ctx st q payload iteration = .ok w) :
    Lands d (OutcomeAsk d ctx payload) returns interrupts q (w.candidate q) := by
  have hm := sameMove_state q payload.state
  obtain ⟨⟨hd, -⟩, ⟨spec, mapped, hspec, hmap, rfl⟩ | ⟨hspec, h⟩⟩ := buildTurnOutcomeWrites_inv h
  · exact (buildMappedItemOutcomeWrites_lands hmap hspec).merge_state hm
  · exact buildUnmappedOutcomeWrites_lands h hm hspec hd

theorem decideTurnOutcome_lands {reported : TurnOutcomePayload} {decision : Decision}
    (h : decideTurnOutcome d ctx st reported = .ok decision) :
    Lands d (OutcomeAsk d ctx (resolveEffectiveOutcomePayload reported (ctx.outcomePublication reported))) returns interrupts
      st.process (decision.writes.candidate st.process) := by
  obtain ⟨payload, outcome, hpay, -, ho, hw⟩ := decideTurnOutcome_inv h
  rw [hw, ← hpay]
  have hbase := outcomeBase ctx st payload
  have hrefs : SameMove _ (withEntryRefs ctx st payload (mergeWrites (outcomeBaseWrites ctx st payload) outcome)) :=
    sameMove_entryRefs payload _
  have hcand := candidate_merge (outcomeBaseWrites ctx st payload) outcome st.process
  refine (buildTurnOutcomeWrites_lands ho).of_process hbase.selected (fun hc => ?_) ?_ ?_
  · rw [hbase.lifecycle] at hc ⊢
    split at hc
    · rcases hc with hc | hc | hc <;> cases hc
    · rename_i he
      exact if_neg he
  · rw [hrefs.selected, hcand]
  · rw [hrefs.lifecycle, hcand]

/-! ## The other operations -/

theorem decideStartProcess_lands {input : StartProcessInput} {decision : Decision}
    (h : decideStartProcess d ctx st input = .ok decision) (ha : asks (.request (some "start") input.startTurnId)) :
    Lands d asks returns interrupts st.process (decision.writes.candidate st.process) := by
  unfold decideStartProcess at h
  obtain ⟨u, -, h⟩ := ok_of_bind h
  split at h
  · cases h
    exact .stays rfl
  obtain ⟨writes, hb, h⟩ := ok_of_bind h
  obtain ⟨hcheck, hsel⟩ := buildTurnSelectionWrites_ok hb
  have hland : Lands d asks returns interrupts st.process (writes.candidate st.process) :=
    hsel.lands hcheck fun turnId ht => by cases ht; exact ha
  split at h
  · cases h
    exact hland.of_process rfl (fun _ => rfl)
      ((SameMove.apply (w := writes) quiet_stateJson _).selected st.process)
      ((SameMove.apply (w := writes) quiet_stateJson _).lifecycle st.process)
  · cases h
    exact hland

theorem decideActivateDeferredProcess_lands {prepared : DeferredProcessActivation} {decision : Decision}
    (h : decideActivateDeferredProcess d ctx st prepared = .ok decision)
    (ha : asks (.request (some "start") prepared.selectedTurnId)) :
    Lands d asks returns interrupts st.process (decision.writes.candidate st.process) := by
  unfold decideActivateDeferredProcess at h
  split at h
  · cases h
    exact .stays rfl
  split at h
  · cases h
    exact .stays rfl
  split at h
  · cases h
    exact .stays rfl
  split at h
  · cases h
    exact .stays rfl
  · rename_i selection hb
    cases h
    obtain ⟨hcheck, hsel⟩ := buildTurnSelectionWrites_ok hb
    have hland : Lands d asks returns interrupts st.process (selection.candidate st.process) :=
      hsel.lands hcheck fun turnId ht => by cases ht; exact ha
    rw [candidate_merge]
    exact hland.of_process rfl (fun _ => rfl) rfl rfl

theorem decideExecuteAction_lands {decision : Decision} (h : decideExecuteAction d ctx st = .ok decision)
    (ha : ∀ planned, ctx.planProcessAction st.process = .ok planned → ∀ request ∈ planned.plan.transitionRequest,
      ∀ ask, request.Asks ask → asks ask) :
    Lands d asks returns interrupts st.process (decision.writes.candidate st.process) := by
  unfold decideExecuteAction at h
  cases hp : ctx.planProcessAction st.process with
  | error e => rw [hp] at h; cases h
  | ok planned =>
    rw [hp] at h
    cases hw : planWrites d st.process planned.plan (ctx.fresh 0) with
    | error e =>
      replace h : (planWrites d st.process planned.plan (ctx.fresh 0)).bind _ = Except.ok decision := h
      rw [hw] at h
      cases h
    | ok writes =>
      replace h : (planWrites d st.process planned.plan (ctx.fresh 0)).bind _ = Except.ok decision := h
      rw [hw] at h
      cases h
      exact (planWrites_ok hw).lands (ha planned hp)

theorem decideTurnFailed_lands {payload : TurnFailedPayload} {decision : Decision}
    (h : decideTurnFailed ctx st payload = .ok decision) (hnamed : failureMisnamed st payload = false)
    (hr : ∀ r, st.currentTurnRecord = some r → returns r.turnId) :
    Lands d asks returns interrupts st.process (decision.writes.candidate st.process) := by
  obtain ⟨existing, hid, hrow, hw⟩ := decideTurnFailed_inv h
  obtain ⟨-, -, -, hsel, -⟩ := buildTurnFailedWrites_spec st.process payload existing ctx.now
  have hturn : existing.turnId = payload.turnId := by
    rw [failureMisnamed, hid, hrow, Option.any_some] at hnamed
    simpa using hnamed
  refine .returns existing.turnId (hr _ ?_) ?_
  · rw [Store.currentTurnRecord, hid]
    exact hrow
  · rw [hw, hsel, hturn]

theorem decideWorkerFailure_lands {payload : WorkerFailurePayload} {decision : Decision}
    (h : decideWorkerFailure d ctx st payload = .ok decision) (hr : ∀ r, st.currentTurnRecord = some r → returns r.turnId) :
    Lands d asks returns interrupts st.process (decision.writes.candidate st.process) := by
  unfold decideWorkerFailure at h
  dsimp only at h
  split at h
  · cases h
    exact .stays rfl
  split at h
  · split at h
    · cases h
      exact .stays rfl
    · cases h
      exact .stays rfl
  split at h
  · rename_i running hrun
    obtain ⟨hcur, hstatus⟩ := Option.filter_eq_some_iff.1 hrun
    obtain ⟨writes, hb, rfl⟩ := bind_ok h
    obtain ⟨-, -, -, hsel, -⟩ := buildWorkerFailureWrites_running rfl (by simpa using hstatus) hb
    exact .returns running.turnId (hr _ hcur) hsel
  split at h
  · cases h
    exact .stays rfl
  split at h
  · cases h
    exact .stays rfl
  · obtain ⟨writes, hb, rfl⟩ := bind_ok h
    obtain ⟨-, -, ⟨status, hcand⟩, -⟩ := buildWorkerFailureWrites_none rfl hb
    exact .stays (by rw [hcand])

theorem decideRetryFailedTurn_lands {input : DecisionMetadata} {decision : Decision}
    (h : decideRetryFailedTurn d ctx st input = .ok decision) (hr : ∀ r, st.currentTurnRecord = some r → returns r.turnId) :
    Lands d asks returns interrupts st.process (decision.writes.candidate st.process) := by
  unfold decideRetryFailedTurn at h
  split at h
  · rename_i currentStart failedRun _ hcur
    split at h
    · cases h
    split at h
    · cases h
    obtain ⟨writes, hb, rfl⟩ := bind_ok h
    obtain ⟨_, hrec⟩ := buildRetryWrites_ok hb
    exact .returns failedRun.turnId (hr _ hcur) hrec.selected
  · cases h

theorem decideContinueFailedTurn_lands {turnRecordId : String} {prompt : Option String} {input : DecisionMetadata}
    {decision : Decision} (h : decideContinueFailedTurn d ctx st turnRecordId prompt input = .ok decision)
    (hr : ∀ r, st.currentTurnRecord = some r → returns r.turnId) :
    Lands d asks returns interrupts st.process (decision.writes.candidate st.process) := by
  unfold decideContinueFailedTurn at h
  split at h
  · cases h
  split at h
  · cases h
  split at h
  · rename_i acceptedStart failedRun _ hcur
    split at h
    · cases h
    split at h
    · cases h
    split at h
    · split at h
      · cases h
      obtain ⟨writes, hb, rfl⟩ := bind_ok h
      obtain ⟨_, hrec⟩ := buildContinueFailedTurnWrites_ok hb
      exact .returns failedRun.turnId (hr _ hcur) hrec.selected
    · cases h
    · cases h
  · cases h

theorem decideRetryStartup_lands {input : RetryStartupInput} {decision : Decision}
    (h : decideRetryStartup ctx st input = .ok decision) :
    Lands d asks returns interrupts st.process (decision.writes.candidate st.process) := by
  unfold decideRetryStartup at h
  cases ht : startupRetryTarget st input.startRecordId with
  | error e => rw [ht] at h; cases h
  | ok target =>
    rw [ht] at h
    cases h
    exact .stays ((selectedTurnId_applyLifecycle _).trans (selectedTurnId_applyCurrent _))

theorem decideAutomaticRetryStartup_lands {startRecordId : String} {decision : Decision}
    (h : decideAutomaticRetryStartup ctx st startRecordId = .ok decision) :
    Lands d asks returns interrupts st.process (decision.writes.candidate st.process) := by
  unfold decideAutomaticRetryStartup at h
  obtain ⟨⟨start, state⟩, -, h⟩ := ok_of_bind h
  dsimp only at h
  split at h
  · exact decideRetryStartup_lands h
  split at h
  · cases h
    exact .stays rfl
  · cases h
    exact .stays rfl

theorem decideArmTurnWait_lands {decision : Decision} (h : decideArmTurnWait d ctx st = .ok decision) :
    Lands d asks returns interrupts st.process (decision.writes.candidate st.process) := by
  unfold decideArmTurnWait at h
  split at h
  · cases h
    exact .stays rfl
  · obtain ⟨writes, hb, rfl⟩ := bind_ok h
    exact .stays (buildTurnSelectionWrites_ok hb).2.selected

theorem decideAcceptWorkerTurnStart_lands {input : AcceptWorkerTurnStartInput} {decision : Decision}
    (h : decideAcceptWorkerTurnStart d ctx st input = .ok decision) :
    Lands d asks returns interrupts st.process (decision.writes.candidate st.process) := by
  unfold decideAcceptWorkerTurnStart at h
  obtain ⟨start, -, h⟩ := ok_of_bind h
  obtain ⟨⟨lease, receipt⟩, -, h⟩ := ok_of_bind h
  dsimp only at h
  split at h
  · split at h
    · cases h
      exact .stays rfl
    · cases h
  · split at h
    · split at h
      · cases h
      split at h
      · cases h
      · cases h
        split
        · exact .stays rfl
        · exact .stays rfl
    · cases h
  · cases h

theorem decideResolveTurnWait_lands {input : ResolveTurnWaitInput} {decision : Decision}
    (h : decideResolveTurnWait st input = .ok decision) :
    Lands d asks returns interrupts st.process (decision.writes.candidate st.process) := by
  unfold decideResolveTurnWait at h
  obtain ⟨wait, hw, h⟩ := ok_of_bind h
  have hm := sameMove_state st.process input.nextStateJson
  have hwaiting := (currentTurnWait_ok hw).2.2.2.2.1
  have hreschedule : ∀ retry error v, SameMove {} v → ((rescheduleTurnWait st input wait retry error v).candidate
      st.process).selectedTurnId = st.process.selectedTurnId := by
    intro retry error v hv
    unfold rescheduleTurnWait
    dsimp only
    split
    · rw [selectedTurnId_applyLifecycle, selected_writeTurnWait]
      exact hv.selected _
    · rw [selected_writeTurnWait]
      exact hv.selected _
  have hend : ∀ status, Lands d asks returns interrupts st.process
      ((endTurnWait st status (stateWrites st.process input.nextStateJson)).candidate st.process) := by
    intro status
    refine .ends ?_ (.inl ?_)
    · refine (selectedTurnId_applyLifecycle _).trans ((selectedTurnId_applyCurrent _).trans
        (get_apply (f := Field.selectedTurnId) ?_ _))
      exact (selected_writeTurnWait _ _ _ _).trans (hm.selected _)
    · have hstatus : ((endTurnWait st status (stateWrites st.process input.nextStateJson)).candidate
          st.process).lifecycleStatus = status.toLifecycle := by
        refine get_apply (f := Field.lifecycleStatus) ?_ _
        refine (lifecycleStatus_applyCurrent _).trans ((lifecycleStatus_applySelected _).trans ?_)
        exact (lifecycle_writeTurnWait _ _ _ _).trans (hm.lifecycle _)
      rw [hstatus]
      cases status with
      | completed => exact .inl rfl
      | aborted => exact .inr (.inl rfl)
  dsimp only at h
  split at h
  · rename_i binding _
    obtain ⟨writes, hb, rfl⟩ := bind_ok h
    unfold bindTurnWait at hb
    dsimp only at hb
    split at hb
    · cases hb
    split at hb
    · cases hb
    · cases hb
      refine .stays ((selected_writeTurnWait _ _ _ _).trans ?_)
      refine (selectedTurnId_applyMetadata _).trans ?_
      exact (hm.trans (.apply quiet_paramsJson _)).selected _
  · cases h
    refine .stays ((selectedTurnId_applyLifecycle _).trans ((selectedTurnId_applyCurrent _).trans ?_))
    exact (selected_writeTurnWait _ _ _ _).trans (hm.selected _)
  · cases h
    exact hend .completed
  · cases h
    exact hend .aborted
  · cases h
    exact .stays (hreschedule _ _ _ hm)
  · cases h
    exact .stays (hreschedule _ _ _ .refl)
  · cases h
    exact .stays (hreschedule _ _ _ .refl)

theorem decideRetryTurnWait_lands {input : DecisionMetadata} {decision : Decision}
    (h : decideRetryTurnWait st input = .ok decision) :
    Lands d asks returns interrupts st.process (decision.writes.candidate st.process) := by
  unfold decideRetryTurnWait at h
  split at h
  · split at h
    · cases h
    · cases h
      exact .stays ((selectedTurnId_applyLifecycle _).trans (selected_writeTurnWait _ _ _ _))
  · cases h

theorem decideParkProcess_lands {payload : LifecycleParkedPayload} {decision : Decision}
    (h : decideParkProcess st payload = .ok decision) :
    Lands d asks returns interrupts st.process (decision.writes.candidate st.process) := by
  obtain ⟨writes, hb, rfl⟩ := bind_ok h
  obtain ⟨-, rfl⟩ := buildParkProcessWrites_ok hb
  exact .stays (selectedTurnId_applyLifecycle _)

theorem decideParkDeferredProcessActivationFailure_lands {found : Json → Bool} {facts : Process → Json → Bool}
    {decision : Decision} (h : decideParkDeferredProcessActivationFailure st found facts = .ok decision) :
    Lands d asks returns interrupts st.process (decision.writes.candidate st.process) := by
  unfold decideParkDeferredProcessActivationFailure at h
  split at h
  · cases h
    exact .stays rfl
  · cases h
    exact .stays (selectedTurnId_applyLifecycle _)

theorem decideAbortProcess_lands {expected : Option String} {decision : Decision}
    (h : decideAbortProcess d ctx st expected = .ok decision) :
    Lands d asks returns interrupts st.process (decision.writes.candidate st.process) := by
  unfold decideAbortProcess at h
  split at h
  · cases h
  split at h
  · cases h
  cases hcl : collectAbortCleanupWrites st {} ctx.cleanupHandlers with
  | error e => rw [hcl] at h; cases h
  | ok cleanup =>
    rw [hcl] at h
    replace h : (buildAbortProcessWrites d (cleanup.candidate st.process) st.currentTurnRecord st.currentStart ctx.now
      (ctx.fresh 0)).bind (fun abort => .ok { writes := mergeWrites cleanup abort }) = .ok decision := h
    obtain ⟨abort, hab, rfl⟩ := bind_ok h
    unfold buildAbortProcessWrites at hab
    cases hb : buildTurnSelectionWrites d (cleanup.candidate st.process)
        { fromTurnId := some (cleanup.candidate st.process).selectedTurnId, toTurnId := none, trigger := some "abort"
          lifecycleStatus := some .aborted } (ctx.fresh 0) with
    | error e => rw [hb] at hab; cases hab
    | ok selection =>
      rw [hb] at hab
      cases hab
      obtain ⟨hcheck, hsel⟩ := buildTurnSelectionWrites_ok hb
      have hsup := supersedes_execution ctx st selection
      have hcand : (mergeWrites cleanup (supersedeExecution selection st.currentTurnRecord st.currentStart ctx.now)).candidate
          st.process = selection.candidate (cleanup.candidate st.process) := by
        rw [candidate_merge, Writes.candidate, hsup.patch]
        rfl
      rw [hcand]
      exact .ends hsel.selected (.inl (hsel.closes hcheck rfl))

theorem observationInterrupt_lands {input : ProcessObservationUpdate} (hv : Observes st.process v)
    (h : observationInterrupt d ctx st input v = .ok w) (hi : ∀ turnId, input.interrupt = some turnId → interrupts turnId) :
    Lands d asks returns interrupts st.process (w.candidate st.process) := by
  unfold observationInterrupt at h
  dsimp only at h
  split at h
  · cases h
  split at h
  · cases h
  rename_i hdeclared
  have hsup := supersedes_execution ctx st v
  generalize supersedeExecution v st.currentTurnRecord st.currentStart ctx.now = a at h hsup
  have hca : a.candidate st.process = v.candidate st.process := congrArg (·.apply st.process) hsup.patch
  generalize hb : applyProcessPatchField (writeTurnWait a
    { st.process with metadata := a.processPatch.metadata.getD st.process.metadata } none) st.process .currentExecution none = b at h
  have hsel : (b.candidate st.process).selectedTurnId = st.process.selectedTurnId := by
    rw [← hb, selectedTurnId_applyCurrent, selected_writeTurnWait, hca]
    exact hv.selected
  have hlife : (b.candidate st.process).lifecycleStatus = st.process.lifecycleStatus := by
    rw [← hb, lifecycleStatus_applyCurrent, lifecycle_writeTurnWait, hca]
    exact hv.lifecycle
  have hselect : ∀ toTurnId, ((applyProcessPatchField b st.process .selectedTurnId toTurnId).candidate
      st.process).selectedTurnId = toTurnId := fun toTurnId => get_apply (f := Field.selectedTurnId) hsel _
  split at h
  · rename_i status _
    cases h
    have hstatus : ((applyProcessPatchField (applyProcessPatchField b st.process .selectedTurnId none) st.process
        .lifecycleStatus status.toLifecycle).candidate st.process).lifecycleStatus = status.toLifecycle :=
      get_apply (f := Field.lifecycleStatus) ((lifecycleStatus_applySelected _).trans hlife) _
    refine .ends ((selectedTurnId_applyLifecycle _).trans (hselect none)) (.inl ?_)
    show Closes ((applyProcessPatchField (applyProcessPatchField b st.process .selectedTurnId none) st.process
      .lifecycleStatus status.toLifecycle).candidate st.process).lifecycleStatus
    rw [hstatus]
    cases status with
    | completed => exact .inl rfl
    | aborted => exact .inr (.inl rfl)
  · rename_i turnId _ hint
    split at h
    · cases h
    split at h
    · cases h
      refine .interrupts turnId (hi turnId hint) ?_ ((selected_reserve _ _ _ _ _ _ _).trans
        ((selectedTurnId_applyLifecycle _).trans (hselect _)))
      rw [hint, Option.any_some] at hdeclared
      simpa [Option.isSome_iff_ne_none] using hdeclared
    · cases h
  · cases h
    exact .stays hsel

theorem decideProcessObservation_lands {input : ProcessObservationUpdate} {decision : Decision}
    (h : decideProcessObservation d ctx st input = .ok decision)
    (hi : ∀ turnId, input.interrupt = some turnId → interrupts turnId) :
    Lands d asks returns interrupts st.process (decision.writes.candidate st.process) := by
  unfold decideProcessObservation at h
  split at h
  · cases h
  dsimp only at h
  have hobs := observes_input st.process input
  generalize (if input.metadata.isEmpty = true then stateWrites st.process input.state else
    applyMetadataPatch (stateWrites st.process input.state) st.process
      { st.process.metadata with entries := mergeEntries st.process.metadata.entries input.metadata }) = u at h hobs
  split at h
  · obtain ⟨writes, hb, rfl⟩ := bind_ok h
    exact observationInterrupt_lands hobs hb hi
  · cases h
    exact .stays hobs.selected

/-! ## Every operation -/

/-- What an operation asks its process to move by. -/
def Op.Requests (d : ProcessDefinition) (ctx : Context) (st : Store) : Op → Ask → Prop
  | .startProcess input, ask => ask = .request (some "start") input.startTurnId
  | .activateDeferredProcess prepared, ask => ask = .request (some "start") prepared.selectedTurnId
  | .executeAction, ask => ∃ planned request, ctx.planProcessAction st.process = .ok planned ∧
      planned.plan.transitionRequest = some request ∧ request.Asks ask
  | .turnOutcome reported, ask =>
    OutcomeAsk d ctx (resolveEffectiveOutcomePayload reported (ctx.outcomePublication reported)) ask
  | _, _ => False

/-- The turn of the current record, where the operation fails or recovers that. -/
def Op.Returns (st : Store) : Op → TurnId → Prop
  | .turnFailed _, turnId | .workerFailure _, turnId | .retryFailedTurn _, turnId | .continueFailedTurn .., turnId =>
    ∃ r, st.currentTurnRecord = some r ∧ r.turnId = turnId
  | _, _ => False

/-- The turn an observation interrupts the process for. -/
def Op.Interrupts : Op → TurnId → Prop
  | .processObservation input, turnId => input.interrupt = some turnId
  | _, _ => False

/-- Whether the operation reports the failure of a record under another turn. -/
def Op.misnames (st : Store) : Op → Bool
  | .turnFailed payload => failureMisnamed st payload
  | _ => false

theorem Op.decide_lands {op : Op} {decision : Decision} (h : op.decide d ctx st = .ok decision)
    (hnamed : op.misnames st = false) :
    Lands d (op.Requests d ctx st) (op.Returns st) op.Interrupts st.process (decision.writes.candidate st.process) := by
  cases op with
  | startProcess input => exact decideStartProcess_lands h rfl
  | activateDeferredProcess prepared => exact decideActivateDeferredProcess_lands h rfl
  | parkDeferredProcessActivationFailure found facts => exact decideParkDeferredProcessActivationFailure_lands h
  | executeAction =>
    exact decideExecuteAction_lands h fun planned hp request hr ask ha => ⟨planned, request, hp, hr, ha⟩
  | acceptWorkerTurnStart input => exact decideAcceptWorkerTurnStart_lands h
  | turnOutcome payload => exact decideTurnOutcome_lands h
  | turnFailed payload => exact decideTurnFailed_lands h hnamed fun r hr => ⟨r, hr, rfl⟩
  | workerFailure payload => exact decideWorkerFailure_lands h fun r hr => ⟨r, hr, rfl⟩
  | parkProcess payload => exact decideParkProcess_lands h
  | retryFailedTurn input => exact decideRetryFailedTurn_lands h fun r hr => ⟨r, hr, rfl⟩
  | retryStartup input => exact decideRetryStartup_lands h
  | automaticRetryStartup startRecordId => exact decideAutomaticRetryStartup_lands h
  | continueFailedTurn turnRecordId prompt input =>
    exact decideContinueFailedTurn_lands h fun r hr => ⟨r, hr, rfl⟩
  | armTurnWait => exact decideArmTurnWait_lands h
  | resolveTurnWait input => exact decideResolveTurnWait_lands h
  | retryTurnWait input => exact decideRetryTurnWait_lands h
  | abortProcess expected => exact decideAbortProcess_lands h
  | processObservation input => exact decideProcessObservation_lands h fun turnId hi => hi
  | updateRefs nextStateJson =>
    cases h
    exact .stays ((sameMove_state _ _).selected _)

end Leitwerk.Engine
