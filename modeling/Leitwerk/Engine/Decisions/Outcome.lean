import Leitwerk.Engine.Steps
/-!
# Turn outcomes

An outcome settles the current record and clears the execution before it is
routed, so whatever its handlers or the declared transition reserve is new.
`Leads` says so of the routed writes; a handler's start may stay behind when the
declared transition then leads elsewhere.
-/

namespace Leitwerk.Engine

open Results (ok_of_bind)

variable {d : ProcessDefinition} {ctx : Context} {st : Store} {p q : Process} {w v : Writes} {ids : FreshIds}
  {asked : TurnId → Prop}

/-- Where the routed writes of an outcome leave the process they were built on. -/
structure Leads (d : ProcessDefinition) (asked : TurnId → Prop) (q : Process) (w : Writes) : Prop where
  pointer : Pointer (fun _ => False) asked q w
  typed : Typed d w
  items : (∀ s ∈ w.creates, s.iteration = none) ∨ ∀ s ∈ w.creates, s.begins = false
  cas : w.casWrites = []
  records : w.turnRecordWrites = []
  admission : w.waitForAdmission = none
  wait : (w.candidate q).metadata.turnWait = q.metadata.turnWait ∨ (w.candidate q).metadata.turnWait = none
  tracked : Tracked q w

theorem leads_of_routed (h : Routed d False q w) (hr : Routes q ids w) : Leads d (fun _ => False) q w :=
  ⟨pointer_of_routed h, typed_of_routed h, .inl fun s hs => (hr.starts s hs).iteration, cas_of_routed h, hr.records,
    hr.admission, hr.wait, hr.tracked⟩

theorem leads_of_planned {plan : ProcessPlan} (h : Planned d q ids plan w) : Leads d (plan.Asks d q) q w :=
  ⟨h.pointer, typed_of_routed h.routed, .inl fun s hs => (h.routes.starts s hs).iteration, cas_of_routed h.routed,
    h.routes.records, h.routes.admission, h.routes.wait, h.routes.tracked⟩

/-- Writes built on what a changed state left of the process. -/
theorem Leads.merge_left (h : Leads d asked (v.candidate q) w) (hm : SameMove {} v) (ht : Tracked q v) :
    Leads d asked q (mergeWrites v w) := by
  have hcand : (mergeWrites v w).candidate q = w.candidate (v.candidate q) := candidate_merge v w q
  have hc : (mergeWrites v w).creates = w.creates := by
    rw [creates_merge, hm.creates]
    rfl
  refine ⟨?_, h.typed.of_creates hc, by rw [hc]; exact h.items, ?_, ?_, ?_, ?_, ht.merge (.inr h.tracked)⟩
  · cases h.pointer with
    | kept hs hx => exact .kept (hc.trans hs) ((congrArg _ hcand).trans (hx.trans (hm.current q)))
    | cleared hs hx => exact .cleared ((llmCreates_of_creates hc).trans hs) ((congrArg _ hcand).trans hx)
    | reserved s hs hllm hx hsel hst =>
      refine .reserved s (hc ▸ hs) ((llmCreates_of_creates hc).trans hllm) ((congrArg _ hcand).trans hx)
        (.inl ?_) ?_
      · rw [hcand]
        exact hsel.elim id fun h => h.1.elim
      · rw [hcand]
        exact hst
  · rw [Writes.casWrites, turnStartWrites_merge, hm.starts]
    exact h.cas
  · rw [turnRecordWrites_merge, hm.records]
    exact h.records
  · rw [waitForAdmission_merge, hm.admission, h.admission]
    rfl
  · rw [hcand]
    have hw : (v.candidate q).metadata.turnWait = q.metadata.turnWait := congrArg _ (hm.metadata q)
    rw [← hw]
    exact h.wait

theorem Leads.of_sameMove (h : Leads d asked q w) (hm : SameMove w v) (ht : Tracked q w → Tracked q v) : Leads d asked q v :=
  ⟨h.pointer.of_sameMove hm, h.typed.of_creates hm.creates, by rw [hm.creates]; exact h.items,
    by rw [Writes.casWrites, hm.starts]; exact h.cas, hm.records.trans h.records, hm.admission.trans h.admission, by rw [hm.metadata]; exact h.wait, ht h.tracked⟩

theorem Leads.mono {asked' : TurnId → Prop} (h : Leads d asked q w) (ha : ∀ t, asked t → asked' t) :
    Leads d asked' q w := by
  refine ⟨?_, h.typed, h.items, h.cas, h.records, h.admission, h.wait, h.tracked⟩
  cases h.pointer with
  | kept hs hx => exact .kept hs hx
  | cleared hs hx => exact .cleared hs hx
  | reserved s hs hllm hx hsel hst => exact .reserved s hs hllm hx hsel fun h1 h2 => ha _ (hst h1 h2)

/-! ## The declared transition -/

theorem declaredTransition_ok {payload : TurnOutcomePayload} (h : declaredTransition d q payload ids = .ok w)
    (hd : (d.turns payload.turnId).isSome = true) :
    w = {} ∨ q.lifecycleStatus = .active ∧ q.selectedTurnId = some payload.turnId ∧
      ∃ input, checkTurnSelection d q input = .ok () ∧ Selects d q ids input w ∧ input.replacesExecution d q = true := by
  unfold declaredTransition at h
  split at h
  · rename_i hguard
    cases hf : findOutcomeTransition d payload.turnId payload.outcome with
    | error e => rw [hf] at h; cases h
    | ok found =>
      rw [hf] at h
      cases found with
      | none =>
        cases h
        exact .inl rfl
      | some transition =>
        obtain ⟨hcheck, hsel⟩ := buildTurnSelectionWrites_ok h
        refine .inr ⟨hguard.2, hguard.1, _, hcheck, hsel, ?_⟩
        cases hl : transition.lifecycleStatus with
        | some status =>
          apply replaces_of_status
          simp only [TurnSelectionWritesInput.targetLifecycleStatus]
          cases status with
          | completed => exact .inr (.inl rfl)
          | aborted => exact .inr (.inr rfl)
        | none =>
          cases hto : transition.nextTurnId with
          | none => simp only [TurnSelectionWritesInput.replacesExecution]
          | some target =>
            simp only [hl, hto] at hcheck ⊢
            exact replaces_of_derived rfl rfl (declared_of_check hcheck rfl hguard.1 hd)
  · cases h
    exact .inl rfl

/-- A declared transition behind a handler's writes: it leaves the process active, so the
handlers reserved no LLM start. -/
theorem Leads.declared {input : TurnSelectionWritesInput} {ids' : FreshIds} {stops : Prop} (h : Routed d stops q w) (hr : Routes q ids w)
    (hq : q.lifecycleStatus ≠ .error) (hl : (w.candidate q).lifecycleStatus = .active)
    (ht : Selects d (w.candidate q) ids' input v) (hrep : input.replacesExecution d (w.candidate q) = true) :
    Leads d asked q (mergeWrites w v) := by
  have hcand : (mergeWrites w v).candidate q = v.candidate (w.candidate q) := candidate_merge w v q
  -- an LLM start would have stopped the process
  have hllm : w.llmCreates = [] := by
    cases h with
    | kept hs => rw [Writes.llmCreates, creates_nil hs]; rfl
    | cleared hs => rw [Writes.llmCreates, creates_nil hs]; rfl
    | reserved s hs hx hsel hty hst hllm =>
      rw [Writes.llmCreates, Writes.creates, hs]
      by_cases hs' : s.turnType = .llm
      · rw [(hllm hs').2 hq] at hl
        cases hl
      · exact List.filter_cons_of_neg (by simpa using hs')
  have htypes : ∀ s ∈ w.creates, d.workerTurnType s.turnId = some s.turnType := by
    intro s hs
    cases h with
    | kept h0 => rw [creates_nil h0] at hs; cases hs
    | cleared h0 => rw [creates_nil h0] at hs; cases hs
    | reserved r h0 hx hsel hty =>
      rw [Writes.creates, h0] at hs
      rw [List.mem_singleton.1 hs]
      exact hty
  have hllmm : (mergeWrites w v).llmCreates = v.llmCreates := by
    rw [Writes.llmCreates, creates_merge, List.filter_append]
    show w.llmCreates ++ _ = _
    rw [hllm]
    rfl
  refine ⟨?_, .inr ?_, .inl fun s hs => ?_, ?_, ?_, ?_, ?_, hr.tracked.merge (.inr ht.routes.tracked)⟩
  · rcases ht.replaces hrep with ⟨hs, hx⟩ | ⟨s, hs, hx⟩
    · refine .cleared ?_ (by rw [hcand]; exact hx)
      rw [hllmm, Writes.llmCreates, creates_nil hs]
      rfl
    · cases ht.routed with
      | kept h0 => rw [h0] at hs; cases hs
      | cleared h0 => rw [h0] at hs; cases hs
      | reserved s' h0 hx' hsel hty hst =>
        rw [h0] at hs
        cases hs
        have hc : v.creates = [s] := by
          rw [Writes.creates, h0]
          rfl
        refine .reserved s ?_ ?_ (by rw [hcand]; exact hx) (.inl (by rw [hcand]; exact hsel)) ?_
        · rw [creates_merge, hc]
          simp
        · rw [hllmm, Writes.llmCreates, hc, List.filter_singleton]
          simp
        · intro hb he
          rw [hcand] at he
          exact (hst hb he).elim
  · intro s hs
    rw [creates_merge] at hs
    rcases List.mem_append.1 hs with hs | hs
    · exact htypes s hs
    · cases ht.routed with
      | kept h0 => rw [creates_nil h0] at hs; cases hs
      | cleared h0 => rw [creates_nil h0] at hs; cases hs
      | reserved s' h0 hx' hsel hty hst =>
        rw [Writes.creates, h0] at hs
        rw [List.mem_singleton.1 hs]
        exact hty
  · rw [creates_merge] at hs
    exact (List.mem_append.1 hs).elim (fun hs => (hr.starts s hs).iteration) fun hs => (ht.routes.starts s hs).iteration
  · rw [Writes.casWrites, turnStartWrites_merge, List.filter_append]
    show w.casWrites ++ v.casWrites = []
    rw [cas_of_routed h, cas_of_routed ht.routed]
    rfl
  · rw [turnRecordWrites_merge, hr.records, ht.routes.records]
    rfl
  · rw [waitForAdmission_merge, hr.admission, ht.routes.admission]
    rfl
  · rw [hcand, ht.metadata]
    exact hr.wait

/-! ## Mapped items -/

/-- A reserved item leaves the process at its start. -/
theorem leads_item {turnId : TurnId} (hm : SameMove {} v) (hsel : q.selectedTurnId = some turnId)
    (item : Option MappedTurnItemRef) (intent : Option WorkerIntent) :
    Leads d (fun _ => False) q { reserveSelectedTurnStart q v turnId .llm ids item with workerIntent := intent } := by
  have hstarts := starts_reserve q v turnId ids item .llm
  rw [hm.starts] at hstarts
  have hc : (reserveSelectedTurnStart q v turnId .llm ids item).creates = [selectedTurnStart q turnId .llm ids item] := by
    rw [Writes.creates, hstarts]
    rfl
  refine ⟨.reserved (selectedTurnStart q turnId .llm ids item) ?_ ?_ (current_reserve q v _ _ _ _ q) (.inl ?_) (fun hb => by cases hb),
    .inl (Nat.le_of_eq (congrArg List.length hc)), .inr fun s hs => ?_, ?_, ?_, ?_, .inl ?_,
    tracked_reserve q v _ _ _ _ q⟩
  · show _ ∈ (reserveSelectedTurnStart q v turnId .llm ids item).creates
    rw [hc]
    exact List.mem_singleton_self _
  · show (reserveSelectedTurnStart q v turnId .llm ids item).llmCreates = _
    rw [Writes.llmCreates, hc, List.filter_singleton]
    simp
  · exact (selected_reserve q v _ _ _ _ q).trans ((hm.selected q).trans hsel)
  · replace hs : s ∈ (reserveSelectedTurnStart q v turnId .llm ids item).creates := hs
    rw [hc] at hs
    rw [List.mem_singleton.1 hs]
    rfl
  · show (reserveSelectedTurnStart q v turnId .llm ids item).casWrites = _
    rw [Writes.casWrites, hstarts]
    rfl
  · exact (records_reserve q v _ _ _ _).trans hm.records
  · exact (admission_reserve q v _ _ _ _).trans hm.admission
  · exact congrArg Metadata.turnWait ((metadata_reserve q v _ _ _ _ q).trans (hm.metadata q))

/-- The outcome of an item completes it and reserves the next item or, after the last, routes the
collected results. -/
theorem buildMappedItemOutcomeWrites_inv {payload : TurnOutcomePayload} {spec : MappedLlmTurnSpec}
    {iteration : Option MappedTurnItemRef} (h : buildMappedItemOutcomeWrites d ctx st q payload spec iteration = .ok w) :
    ∃ runs, (∃ next, w = { reserveSelectedTurnStart q { ({} : Writes) with mappedRunWrites := runs } payload.turnId .llm
        (ctx.fresh 0) next with workerIntent := some .reconcile }) ∨
      ∃ results routed, collectAndRoute d q spec results (ctx.fresh 0) = .ok routed ∧
        w = mergeWrites { ({} : Writes) with mappedRunWrites := runs } routed := by
  unfold buildMappedItemOutcomeWrites at h
  split at h
  · cases h
  split at h
  · cases h
  obtain ⟨resultJson, -, h⟩ := ok_of_bind h
  dsimp only at h
  split at h
  · cases h
    exact ⟨_, .inl ⟨_, rfl⟩⟩
  split at h
  · cases h
  · obtain ⟨routed, hr, h⟩ := ok_of_bind h
    cases h
    exact ⟨_, .inr ⟨_, routed, hr, rfl⟩⟩

/-- The outcome of an item leads to the start of the next item or, after the last, along the
route of the collected results. -/
theorem buildMappedItemOutcomeWrites_ok {payload : TurnOutcomePayload} {spec : MappedLlmTurnSpec}
    {iteration : Option MappedTurnItemRef} (h : buildMappedItemOutcomeWrites d ctx st q payload spec iteration = .ok w)
    (hsel : q.selectedTurnId = some payload.turnId) (hspec : getMappedTurnSpec d payload.turnId = some spec) :
    Leads d (fun _ => False) q w := by
  obtain ⟨runs, ⟨next, rfl⟩ | ⟨results, routed, hr, rfl⟩⟩ := buildMappedItemOutcomeWrites_inv h
  · exact leads_item (sameMove_mapped {} runs) hsel _ _
  · have ht₀ : Tracked q { ({} : Writes) with mappedRunWrites := runs } := fun _ => ⟨rfl, rfl⟩
    obtain ⟨request, ht, -⟩ := collectAndRoute_ok hr hsel hspec
    have hm := (sameMove_mapped {} runs).merge_left (w := routed)
    exact leads_of_routed (ht.routed.of_sameMove hm) (ht.routes.of_sameMove hm (ht₀.merge (.inl ht.routes.tracked)))

/-! ## Handlers -/

theorem buildUnmappedOutcomeWrites_ok {payload : TurnOutcomePayload} {sw : Writes}
    (h : buildUnmappedOutcomeWrites d ctx q payload sw = .ok w) (hm : SameMove {} sw) (ht : Tracked q sw)
    (hq : q.lifecycleStatus ≠ .error) (hd : (d.turns payload.turnId).isSome = true) :
    ∃ plan, ctx.outcomeHandlers (sw.candidate q) payload = .ok plan ∧
      Leads d (plan.Asks d (sw.candidate q)) q w := by
  unfold buildUnmappedOutcomeWrites at h
  cases hh : ctx.outcomeHandlers (sw.candidate q) payload with
  | error e => rw [hh] at h; cases h
  | ok plan =>
    rw [hh] at h
    refine ⟨plan, rfl, ?_⟩
    cases he : planWrites d (sw.candidate q) plan (ctx.fresh 0) with
    | error e =>
      replace h : (planWrites d (sw.candidate q) plan (ctx.fresh 0)).bind _ = Except.ok w := h
      rw [he] at h
      cases h
    | ok effects =>
      replace h : (planWrites d (sw.candidate q) plan (ctx.fresh 0)).bind _ = Except.ok w := h
      rw [he] at h
      have hpl := planWrites_ok he
      have hlead : Leads d (plan.Asks d (sw.candidate q)) (sw.candidate q) effects := leads_of_planned hpl
      replace h : (if hasExplicitTurnSelectionChange q effects = true then _ else _) = Except.ok w := h
      split at h
      · cases h
        exact hlead.merge_left hm ht
      · cases ht' : declaredTransition d ((mergeWrites sw effects).candidate q) payload (ctx.fresh 1) with
        | error e => rw [ht'] at h; cases h
        | ok transition =>
          rw [ht'] at h
          cases h
          rcases declaredTransition_ok ht' hd with rfl | ⟨hact, -, input, -, hsel, hrep⟩
          · exact (hlead.merge_left hm ht).of_sameMove (SameMove.merge .refl) fun h => h.merge (.inl (tracked_empty _ rfl rfl))
          · rw [candidate_merge] at hact hsel hrep
            have hboth : Leads d (plan.Asks d (sw.candidate q)) (sw.candidate q) (mergeWrites effects transition) := by
              refine Leads.declared hpl.routed hpl.routes ?_ hact hsel hrep
              rw [hm.lifecycle]
              exact hq
            refine (hboth.merge_left hm ht).of_sameMove (sameMove_assoc _ _ _) fun _ => ?_
            exact (ht.merge (.inr hpl.routes.tracked)).merge (.inr (by rw [candidate_merge]; exact hsel.routes.tracked))

/-! ## The outcome of a turn -/

/-- The process an outcome's handlers are given. -/
def outcomeProcess (ctx : Context) (st : Store) (payload : TurnOutcomePayload) : Process :=
  (stateWrites ((outcomeBaseWrites ctx st payload).candidate st.process) payload.state).candidate
    ((outcomeBaseWrites ctx st payload).candidate st.process)

/-- The plan the handlers of an outcome return; a mapped turn has none. -/
def outcomePlan (d : ProcessDefinition) (ctx : Context) (st : Store) (reported : TurnOutcomePayload) : Option ProcessPlan :=
  let payload := resolveEffectiveOutcomePayload reported (ctx.outcomePublication reported)
  match getMappedTurnSpec d payload.turnId with
  | some _ => none
  | none => match ctx.outcomeHandlers (outcomeProcess ctx st payload) payload with
    | .ok plan => some plan
    | .error _ => none

/-- The automatic turn the handlers of an outcome reserve a start of in a process they stop. -/
def OutcomeAsks (d : ProcessDefinition) (ctx : Context) (st : Store) (reported : TurnOutcomePayload) (turnId : TurnId) :
    Prop :=
  ∃ plan, outcomePlan d ctx st reported = some plan ∧ plan.Asks d (outcomeProcess ctx st
    (resolveEffectiveOutcomePayload reported (ctx.outcomePublication reported))) turnId

/-- Whether the handlers of an outcome stop the process with a start that is ready. -/
def outcomeStopsStart (d : ProcessDefinition) (ctx : Context) (st : Store) (reported : TurnOutcomePayload) : Bool :=
  (outcomePlan d ctx st reported).any (·.stopsStart d (outcomeProcess ctx st
    (resolveEffectiveOutcomePayload reported (ctx.outcomePublication reported))))

/-- What every outcome does to the process before it is routed. -/
structure OutcomeBase (ctx : Context) (st : Store) (payload : TurnOutcomePayload) (w : Writes) : Prop where
  starts : w.turnStartWrites = []
  records : w.turnRecordWrites = [completionWrite ctx st payload]
  admission : w.waitForAdmission = none
  current : (w.candidate st.process).currentExecution = none
  selected : (w.candidate st.process).selectedTurnId = st.process.selectedTurnId
  metadata : (w.candidate st.process).metadata = st.process.metadata
  lifecycle : (w.candidate st.process).lifecycleStatus =
    if st.process.lifecycleStatus = .error then .active else st.process.lifecycleStatus

theorem outcomeBase (ctx : Context) (st : Store) (payload : TurnOutcomePayload) :
    OutcomeBase ctx st payload (outcomeBaseWrites ctx st payload) := by
  unfold outcomeBaseWrites
  dsimp only
  generalize hb : ({ turnRecordWrites := [completionWrite ctx st payload] } : Writes) = b
  have hcur : ((applyProcessPatchField b st.process .currentExecution none).candidate st.process).currentExecution = none := by
    rw [← hb]
    exact get_apply (f := Field.currentExecution) rfl _
  split
  · rename_i he
    refine ⟨?_, ?_, ?_, ?_, ?_, ?_, ?_⟩
    · rw [turnStartWrites_apply, turnStartWrites_apply, ← hb]
    · rw [turnRecordWrites_apply, turnRecordWrites_apply, ← hb]
    · rw [waitForAdmission_apply, waitForAdmission_apply, ← hb]
    · rw [currentExecution_applyLifecycle]
      exact hcur
    · rw [selectedTurnId_applyLifecycle, selectedTurnId_applyCurrent, ← hb]
      rfl
    · rw [metadata_applyLifecycle, metadata_applyCurrent, ← hb]
      rfl
    · rw [if_pos he]
      refine get_apply (f := Field.lifecycleStatus) ?_ _
      refine (lifecycleStatus_applyCurrent _).trans ?_
      rw [← hb]
      rfl
  · rename_i he
    refine ⟨?_, ?_, ?_, hcur, ?_, ?_, ?_⟩
    · rw [turnStartWrites_apply, ← hb]
    · rw [turnRecordWrites_apply, ← hb]
    · rw [waitForAdmission_apply, ← hb]
    · rw [selectedTurnId_applyCurrent, ← hb]
      rfl
    · rw [metadata_applyCurrent, ← hb]
      rfl
    · rw [if_neg he, lifecycleStatus_applyCurrent, ← hb]
      rfl

theorem tracked_outcomeBase (ctx : Context) (st : Store) (payload : TurnOutcomePayload) :
    Tracked st.process (outcomeBaseWrites ctx st payload) := by
  unfold outcomeBaseWrites
  dsimp only
  have hb : Tracked st.process (applyProcessPatchField { turnRecordWrites := [completionWrite ctx st payload] } st.process
      .currentExecution none) := (tracked_empty _ rfl rfl).apply _
  split
  · exact hb.apply _
  · exact hb

theorem checkOutcome_ok {payload : TurnOutcomePayload} (h : checkOutcome d ctx q payload = .ok ()) :
    (d.turns payload.turnId).isSome = true ∧ q.selectedTurnId = some payload.turnId := by
  unfold checkOutcome at h
  split at h
  · cases h
  · rename_i hd
    rw [Option.isNone_iff_eq_none, ← ne_eq, ← Option.isSome_iff_ne_none] at hd
    split at h
    · cases h
    · rename_i hs
      exact ⟨hd, not_not.1 hs⟩

theorem buildTurnOutcomeWrites_inv {payload : TurnOutcomePayload} {iteration : Option MappedTurnItemRef}
    (h : buildTurnOutcomeWrites d ctx st q payload iteration = .ok w) :
    ((d.turns payload.turnId).isSome = true ∧ q.selectedTurnId = some payload.turnId) ∧
      ((∃ spec mapped, getMappedTurnSpec d payload.turnId = some spec ∧
          buildMappedItemOutcomeWrites d ctx st ((stateWrites q payload.state).candidate q) payload spec iteration = .ok mapped ∧
          w = mergeWrites (stateWrites q payload.state) mapped) ∨
        getMappedTurnSpec d payload.turnId = none ∧
          buildUnmappedOutcomeWrites d ctx q payload (stateWrites q payload.state) = .ok w) := by
  unfold buildTurnOutcomeWrites at h
  obtain ⟨u, hc, h⟩ := ok_of_bind h
  refine ⟨checkOutcome_ok hc, ?_⟩
  dsimp only at h
  split at h
  · rename_i spec hspec
    obtain ⟨mapped, hmap, h⟩ := ok_of_bind h
    exact .inl ⟨spec, mapped, hspec, hmap, (Except.ok.inj h).symm⟩
  · rename_i hspec
    exact .inr ⟨hspec, h⟩

theorem buildTurnOutcomeWrites_ok {payload : TurnOutcomePayload} {iteration : Option MappedTurnItemRef}
    (h : buildTurnOutcomeWrites d ctx st q payload iteration = .ok w) (hq : q.lifecycleStatus ≠ .error) :
    Leads d (fun t => ∃ plan, ctx.outcomeHandlers ((stateWrites q payload.state).candidate q) payload = .ok plan ∧
      getMappedTurnSpec d payload.turnId = none ∧ plan.Asks d ((stateWrites q payload.state).candidate q) t) q w := by
  have hm := sameMove_state q payload.state
  have ht := tracked_state q q payload.state
  obtain ⟨hcheck, ⟨spec, mapped, hspec, hmap, rfl⟩ | ⟨hspec, h⟩⟩ := buildTurnOutcomeWrites_inv h
  · have hl := buildMappedItemOutcomeWrites_ok hmap ((hm.selected q).trans hcheck.2) hspec
    exact (hl.merge_left hm ht).mono fun _ => False.elim
  · obtain ⟨plan, hplan, hl⟩ := buildUnmappedOutcomeWrites_ok h hm ht hq hcheck.1
    exact hl.mono fun _ he => ⟨plan, hplan, hspec, he⟩

theorem sameMove_entryRefs (payload : TurnOutcomePayload) (w : Writes) : SameMove w (withEntryRefs ctx st payload w) := by
  unfold withEntryRefs
  dsimp only
  split
  · exact .apply quiet_stateJson _
  · exact .refl

theorem tracked_entryRefs {payload : TurnOutcomePayload} (h : Tracked p w) : Tracked p (withEntryRefs ctx st payload w) := by
  unfold withEntryRefs
  dsimp only
  split
  · exact h.apply _
  · exact h

/-- The routed writes behind what every outcome does. -/
theorem Leads.decided {u : Writes} {payload : TurnOutcomePayload} {exempt : TurnId → Prop}
    {replaces parks misroutes : Prop} (h : Leads d asked (v.candidate st.process) w)
    (hb : OutcomeBase ctx st payload v) (hid : st.currentTurnRecordId = some payload.turnRecordId)
    (hg : Gated d st.process) (hm : SameMove (mergeWrites v w) u) (ht : Tracked st.process u) :
    Decided d ctx st exempt asked replaces parks misroutes (· = payload.turnRecordId) u := by
  have hcand : (mergeWrites v w).candidate st.process = w.candidate (v.candidate st.process) := candidate_merge v w _
  have hc : u.creates = w.creates := by
    rw [hm.creates, creates_merge, creates_nil hb.starts]
    rfl
  have hx : st.process.currentExecution.isSome = true := by
    cases hs : st.currentStart with
    | none =>
      rw [Store.currentTurnRecordId, hs] at hid
      cases hid
    | some s =>
      obtain ⟨id, hcur, -⟩ := Option.bind_eq_some_iff.1 hs
      rw [hcur]
      rfl
  have gated_none := hg.wait_none hx
  have hwait : (u.candidate st.process).metadata.turnWait = none := by
    rw [hm.metadata, hcand]
    rcases h.wait with hw | hw
    · rw [hw, hb.metadata]
      exact gated_none
    · exact hw
  have hcas : u.casWrites = [] := by
    rw [Writes.casWrites, hm.starts, turnStartWrites_merge, hb.starts]
    exact h.cas
  have hrec : u.turnRecordWrites = [completionWrite ctx st payload] := by
    rw [hm.records, turnRecordWrites_merge, hb.records, h.records]
    rfl
  have hcur : (u.candidate st.process).currentExecution = (w.candidate (v.candidate st.process)).currentExecution :=
    (hm.current _).trans (congrArg _ hcand)
  have hty := h.typed.of_creates hc
  have hadm : u.waitForAdmission = none := by
    rw [hm.admission, waitForAdmission_merge, hb.admission, h.admission]
    rfl
  have hok : WaitOk d st.process u := by
    refine waitOk_of_none hwait fun s hs ha => ?_
    rw [hc] at hs ⊢
    rcases h.items with hnone | hwaits
    · unfold startAdmitted at ha
      rw [gated_none, hnone s hs] at ha
      cases ha
    · intro r hr hb
      rw [hwaits r hr] at hb
      cases hb
  -- what the routed writes keep is an execution that was cleared before
  cases h.pointer with
  | kept hs hxw =>
    have hnone : (u.candidate st.process).currentExecution = none := hcur.trans (hxw.trans hb.current)
    exact ⟨.cleared (by rw [Writes.llmCreates, hc, hs]; rfl) hnone, hty, hok, ht,
      .succeeds payload rfl hid hcas hrec fun _ => hnone⟩
  | cleared hs hxw =>
    have hnone : (u.candidate st.process).currentExecution = none := hcur.trans hxw
    exact ⟨.cleared ((llmCreates_of_creates hc).trans hs) hnone, hty, hok, ht,
      .succeeds payload rfl hid hcas hrec fun _ => hnone⟩
  | reserved s hs hllm hxw hsel hst =>
    refine ⟨.reserved s (hc ▸ hs) ((llmCreates_of_creates hc).trans hllm) (hcur.trans hxw) (.inl ?_) ?_, hty,
      hok, ht, .succeeds payload rfl hid hcas hrec fun h0 => ?_⟩
    · rw [hm.selected, hcand]
      exact hsel.elim id fun h => h.1.elim
    · rw [hm.lifecycle, hcand]
      exact hst
    · rw [hc] at h0
      rw [h0] at hs
      cases hs

/-- An accepted outcome is for the current record, and its writes are the builder's behind the
completion of the record. -/
theorem decideTurnOutcome_inv {reported : TurnOutcomePayload} {decision : Decision}
    (h : decideTurnOutcome d ctx st reported = .ok decision) :
    ∃ payload outcome, payload = resolveEffectiveOutcomePayload reported (ctx.outcomePublication reported) ∧
      st.currentTurnRecordId = some reported.turnRecordId ∧
      buildTurnOutcomeWrites d ctx st ((outcomeBaseWrites ctx st payload).candidate st.process) payload
        (st.currentStart.bind (·.iteration)) = .ok outcome ∧
      decision.writes = withEntryRefs ctx st payload (mergeWrites (outcomeBaseWrites ctx st payload) outcome) := by
  unfold decideTurnOutcome at h
  dsimp only at h
  generalize hpay : resolveEffectiveOutcomePayload reported (ctx.outcomePublication reported) = payload at h
  cases hv : validateTurnOutcomeCorrelation payload st.currentTurnRecordId with
  | error e => rw [hv] at h; cases h
  | ok u =>
    rw [hv] at h
    have hid : st.currentTurnRecordId = some payload.turnRecordId := by
      unfold validateTurnOutcomeCorrelation at hv
      split at hv
      · cases hv
      split at hv
      · cases hv
      · rename_i hne
        exact not_not.1 hne
    have hrep : payload.turnRecordId = reported.turnRecordId := by
      rw [← hpay]
      rfl
    cases hp : checkOutcomePublication st.process payload (ctx.outcomePublication reported) with
    | error e =>
      replace h : (checkOutcomePublication st.process payload (ctx.outcomePublication reported)).bind _ = .ok decision := h
      rw [hp] at h
      cases h
    | ok u' =>
      replace h : (checkOutcomePublication st.process payload (ctx.outcomePublication reported)).bind _ = .ok decision := h
      rw [hp] at h
      replace h : (buildTurnOutcomeWrites d ctx st ((outcomeBaseWrites ctx st payload).candidate st.process) payload
        (st.currentStart.bind (·.iteration))).bind (fun outcome =>
          .ok ⟨withEntryRefs ctx st payload (mergeWrites (outcomeBaseWrites ctx st payload) outcome), none⟩) = .ok decision := h
      obtain ⟨outcome, ho, rfl⟩ := bind_ok h
      exact ⟨payload, outcome, rfl, hid.trans (congrArg some hrep), ho, rfl⟩

theorem decideTurnOutcome_ok {reported : TurnOutcomePayload} {decision : Decision} {exempt : TurnId → Prop}
    {replaces parks misroutes : Prop}
    (h : decideTurnOutcome d ctx st reported = .ok decision) (hg : Gated d st.process) :
    Decided d ctx st exempt (OutcomeAsks d ctx st reported) replaces parks misroutes (· = reported.turnRecordId)
      decision.writes := by
  obtain ⟨payload, outcome, hpay, hid, ho, hw⟩ := decideTurnOutcome_inv h
  have hbase := outcomeBase ctx st payload
  have hl := buildTurnOutcomeWrites_ok ho (by rw [hbase.lifecycle]; split <;> [nofun; assumption])
  have hrep : payload.turnRecordId = reported.turnRecordId := by
    rw [hpay]
    rfl
  rw [hw, ← hrep]
  rw [← hrep] at hid
  refine (hl.mono ?_).decided hbase hid hg (sameMove_entryRefs payload _)
    (tracked_entryRefs ((tracked_outcomeBase ctx st payload).merge (.inr hl.tracked)))
  rintro t ⟨plan, hplan, hspec, he⟩
  refine ⟨plan, ?_, ?_⟩
  · unfold outcomePlan
    dsimp only
    rw [← hpay, hspec]
    dsimp only
    rw [show ctx.outcomeHandlers (outcomeProcess ctx st payload) payload = .ok plan from hplan]
  · rw [← hpay]
    exact he

/-- The one record write of an accepted outcome completes the current record. -/
theorem decideTurnOutcome_records {reported : TurnOutcomePayload} {decision : Decision}
    (h : decideTurnOutcome d ctx st reported = .ok decision) : st.currentTurnRecordId = some reported.turnRecordId ∧
      ∃ payload, payload.turnRecordId = reported.turnRecordId ∧
        decision.writes.turnRecordWrites = [completionWrite ctx st payload] := by
  obtain ⟨payload, outcome, hpay, hid, ho, hw⟩ := decideTurnOutcome_inv h
  have hbase := outcomeBase ctx st payload
  have hl := buildTurnOutcomeWrites_ok ho (by rw [hbase.lifecycle]; split <;> [nofun; assumption])
  refine ⟨hid, payload, by rw [hpay]; rfl, ?_⟩
  rw [hw, (sameMove_entryRefs payload _).records, turnRecordWrites_merge, hbase.records, hl.records]
  rfl

end Leitwerk.Engine
