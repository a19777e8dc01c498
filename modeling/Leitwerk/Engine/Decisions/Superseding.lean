import Leitwerk.Engine.Steps
/-!
# Superseding an execution

An abort and an interrupt by an observation supersede the current start and its record,
whatever their states.
-/

namespace Leitwerk.Engine

variable {d : ProcessDefinition} {ctx : Context} {st : Store} {p : Process} {w v : Writes} {ids : FreshIds}

/-! ## Superseding -/

/-- What superseding the execution adds to writes. -/
structure Supersedes (ctx : Context) (st : Store) (w v : Writes) : Prop where
  starts : v.turnStartWrites = w.turnStartWrites ++ supersededStart st
  records : v.turnRecordWrites = w.turnRecordWrites ++ supersededRecord ctx st
  patch : v.processPatch = w.processPatch
  changed : v.changedFields = w.changedFields
  admission : v.waitForAdmission = w.waitForAdmission

theorem supersedes_execution (ctx : Context) (st : Store) (w : Writes) :
    Supersedes ctx st w (supersedeExecution w st.currentTurnRecord st.currentStart ctx.now) := by
  have heq : supersedeExecution w st.currentTurnRecord st.currentStart ctx.now =
      { w with mappedRunWrites := w.mappedRunWrites ++ [.abortActive]
               turnStartWrites := w.turnStartWrites ++ supersededStart st
               turnRecordWrites := w.turnRecordWrites ++ supersededRecord ctx st } := by
    unfold supersedeExecution supersededStart startingExecution supersededRecord
    cases st.currentStart with
    | none =>
      cases st.currentTurnRecord with
      | none => simp
      | some r => by_cases hr : r.status = .running <;> simp [hr]
    | some s =>
      cases st.currentTurnRecord with
      | none => cases hst : s.state <;> simp [hst]
      | some r => cases hst : s.state <;> by_cases hr : r.status = .running <;> simp [hst, hr]
  rw [heq]
  exact ⟨rfl, rfl, rfl, rfl, rfl⟩

/-- The state change of a superseded start creates nothing. -/
theorem creates_superseded (st : Store) : (supersededStart st).filterMap (fun x => x.create?) = [] := by
  unfold supersededStart
  cases startingExecution st with
  | none => rfl
  | some x => rfl

theorem cas_superseded (st : Store) : (supersededStart st).filter (fun x => x.create?.isNone) = supersededStart st := by
  unfold supersededStart
  cases startingExecution st with
  | none => rfl
  | some x => rfl

/-! ## Aborting -/

theorem collectAbortCleanupWrites_ok {handlers : List (Process → Except String (Option CleanupResult))}
    (he : Effects st.process v) (h : collectAbortCleanupWrites st v handlers = .ok w) : Effects st.process w := by
  induction handlers generalizing v with
  | nil =>
    cases h
    exact he
  | cons handler rest ih =>
    unfold collectAbortCleanupWrites at h
    dsimp only at h
    split at h
    · cases h
    · exact ih he h
    · rename_i result _
      refine ih ?_ h
      have happ := he.append result.effects he.wait
      split
      · exact happ.apply (f := .stateJson) _ _ (fun _ _ => rfl) (fun _ _ => rfl) (fun _ _ => rfl)
      · exact happ

/-- A selection of no turn clears the execution. -/
theorem Selects.cleared {q : Process} {input : TurnSelectionWritesInput} (h : Selects d q ids input w)
    (hto : input.toTurnId = none) : w.turnStartWrites = [] ∧ (w.candidate q).currentExecution = none := by
  have hr : input.replacesExecution d q = true := by rw [TurnSelectionWritesInput.replacesExecution, hto]
  rcases h.replaces hr with hc | ⟨s, hs, -⟩
  · exact hc
  · cases h.routed with
    | kept h0 => rw [h0] at hs; cases hs
    | cleared h0 => rw [h0] at hs; cases hs
    | reserved r h0 hx hsel =>
      rw [h.selected, hto] at hsel
      cases hsel

theorem decideAbortProcess_ok {expected : Option String} {decision : Decision} {exempt asked : TurnId → Prop}
    {replaces parks misroutes : Prop} {completes : String → Prop} (h : decideAbortProcess d ctx st expected = .ok decision) (hg : Gated d st.process) :
    Decided d ctx st exempt asked replaces parks misroutes completes decision.writes := by
  unfold decideAbortProcess at h
  split at h
  · cases h
  split at h
  · cases h
  cases hcl : collectAbortCleanupWrites st {} ctx.cleanupHandlers with
  | error e => rw [hcl] at h; cases h
  | ok cleanup =>
    rw [hcl] at h
    replace h : (buildAbortProcessWrites d (cleanup.candidate st.process) st.currentTurnRecord st.currentStart ctx.now
      (ctx.fresh 0)).bind (fun abort => .ok { writes := mergeWrites cleanup abort }) = .ok decision := h
    obtain ⟨abort, hab, rfl⟩ := bind_ok h
    have he := collectAbortCleanupWrites_ok (effects_empty st.process) hcl
    unfold buildAbortProcessWrites at hab
    cases hb : buildTurnSelectionWrites d (cleanup.candidate st.process)
        { fromTurnId := some (cleanup.candidate st.process).selectedTurnId, toTurnId := none, trigger := some "abort"
          lifecycleStatus := some .aborted } (ctx.fresh 0) with
    | error e => rw [hb] at hab; cases hab
    | ok selection =>
      rw [hb] at hab
      cases hab
      obtain ⟨-, hsel⟩ := buildTurnSelectionWrites_ok hb
      obtain ⟨hs0, hx⟩ := hsel.cleared rfl
      have hsup := supersedes_execution ctx st selection
      generalize supersedeExecution selection st.currentTurnRecord st.currentStart ctx.now = abort at hsup ⊢
      have hstarts : (mergeWrites cleanup abort).turnStartWrites = supersededStart st := by
        rw [turnStartWrites_merge, he.starts, hsup.starts, hs0]
        rfl
      have hcand : (mergeWrites cleanup abort).candidate st.process = selection.candidate (cleanup.candidate st.process) := by
        rw [candidate_merge, Writes.candidate, hsup.patch]
        rfl
      have hc : (mergeWrites cleanup abort).creates = [] := by
        rw [Writes.creates, hstarts]
        exact creates_superseded st
      refine ⟨.cleared (by rw [Writes.llmCreates, hc]; rfl) (by rw [hcand]; exact hx),
        .inl (by rw [hc]; exact Nat.zero_le 1), ?_, ?_, .supersedes ?_ ?_ fun _ => by rw [hcand]; exact hx⟩
      · refine ⟨fun x hw => ?_, fun hw => ?_, fun s hs => ?_⟩
        · rw [hcand, hsel.metadata] at hw
          rcases he.wait with hsame | hnone
          · exact (hg x (hsame.symm.trans hw)).1
          · rw [hnone] at hw
            cases hw
        · rw [hcand, hsel.metadata] at hw
          rcases he.wait with hsame | hnone
          · rwa [hsame] at hw
          · rw [hnone] at hw
            cases hw
        · rw [hc] at hs
          cases hs
      · intro h0
        obtain ⟨h1, h2⟩ := foldl_addField_nil h0
        rw [hsup.changed] at h2
        refine ⟨?_, hc⟩
        have hp := (he.tracked h1).1
        rw [hcand, hp]
        have := hsel.routes.tracked
        rw [hp] at this
        exact (this h2).1
      · rw [Writes.casWrites, hstarts]
        exact cas_superseded st
      · rw [turnRecordWrites_merge, he.records, hsup.records, hsel.routes.records]
        rfl

/-! ## Observing -/

/-- Writes before an interrupt: they change state and metadata entries only. -/
structure Observes (p : Process) (w : Writes) : Prop where
  selected : (w.candidate p).selectedTurnId = p.selectedTurnId
  current : (w.candidate p).currentExecution = p.currentExecution
  lifecycle : (w.candidate p).lifecycleStatus = p.lifecycleStatus
  wait : (w.candidate p).metadata.turnWait = p.metadata.turnWait
  starts : w.turnStartWrites = []
  records : w.turnRecordWrites = []
  tracked : Tracked p w

theorem Observes.decided {exempt asked : TurnId → Prop} {replaces parks misroutes : Prop} {completes : String → Prop} (h : Observes st.process w)
    (hg : Gated d st.process) : Decided d ctx st exempt asked replaces parks misroutes completes w :=
  ⟨.kept (creates_nil h.starts) h.current, .inl (by rw [creates_nil h.starts]; exact Nat.zero_le 1),
    waitOk_of_kept hg h.wait (creates_nil h.starts), h.tracked, .keeps (by rw [Writes.casWrites, h.starts]; rfl)
      (logs_nil h.records) ⟨creates_nil h.starts, h.current, fun he => .inl (h.lifecycle.symm.trans he), .inl h.selected⟩⟩

/-- The metadata entries an observation sets leave the rest of the process alone. -/
theorem observes_metadata (hm : SameMove {} w) (ht : Tracked p w) (entries : List (String × Json)) :
    Observes p (applyMetadataPatch w p { p.metadata with entries }) where
  selected := (selectedTurnId_applyMetadata _).trans (hm.selected p)
  current := (currentExecution_applyMetadata _).trans (hm.current p)
  lifecycle := (lifecycleStatus_applyMetadata _).trans (hm.lifecycle p)
  wait := by
    have h := congrArg Metadata.turnWait (get_apply (f := Field.metadata) (q := p) (hm.metadata p) { p.metadata with entries })
    exact h
  starts := (turnStartWrites_apply _ _ _ _).trans hm.starts
  records := (turnRecordWrites_apply _ _ _ _).trans hm.records
  tracked := ht.apply _

/-- The state and the metadata an observation reports. -/
theorem observes_input (p : Process) (input : ProcessObservationUpdate) :
    Observes p (if input.metadata.isEmpty = true then stateWrites p input.state else
      applyMetadataPatch (stateWrites p input.state) p
        { p.metadata with entries := mergeEntries p.metadata.entries input.metadata }) := by
  have hm := sameMove_state p input.state
  have ht := tracked_state p p input.state
  split
  · exact ⟨hm.selected _, hm.current _, hm.lifecycle _, congrArg _ (hm.metadata _), hm.starts, hm.records, ht⟩
  · exact observes_metadata hm ht _

/-- An interrupt for a gated turn reserves its start, beside the superseded execution. -/
theorem decided_reserveInterrupt {turnId : TurnId} {turnType : WorkerTurnType} {exempt asked : TurnId → Prop}
    {replaces parks misroutes : Prop} {completes : String → Prop} {q : Process} {intent : Option WorkerIntent}
    (hs : v.turnStartWrites = supersededStart st) (hr : v.turnRecordWrites = supersededRecord ctx st)
    (hw : (v.candidate st.process).metadata.turnWait = none) (hl : (v.candidate st.process).lifecycleStatus = .waiting)
    (hsel : (v.candidate st.process).selectedTurnId = some turnId) :
    Decided d ctx st exempt asked replaces parks misroutes completes
      { reserveSelectedTurnStart q v turnId turnType ids with workerIntent := intent } := by
  have hstarts := starts_reserve q v turnId ids none turnType
  rw [hs] at hstarts
  have hc : (reserveSelectedTurnStart q v turnId turnType ids).creates = [selectedTurnStart q turnId turnType ids none] := by
    rw [Writes.creates, hstarts, List.filterMap_append, creates_superseded]
    rfl
  have hlife : (selectedTurnStart q turnId turnType ids none).begins = true →
      ((reserveSelectedTurnStart q v turnId turnType ids).candidate st.process).lifecycleStatus ≠ .error := by
    intro hb he
    rw [selectedTurnStart_begins, decide_eq_true_eq] at hb
    subst hb
    have := (lifecycle_reserve_automatic q v turnId ids none st.process).trans hl
    cases this.symm.trans he
  refine ⟨.reserved (selectedTurnStart q turnId turnType ids none) ?_ ?_ (current_reserve q v turnId ids none turnType _)
    (.inl ((selected_reserve q v turnId ids none turnType _).trans hsel)) fun hb he => absurd he (hlife hb),
    .inl (Nat.le_of_eq (congrArg List.length hc)), waitOk_of_one ?_ hc hlife, tracked_reserve q v turnId ids none turnType _, .supersedes ?_ ?_ fun h0 => ?_⟩
  · show _ ∈ (reserveSelectedTurnStart q v turnId turnType ids).creates
    rw [hc]
    exact List.mem_singleton_self _
  · show (reserveSelectedTurnStart q v turnId turnType ids).llmCreates = _
    rw [Writes.llmCreates, hc, List.filter_singleton]
    simp
  · exact (congrArg Metadata.turnWait (metadata_reserve q v turnId ids none turnType _)).trans hw
  · show (reserveSelectedTurnStart q v turnId turnType ids).casWrites = _
    rw [Writes.casWrites, hstarts, List.filter_append, cas_superseded]
    exact List.append_nil _
  · exact (records_reserve q v turnId ids none turnType).trans hr
  · exact absurd (hc.symm.trans h0) (by simp)

theorem decided_interrupt {input : ProcessObservationUpdate} {exempt asked : TurnId → Prop}
    {replaces parks misroutes : Prop} {completes : String → Prop} (hv : Observes st.process v) (h : observationInterrupt d ctx st input v = .ok w) :
    Decided d ctx st exempt asked replaces parks misroutes completes w := by
  unfold observationInterrupt at h
  dsimp only at h
  split at h
  · cases h
  split at h
  · cases h
  have hsup := supersedes_execution ctx st v
  generalize supersedeExecution v st.currentTurnRecord st.currentStart ctx.now = a at h hsup
  have hsa : a.turnStartWrites = supersededStart st := by rw [hsup.starts, hv.starts]; rfl
  have hra : a.turnRecordWrites = supersededRecord ctx st := by rw [hsup.records, hv.records]; rfl
  have hca : a.candidate st.process = v.candidate st.process := congrArg (·.apply st.process) hsup.patch
  -- the wait and the execution are cleared
  generalize hb : writeTurnWait a { st.process with metadata := a.processPatch.metadata.getD st.process.metadata } none = b at h
  have hsb : b.turnStartWrites = supersededStart st := by rw [← hb, starts_writeTurnWait]; exact hsa
  have hrb : b.turnRecordWrites = supersededRecord ctx st := by rw [← hb, records_writeTurnWait]; exact hra
  have hcurb : (b.candidate st.process).currentExecution = st.process.currentExecution := by
    rw [← hb, current_writeTurnWait, hca]
    exact hv.current
  have hselb : (b.candidate st.process).selectedTurnId = st.process.selectedTurnId := by
    rw [← hb, selected_writeTurnWait, hca]
    exact hv.selected
  have hlifeb : (b.candidate st.process).lifecycleStatus = st.process.lifecycleStatus := by
    rw [← hb, lifecycle_writeTurnWait, hca]
    exact hv.lifecycle
  have hwaitb : (b.candidate st.process).metadata.turnWait = none := by
    rw [← hb]
    exact congrArg Metadata.turnWait (get_apply (f := Field.metadata) (p := st.process)
      (q := { st.process with metadata := a.processPatch.metadata.getD st.process.metadata }) rfl _)
  have htb : Tracked st.process a → Tracked st.process b := fun h => hb ▸ tracked_writeTurnWait _ _ _ h
  have hta : Tracked st.process a := by
    intro h0
    rw [hsup.changed] at h0
    refine ⟨hca.trans (hv.tracked h0).1, ?_⟩
    rw [Writes.creates, hsa]
    exact creates_superseded st
  generalize hc : applyProcessPatchField b st.process .currentExecution none = c at h
  have hsc : c.turnStartWrites = supersededStart st := by rw [← hc, turnStartWrites_apply]; exact hsb
  have hrc : c.turnRecordWrites = supersededRecord ctx st := by rw [← hc, turnRecordWrites_apply]; exact hrb
  have hcurc : (c.candidate st.process).currentExecution = none := by
    rw [← hc]
    exact get_apply (f := Field.currentExecution) hcurb _
  have hwaitc : (c.candidate st.process).metadata.turnWait = none := by
    rw [← hc, metadata_applyCurrent]
    exact hwaitb
  have hselc : (c.candidate st.process).selectedTurnId = st.process.selectedTurnId := by
    rw [← hc, selectedTurnId_applyCurrent]
    exact hselb
  have hlifec : (c.candidate st.process).lifecycleStatus = st.process.lifecycleStatus := by
    rw [← hc, lifecycleStatus_applyCurrent]
    exact hlifeb
  have htc : Tracked st.process c := by
    rw [← hc]
    exact (htb hta).apply _
  have hcreates : ∀ {u : Writes}, u.turnStartWrites = supersededStart st → u.creates = [] := by
    intro u hu
    rw [Writes.creates, hu]
    exact creates_superseded st
  have hcas : ∀ {u : Writes}, u.turnStartWrites = supersededStart st → u.casWrites = supersededStart st := by
    intro u hu
    rw [Writes.casWrites, hu]
    exact cas_superseded st
  have hcleared : ∀ {u : Writes}, u.turnStartWrites = supersededStart st → u.turnRecordWrites = supersededRecord ctx st →
      (u.candidate st.process).currentExecution = none → (u.candidate st.process).metadata.turnWait = none →
      Tracked st.process u → Decided d ctx st exempt asked replaces parks misroutes completes u := by
    intro u hs hr hx hw ht
    exact ⟨.cleared (by rw [Writes.llmCreates, hcreates hs]; rfl) hx, .inl (by rw [hcreates hs]; exact Nat.zero_le 1),
      waitOk_of_cleared hw (hcreates hs), ht, .supersedes (hcas hs) hr fun _ => hx⟩
  cases hls : input.lifecycleStatus with
  | some status =>
    rw [hls] at h
    cases h
    refine hcleared ?_ ?_ ?_ ?_ ((htc.apply (f := .selectedTurnId) (q := st.process) none).apply (f := .lifecycleStatus)
      (q := st.process) status.toLifecycle)
    · exact (turnStartWrites_apply _ _ _ _).trans ((turnStartWrites_apply _ _ _ _).trans hsc)
    · exact (turnRecordWrites_apply _ _ _ _).trans ((turnRecordWrites_apply _ _ _ _).trans hrc)
    · exact (currentExecution_applyLifecycle _).trans ((currentExecution_applySelected _).trans hcurc)
    · exact (congrArg Metadata.turnWait ((metadata_applyLifecycle _).trans (metadata_applySelected _))).trans hwaitc
  | none =>
    cases hin : input.interrupt with
    | none =>
      rw [hls, hin] at h
      cases h
      exact hcleared hsc hrc hcurc hwaitc htc
    | some turnId =>
      rw [hls, hin] at h
      dsimp only at h
      split at h
      · cases h
      split at h
      · rename_i turnType htype
        cases h
        generalize he : applyProcessPatchField (applyProcessPatchField c st.process .selectedTurnId (some turnId)) st.process
          .lifecycleStatus .waiting = e
        have hse : e.turnStartWrites = supersededStart st := by
          rw [← he, turnStartWrites_apply, turnStartWrites_apply]
          exact hsc
        have hre : e.turnRecordWrites = supersededRecord ctx st := by
          rw [← he, turnRecordWrites_apply, turnRecordWrites_apply]
          exact hrc
        have hwaite : (e.candidate st.process).metadata.turnWait = none := by
          rw [← he, metadata_applyLifecycle, metadata_applySelected]
          exact hwaitc
        have hlife : (e.candidate st.process).lifecycleStatus = .waiting := by
          rw [← he]
          refine get_apply (f := Field.lifecycleStatus) ?_ _
          exact (lifecycleStatus_applySelected _).trans hlifec
        have hsel : (e.candidate st.process).selectedTurnId = some turnId := by
          rw [← he, selectedTurnId_applyLifecycle]
          exact get_apply (f := Field.selectedTurnId) hselc _
        exact decided_reserveInterrupt hse hre hwaite hlife hsel
      · cases h

theorem decideProcessObservation_ok {input : ProcessObservationUpdate} {decision : Decision}
    {exempt asked : TurnId → Prop} {replaces parks misroutes : Prop} {completes : String → Prop}
    (h : decideProcessObservation d ctx st input = .ok decision) (hg : Gated d st.process) :
    Decided d ctx st exempt asked replaces parks misroutes completes decision.writes := by
  unfold decideProcessObservation at h
  split at h
  · cases h
  dsimp only at h
  have hobs := observes_input st.process input
  generalize (if input.metadata.isEmpty = true then stateWrites st.process input.state else
    applyMetadataPatch (stateWrites st.process input.state) st.process
      { st.process.metadata with entries := mergeEntries st.process.metadata.entries input.metadata }) = u at h hobs
  split at h
  · obtain ⟨writes, hb, rfl⟩ := bind_ok h
    exact decided_interrupt hobs hb
  · cases h
    exact hobs.decided hg

theorem decideUpdateRefs_ok {nextStateJson : Option Json} {decision : Decision} {exempt asked : TurnId → Prop}
    {replaces parks misroutes : Prop} {completes : String → Prop} (h : decideUpdateRefs st nextStateJson = .ok decision) (hg : Gated d st.process) :
    Decided d ctx st exempt asked replaces parks misroutes completes decision.writes := by
  cases h
  exact decided_still hg (sameMove_state _ _) (tracked_state _ _ _)

end Leitwerk.Engine
