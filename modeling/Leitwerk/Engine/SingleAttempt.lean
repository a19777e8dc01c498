import Leitwerk.Engine.Sound
/-!
# One live attempt per process

A turn record runs from the acceptance of its start until it succeeds, fails or
is superseded. A process is meant to have at most one, that of its current
execution, and to settle an execution before it is replaced or cleared.
-/

namespace Leitwerk.Engine

variable {d : ProcessDefinition} {ctx : Context} {st st' : Store} {op : Op} {w v : Writes}

/-- Only the record of the current execution runs. -/
def Store.SingleAttempt (st : Store) : Prop :=
  ∀ k r, st.turnRecords.get? k = some r → r.status = .running → st.currentTurnRecordId = some k

/-- Whether the start of a key neither awaits acceptance nor has a record that runs. -/
def Store.startOver (st : Store) (k : String) : Bool :=
  match st.turnStarts.get? k with
  | some s => match s.state with
    | .starting _ => false
    | .accepted _ rid _ => (st.turnRecords.get? rid).any (·.status != .running)
    | _ => true
  | none => false

/-- Whether an event replaces or clears an execution only when it is over, or settles it. -/
def replacesSettled (d : ProcessDefinition) (st : Store) : Event → Bool
  | .op op ctx => !(op.replacesExecution d ctx st && st.liveExecution)
  | .leases _ => true

/-! ## Running records -/

theorem Store.SingleAttempt.live (hi : st.SingleAttempt) {k : String} {r : TurnRecord}
    (hr : st.turnRecords.get? k = some r) (hrun : r.status = .running) : st.liveExecution = true := by
  obtain ⟨s, start, lease, hs, hst⟩ := currentTurnRecordId_iff.1 (hi k r hr hrun)
  exact liveExecution_iff.2 ⟨s, hs, .inr ⟨start, k, lease, r, hst, hr, hrun⟩⟩

/-- While its start awaits acceptance, no record of the process runs. -/
theorem Store.SingleAttempt.none_running (hi : st.SingleAttempt) {s : TurnStartRecord} (hs : st.currentStart = some s)
    (hst : ∀ start rid lease, s.state ≠ .accepted start rid lease) {k : String} {r : TurnRecord}
    (hr : st.turnRecords.get? k = some r) : r.status ≠ .running := by
  intro hrun
  obtain ⟨s', start, lease, hs', hacc⟩ := currentTurnRecordId_iff.1 (hi k r hr hrun)
  rw [hs, Option.some.injEq] at hs'
  exact hst start k lease (hs' ▸ hacc)

/-- A running record was running before, or its operation created it. -/
theorem Ran.running (h : Ran d ctx st op w v st') (hrec : ∀ k r, st.turnRecords.get? k = some r →
      r.status ≠ .running → (w.turnRecordWrites.foldl (fun r x => patchRow x k r) r).status ≠ .running)
    (hnew : ∀ c, .create c ∈ w.turnRecordWrites → (∀ x ∈ w.turnRecordWrites, ∃ c, x = .create c) ∧ c.status ≠ .running)
    {k : String} {r' : TurnRecord} (hr' : st'.turnRecords.get? k = some r') (hrun : r'.status = .running) :
    ∃ r, st.turnRecords.get? k = some r ∧ r.status = .running ∧
      r' = w.turnRecordWrites.foldl (fun r x => patchRow x k r) r := by
  cases hk : st.turnRecords.get? k with
  | none =>
    obtain ⟨c, hc, -, -, hone⟩ := h.record_new hk hr'
    obtain ⟨hall, hne⟩ := hnew c hc
    rw [hone hall] at hrun
    exact absurd hrun hne
  | some r =>
    have hrow := h.record_row hk
    rw [hr', Option.some.injEq] at hrow
    refine ⟨r, rfl, ?_, hrow⟩
    by_contra hne
    exact hrec k r hk hne (hrow ▸ hrun)

theorem Ran.running_logged (h : Ran d ctx st op w v st') (hl : Logs ctx w) {k : String} {r : TurnRecord}
    (hr : st'.turnRecords.get? k = some r) (hrun : r.status = .running) : st.turnRecords.get? k = some r := by
  have hall : ∀ x ∈ w.turnRecordWrites, ∃ c, x = .create c := fun x hx => (hl x hx).imp fun _ h => h.1
  obtain ⟨r₀, hr₀, -, heq⟩ := h.running (fun k r _ hne => by rwa [foldl_patchRow_creates hall])
    (fun c hc => ⟨hall, by
      obtain ⟨c', heq, -, hstatus, -⟩ := hl _ hc
      cases heq
      rw [hstatus]
      nofun⟩) hr hrun
  rwa [heq, foldl_patchRow_creates hall]

/-- After an update that settles the record `id`, only records beside it may run. -/
theorem Ran.running_updated (h : Ran d ctx st op w v st') {id : String} {patch : TurnRecordPatch}
    {status : TurnRecordStatus} (hw : w.turnRecordWrites = [.update id patch]) (hp : patch.status = some status)
    (hne : status ≠ .running) {k : String} {r : TurnRecord} (hr : st'.turnRecords.get? k = some r)
    (hrun : r.status = .running) : k ≠ id ∧ st.turnRecords.get? k = some r := by
  have happly : ∀ r : TurnRecord, (patch.apply r).status = status := by
    intro r
    rw [TurnRecordPatch.apply, hp]
    rfl
  obtain ⟨r₀, hr₀, -, heq⟩ := h.running (fun k r _ hr => by
      rw [hw, List.foldl_cons, List.foldl_nil]
      unfold patchRow
      dsimp only
      split
      · rw [happly]
        exact hne
      · exact hr) (fun c hc => by rw [hw] at hc; simp at hc) hr hrun
  rw [hw, List.foldl_cons, List.foldl_nil] at heq
  by_cases hid : id = k
  · subst hid
    rw [patchRow_self] at heq
    rw [heq, happly] at hrun
    exact absurd hrun hne
  · rw [patchRow_ne hid] at heq
    exact ⟨Ne.symm hid, heq ▸ hr₀⟩

/-! ## One operation -/

/-- The completion of a record the store has is an update. -/
theorem completionWrite_update (ctx : Context) {payload : TurnOutcomePayload} {r : TurnRecord}
    (hr : st.turnRecords.get? payload.turnRecordId = some r) : ∃ patch,
      completionWrite ctx st payload = .update payload.turnRecordId patch ∧ patch.status = some .succeeded := by
  unfold completionWrite
  rw [hr]
  exact ⟨_, rfl, rfl⟩

theorem supersededRecord_some (ctx : Context) {r : TurnRecord} (h : st.currentTurnRecord = some r) (hrun : r.status = .running) :
    ∃ patch, supersededRecord ctx st = [.update r.id patch] ∧ patch.status = some .superseded := by
  unfold supersededRecord
  rw [h]
  dsimp only
  rw [if_pos hrun]
  exact ⟨_, rfl, rfl⟩

theorem supersededStart_nil {s : TurnStartRecord} (hs : st.currentStart = some s)
    (hst : ∀ resolved, s.state ≠ .starting resolved) : supersededStart st = [] := by
  unfold supersededStart
  cases hx : startingExecution st with
  | none => rfl
  | some x =>
    obtain ⟨s', hs', -, hst'⟩ := startingExecution_iff.1 hx
    rw [hs, Option.some.injEq] at hs'
    exact absurd (hs' ▸ hst') (hst _)

theorem supersededRecord_nil (ctx : Context) (h : st.currentTurnRecord.any (·.status == .running) = false) :
    supersededRecord ctx st = [] := by
  unfold supersededRecord
  cases hr : st.currentTurnRecord with
  | none => rfl
  | some r =>
    rw [hr, Option.any_some] at h
    exact if_neg (by simpa using h)

/-- The current record id of a store whose execution and current start are as before. -/
theorem Ran.currentTurnRecordId_same (h : Ran d ctx st op w v st') (hs : Sound d st) (hc : w.creates = [])
    (hx : (w.candidate st.process).currentExecution = st.process.currentExecution) (hcas : w.casWrites = []) :
    st'.currentTurnRecordId = st.currentTurnRecordId := by
  have hcur : st'.process.currentExecution = st.process.currentExecution := (h.stayed hc).2.1.trans hx
  have hstart : st'.currentStart = st.currentStart := by
    rw [Store.currentStart, Store.currentStart, hcur]
    cases hk : st.process.currentExecution with
    | none => rfl
    | some k =>
      obtain ⟨s, hrow, -⟩ := hs.current k hk
      rw [Option.bind_some, Option.bind_some, hrow, h.start_same hcas hrow]
  rw [Store.currentTurnRecordId, Store.currentTurnRecordId, hstart]

theorem Store.SingleAttempt.step (hi : st.SingleAttempt) (hs : Sound d st)
    (hok : replacesSettled d st (.op op ctx) = true) (h : Ran d ctx st op w v st') : st'.SingleAttempt := by
  intro k r hr hrun
  -- a decision that writes no record keeps what runs
  have hnil : w.turnRecordWrites = [] → st.turnRecords.get? k = some r := fun h0 => h.running_logged (logs_nil h0) hr hrun
  cases h.decided.act with
  | keeps hc hl hk =>
    rw [h.currentTurnRecordId_same hs hk.creates hk.current hc]
    exact hi k r (h.running_logged hl hr hrun) hrun
  | leaves hc hl hlive hx =>
    have hlive' := hi.live (h.running_logged hl hr hrun) hrun
    rcases hlive with hover | hrep
    · rw [hover] at hlive'
      cases hlive'
    · rw [replacesSettled, hrep, hlive'] at hok
      cases hok
  | accepts s resolved lease receipt hcs hst hlife hsel hc hrec hnil' hcand =>
    obtain ⟨m, hcand⟩ := hcand
    obtain ⟨hcur, hrow⟩ := h.current_cas hs.startsKeyed hcs hc hnil' (by rw [hcand])
    by_cases hkey : k = s.proposedTurnRecordId
    · rw [hkey]
      exact currentTurnRecordId_iff.2 ⟨_, resolved, lease.id, currentStart_of_row hcur hrow, rfl⟩
    · rw [(h.record_created hrec).2] at hr
      replace hr : (if k = s.proposedTurnRecordId then _ else _) = some r := hr
      rw [if_neg hkey] at hr
      exact absurd hrun (hi.none_running hcs (fun _ _ _ h => by rw [hst] at h; cases h) hr)
  | fails id r₀ patch hid hrow hp hc hrec hnil' hx hsel =>
    obtain ⟨hne, hr₀⟩ := h.running_updated hrec hp (by decide) hr hrun
    have := hi k r hr₀ hrun
    rw [hid, Option.some.injEq] at this
    exact absurd this.symm hne
  | failsBootstrap s resolved lease code message hcs hst hc hrec hnil' hcand =>
    exact absurd hrun (hi.none_running hcs (fun _ _ _ h => by rw [hst] at h; cases h) (hnil hrec))
  | reschedules s retry hcs hst hc hrec hnil' hcand =>
    exact absurd hrun (hi.none_running hcs (fun _ _ _ h => by rw [h] at hst; cases hst) (hnil hrec))
  | succeeds payload hco hid hc hrec hx =>
    obtain ⟨-, r₀, -, hrow, -⟩ := hs.currentRecord hid
    obtain ⟨patch, hw, hp⟩ := completionWrite_update ctx hrow
    obtain ⟨hne, hr₀⟩ := h.running_updated (hrec.trans (congrArg ([·]) hw)) hp (by decide) hr hrun
    have := hi k r hr₀ hrun
    rw [hid, Option.some.injEq] at this
    exact absurd this.symm hne
  | supersedes hc hrec hx =>
    cases hcr : st.currentTurnRecord.any (·.status == .running) with
    | false =>
      have hold := hnil (hrec.trans (supersededRecord_nil ctx hcr))
      rw [Store.currentTurnRecord, hi k r hold hrun, Option.bind_some, hold, Option.any_some, hrun] at hcr
      cases hcr
    | true =>
      obtain ⟨r₀, hr₀, hrun₀⟩ := (Option.any_eq_true _ _).1 hcr
      rw [beq_iff_eq] at hrun₀
      obtain ⟨patch, hw, hp⟩ := supersededRecord_some ctx hr₀ hrun₀
      obtain ⟨hne, hold⟩ := h.running_updated (hrec.trans hw) hp (by decide) hr hrun
      obtain ⟨id, hid, hrow⟩ := Option.bind_eq_some_iff.1 hr₀
      have := hi k r hold hrun
      rw [hid, Option.some.injEq] at this
      rw [hs.recordsKeyed id r₀ hrow] at hne
      exact absurd this.symm hne

/-! ## Replacing an execution -/

theorem startOver_of_not_live {k : String} {s : TurnStartRecord} (hcur : st.process.currentExecution = some k)
    (hs : Sound d st) (hl : st.liveExecution = false) (hrow : st.turnStarts.get? k = some s)
    (hrow' : st'.turnStarts.get? k = some s)
    (hrec : ∀ k r, st.turnRecords.get? k = some r → ∃ r', st'.turnRecords.get? k = some r' ∧
      (r'.status = .running → r.status = .running)) : st'.startOver k = true := by
  have hcs := currentStart_of_row hcur hrow
  unfold Store.startOver
  rw [hrow']
  dsimp only
  cases hst : s.state with
  | preparationFailed failure => rfl
  | bootstrapFailed start lease code summary => rfl
  | superseded start => rfl
  | starting start =>
    rw [liveExecution_iff.2 ⟨s, hcs, .inl ⟨start, hst⟩⟩] at hl
    cases hl
  | accepted start rid lease =>
    obtain ⟨-, r, hr, -⟩ := hs.accepted k s start rid lease hrow hst
    obtain ⟨r', hr', himp⟩ := hrec rid r hr
    dsimp only
    rw [hr', Option.any_some, bne_iff_ne]
    intro hrun
    rw [liveExecution_iff.2 ⟨s, hcs, .inr ⟨start, rid, lease, r, hst, hr, himp hrun⟩⟩] at hl
    cases hl

/-- An operation that replaces or clears the execution leaves the previous start and its record over. -/
theorem Sound.replaced (hs : Sound d st) (hok : replacesSettled d st (.op op ctx) = true) (h : Ran d ctx st op w v st')
    {k : String} (hk : st.process.currentExecution = some k) (hne : st'.process.currentExecution ≠ some k) :
    st'.startOver k = true := by
  obtain ⟨s, hrow, hp⟩ := hs.current k hk
  have hcs := currentStart_of_row hk hrow
  have hid : s.id = k := hs.startsKeyed k s hrow
  have hstays : w.creates = [] → (w.candidate st.process).currentExecution = st.process.currentExecution → False := by
    intro hc hx
    exact hne ((h.stayed hc).2.1.trans (hx.trans hk))
  cases h.decided.act with
  | keeps hc hl hkeep => exact (hstays hkeep.creates hkeep.current).elim
  | accepts s resolved lease receipt hcs hst hlife hsel hc hrec hnil hcand =>
    obtain ⟨m, hcand⟩ := hcand
    exact (hstays hnil (by rw [hcand])).elim
  | fails id r patch hid hrow hp hc hrec hnil hx hsel => exact (hstays hnil hx).elim
  | failsBootstrap s resolved lease code message hcs hst hc hrec hnil hcand => exact (hstays hnil (by rw [hcand])).elim
  | reschedules s retry hcs hst hc hrec hnil hcand => exact (hstays hnil (by rw [hcand])).elim
  | leaves hc hl hlive hx =>
    have hl' : st.liveExecution = false := by
      rcases hlive with hl | hrep
      · exact hl
      · rw [replacesSettled, hrep, Bool.true_and, Bool.not_eq_true'] at hok
        exact hok
    exact startOver_of_not_live hk hs hl' hrow (h.start_same hc hrow) fun j r hr => ⟨r, h.record_logged hl hr, id⟩
  | succeeds payload hco hid' hc hrec hx =>
    obtain ⟨s', start, lease, hcs', hst⟩ := currentTurnRecordId_iff.1 hid'
    rw [hcs, Option.some.injEq] at hcs'
    subst hcs'
    obtain ⟨-, r, -, hr, -⟩ := hs.currentRecord hid'
    obtain ⟨patch, hw, hp'⟩ := completionWrite_update ctx hr
    unfold Store.startOver
    rw [h.start_same hc hrow]
    dsimp only
    rw [hst]
    dsimp only
    rw [h.record_updated (hrec.trans (congrArg ([·]) hw)) hr, if_pos rfl, Option.any_some, TurnRecordPatch.apply, hp']
    rfl
  | supersedes hc hrec hx =>
    cases hst : s.state with
    | starting start =>
      have hsup : w.casWrites = [.casState s.id .starting (.superseded (some start)) none] := by
        rw [hc, supersededStart, startingExecution_iff.2 ⟨s, hcs, rfl, hst⟩]
      unfold Store.startOver
      rw [h.start_cas hsup hrow, if_pos hid]
    | preparationFailed failure =>
      have hsup : w.casWrites = [] := hc.trans (supersededStart_nil hcs (by rw [hst]; intro start hstart; cases hstart))
      unfold Store.startOver
      rw [h.start_same hsup hrow]
      dsimp only
      rw [hst]
    | bootstrapFailed start lease code summary =>
      have hsup : w.casWrites = [] := hc.trans (supersededStart_nil hcs (by rw [hst]; intro start hstart; cases hstart))
      unfold Store.startOver
      rw [h.start_same hsup hrow]
      dsimp only
      rw [hst]
    | superseded start => exact absurd (by rw [hst]; rfl) hp.kind
    | accepted start rid lease =>
      have hsup : w.casWrites = [] := hc.trans (supersededStart_nil hcs (by rw [hst]; intro start hstart; cases hstart))
      have hrid := currentTurnRecordId_iff.2 ⟨s, start, lease, hcs, hst⟩
      obtain ⟨-, r, -, hr, hcr, hkey, -⟩ := hs.currentRecord hrid
      unfold Store.startOver
      rw [h.start_same hsup hrow]
      dsimp only
      rw [hst]
      dsimp only
      by_cases hrun : r.status = .running
      · obtain ⟨patch, hw, hp'⟩ := supersededRecord_some ctx hcr hrun
        rw [h.record_updated (hrec.trans hw) hr, if_pos hkey, Option.any_some, TurnRecordPatch.apply, hp']
        rfl
      · have hw := supersededRecord_nil ctx (by rw [hcr, Option.any_some]; simpa using hrun)
        rw [h.record_logged (logs_nil (hrec.trans hw)) hr, Option.any_some]
        simpa using hrun

/-! ## Every run -/

/-- In a run whose steps never replace or clear an execution that lives without settling it, at
most the record of the current execution runs, and every step that replaces or clears the
execution leaves the previous start and its record over. -/
theorem single_attempt {st₀ : Store} {h : Runs.Hist Event Result} (h₀ : Fresh st₀)
    (hr : Runs.Run (Runs.Guard (EngineStep d) fun st e => replacesSettled d st e = true) st₀ h st) :
    (∀ k r, st.turnRecords.get? k = some r → r.status = .running → st.currentTurnRecordId = some k) ∧
      ∀ e, replacesSettled d st e = true → ∀ k, st.process.currentExecution = some k →
        (next d st e).process.currentExecution ≠ some k → (next d st e).startOver k = true := by
  have hs : Sound d st := sound_of_run hr.of_guard (sound_fresh h₀)
  have hsingle : st.SingleAttempt := inv_of_run hr (sound_fresh h₀)
    (fun k r hrow => by rw [h₀.records] at hrow; cases hrow)
    (fun st op ctx w v st' hs hi hok hran => hi.step hs hok hran) (fun st leases hi => hi)
  refine ⟨hsingle, fun e hok k hk hne => ?_⟩
  cases e with
  | leases leases => exact absurd hk hne
  | op op ctx =>
    unfold next at hne ⊢
    dsimp only at hne ⊢
    cases hrun : op.run d ctx st with
    | error why =>
      rw [hrun] at hne
      exact absurd hk hne
    | ok st' =>
      obtain ⟨decision, v, -, -, hran⟩ := hs.ran hrun
      rw [hrun] at hne
      exact hs.replaced hok hran hk hne

theorem single_attempt_demo : (∀ k r, (afterDemo demoFailed).turnRecords.get? k = some r → r.status = .running →
      (afterDemo demoFailed).currentTurnRecordId = some k) ∧
    ∀ e, replacesSettled demoDefinition (afterDemo demoFailed) e = true → ∀ k,
      (afterDemo demoFailed).process.currentExecution = some k →
      (next demoDefinition (afterDemo demoFailed) e).process.currentExecution ≠ some k →
      (next demoDefinition (afterDemo demoFailed) e).startOver k = true :=
  single_attempt fresh_demo (run_demo_guarded (replacesSettled demoDefinition) (by decide +kernel))

/-- An action that selects another turn while the current record runs. -/
def demoLeaving : List Event :=
  demoRunning ++ [.op .executeAction { demoContext "3" with
    planProcessAction := fun _ => .ok { plan := { transitionRequest := some { turnId := some (some "review") } } } }]

/-- The record of an execution that an action cleared still runs. -/
theorem action_orphans_record : ¬ ∀ (d : ProcessDefinition) (st₀ st : Store) (h : Runs.Hist Event Result), Fresh st₀ →
    Runs.Run (EngineStep d) st₀ h st → ∀ k r, st.turnRecords.get? k = some r → r.status = .running →
      st.currentTurnRecordId = some k := by
  intro hall
  have hrow : ((afterDemo demoLeaving).turnRecords.get? "trn-10").any (·.status == .running) = true := by decide +kernel
  obtain ⟨r, hr, hrun⟩ := (Option.any_eq_true _ _).1 hrow
  have := hall demoDefinition demoFresh _ _ fresh_demo (run_demo demoLeaving) "trn-10" r hr (beq_iff_eq.1 hrun)
  exact absurd this (by decide +kernel)

end Leitwerk.Engine
