import Leitwerk.Engine.Commit
/-!
# What each operation decides

`Act` lists what a decision may do to the rows and the execution of the process:
keep the execution, leave one that is over, accept, fail, park or reschedule the
current start, or settle the current record. `Decided` is that and what the
pipeline needs of the decision's writes; every operation has one lemma here.
-/

namespace Leitwerk.Engine

variable {d : ProcessDefinition} {ctx : Context} {st : Store} {p : Process} {w v : Writes} {ids : FreshIds}

/-- Whether the current execution still runs: its start awaits acceptance, or its record runs. -/
def Store.liveExecution (st : Store) : Bool :=
  (startingExecution st).isSome || st.currentTurnRecord.any (·.status == .running)

/-- The records a decision adds for a settled action. -/
def Logs (ctx : Context) (w : Writes) : Prop :=
  ∀ x ∈ w.turnRecordWrites, ∃ r, x = .create r ∧ r.id = (ctx.fresh 1).turnRecordId ∧ r.status = .succeeded ∧
    r.errorSummary = none ∧ r.errorClass = none

/-- A decision that keeps the execution: `parks` is where it stops the process while the
execution lives, `misroutes` where it selects another turn than the one that is executed. -/
structure Keeps (st : Store) (parks misroutes : Prop) (w : Writes) : Prop where
  creates : w.creates = []
  current : (w.candidate st.process).currentExecution = st.process.currentExecution
  error : (w.candidate st.process).lifecycleStatus = .error →
    st.process.lifecycleStatus = .error ∨ st.liveExecution = false ∨ parks
  selected : (w.candidate st.process).selectedTurnId = st.process.selectedTurnId ∨
    st.process.currentExecution = none ∨ misroutes ∧ (w.candidate st.process).selectedTurnId.isSome = true

/-- The state change that takes the current start out of `starting`. -/
def supersededStart (st : Store) : List TurnStartWrite :=
  match startingExecution st with
  | some (id, resolved) => [.casState id .starting (.superseded (some resolved)) none]
  | none => []

/-- The update that takes the current record out of `running`. -/
def supersededRecord (ctx : Context) (st : Store) : List TurnRecordWrite :=
  match st.currentTurnRecord with
  | some r =>
    if r.status = .running then [.update r.id { status := some .superseded, endedAt := some (some ctx.now) }] else []
  | none => []

/-- What a decision does to the current start and its record; `replaces` is where it drops an
execution that still lives. -/
inductive Act (ctx : Context) (st : Store) (replaces parks misroutes : Prop) (completes : String → Prop) (w : Writes) : Prop
  | keeps (hc : w.casWrites = []) (hr : Logs ctx w) (hk : Keeps st parks misroutes w)
  | leaves (hc : w.casWrites = []) (hr : Logs ctx w) (hl : st.liveExecution = false ∨ replaces)
      (hx : w.creates = [] → (w.candidate st.process).currentExecution = none)
  | accepts (s : TurnStartRecord) (resolved : ResolvedTurnStart) (lease : WorkerLease) (receipt : WorkerBootstrapReceipt)
      (hs : st.currentStart = some s) (hst : s.state = .starting resolved)
      (hlife : st.process.lifecycleStatus = .active) (hsel : st.process.selectedTurnId = some s.turnId)
      (hc : w.casWrites = [.casState s.id .starting (.accepted resolved s.proposedTurnRecordId lease.id) none])
      (hr : w.turnRecordWrites = [.create (acceptedTurnRecord ctx st s resolved lease receipt)])
      (hk : w.creates = []) (hcand : ∃ m, w.candidate st.process = { st.process with metadata := m })
  | fails (id : String) (r : TurnRecord) (patch : TurnRecordPatch) (hid : st.currentTurnRecordId = some id)
      (hrow : st.turnRecords.get? id = some r) (hp : patch.status = some .failed)
      (hc : w.casWrites = []) (hr : w.turnRecordWrites = [.update id patch])
      (hk : w.creates = []) (hx : (w.candidate st.process).currentExecution = st.process.currentExecution)
      (hsel : (w.candidate st.process).selectedTurnId = st.process.selectedTurnId ∨
        (w.candidate st.process).selectedTurnId = some r.turnId ∨
        misroutes ∧ (w.candidate st.process).selectedTurnId.isSome = true)
  | failsBootstrap (s : TurnStartRecord) (resolved : ResolvedTurnStart) (lease : Option String) (code message : String)
      (hs : st.currentStart = some s) (hst : s.state = .starting resolved)
      (hc : w.casWrites = [.casState s.id .starting (.bootstrapFailed resolved lease code message) none])
      (hr : w.turnRecordWrites = []) (hk : w.creates = [])
      (hcand : w.candidate st.process = { st.process with lifecycleStatus := .error })
  | reschedules (s : TurnStartRecord) (retry : StartupRetryState)
      (hs : st.currentStart = some s) (hst : (retriedStartState s.state).isSome = true)
      (hc : w.casWrites = [.casState s.id s.state.kind s.state (some retry)])
      (hr : w.turnRecordWrites = []) (hk : w.creates = []) (hcand : w.candidate st.process = st.process)
  | succeeds (payload : TurnOutcomePayload) (hco : completes payload.turnRecordId)
      (hid : st.currentTurnRecordId = some payload.turnRecordId)
      (hc : w.casWrites = []) (hr : w.turnRecordWrites = [completionWrite ctx st payload])
      (hx : w.creates = [] → (w.candidate st.process).currentExecution = none)
  | supersedes (hc : w.casWrites = supersededStart st) (hr : w.turnRecordWrites = supersededRecord ctx st)
      (hx : w.creates = [] → (w.candidate st.process).currentExecution = none)

/-- What every decision meets. -/
structure Decided (d : ProcessDefinition) (ctx : Context) (st : Store) (exempt asked : TurnId → Prop)
    (replaces parks misroutes : Prop) (completes : String → Prop) (w : Writes) : Prop where
  pointer : Pointer exempt asked st.process w
  typed : Typed d w
  wait : WaitOk d st.process w
  tracked : Tracked st.process w
  act : Act ctx st replaces parks misroutes completes w

/-- A decision built from a builder's writes. -/
theorem bind_ok {α : Type} {x : Except Rejection α} {f : α → Decision} {decision : Decision}
    (h : (x.bind fun a => .ok (f a)) = .ok decision) : ∃ a, x = .ok a ∧ decision = f a := by
  cases x with
  | error e => cases h
  | ok a =>
    cases h
    exact ⟨a, rfl, rfl⟩

/-! ## From what a builder returns -/

section
variable {exempt : TurnId → Prop} {asked : Prop}

theorem pointer_of_routed (h : Routed d asked p w) : Pointer exempt (fun _ => asked) p w := by
  cases h with
  | kept hs hx => exact .kept (by rw [Writes.creates, hs]; rfl) hx
  | cleared hs hx => exact .cleared (by rw [Writes.llmCreates, Writes.creates, hs]; rfl) hx
  | reserved s hs hx hsel hty hst =>
    have hc : w.creates = [s] := by rw [Writes.creates, hs]; rfl
    refine .reserved s (by rw [hc]; exact List.mem_singleton_self s) ?_ hx (.inl hsel) hst
    rw [Writes.llmCreates, hc, List.filter_singleton]
    simp

theorem typed_of_routed (h : Routed d asked p w) : Typed d w := by
  left
  rw [Writes.creates]
  cases h with
  | kept hs => rw [hs]; exact Nat.zero_le 1
  | cleared hs => rw [hs]; exact Nat.zero_le 1
  | reserved s hs => rw [hs]; exact Nat.le_refl 1

theorem cas_of_routed (h : Routed d asked p w) : w.casWrites = [] := by
  rw [Writes.casWrites]
  cases h with
  | kept hs => rw [hs]; rfl
  | cleared hs => rw [hs]; rfl
  | reserved s hs => rw [hs]; rfl

end

/-- What a builder returns does not depend on the record writes beside it. -/
theorem Routed.of_patch {asked : Prop} (h : Routed d asked p w) (hp : v.processPatch = w.processPatch)
    (hs : v.turnStartWrites = w.turnStartWrites) : Routed d asked p v := by
  have hc : v.candidate p = w.candidate p := congrArg (·.apply p) hp
  cases h with
  | kept h1 h2 => exact .kept (hs.trans h1) (hc ▸ h2)
  | cleared h1 h2 => exact .cleared (hs.trans h1) (hc ▸ h2)
  | reserved s h1 h2 h3 h4 h5 h6 => exact .reserved s (hs.trans h1) (hc ▸ h2) (hc ▸ h3) h4 (hc ▸ h5) (hc ▸ h6)

theorem Pointer.mono {exempt exempt' asked asked' : TurnId → Prop} (h : Pointer exempt asked p w)
    (hex : ∀ t, exempt t → exempt' t) (ha : ∀ t, asked t → asked' t) : Pointer exempt' asked' p w := by
  cases h with
  | kept hs hx => exact .kept hs hx
  | cleared hs hx => exact .cleared hs hx
  | reserved s hs hllm hx hsel hst =>
    exact .reserved s hs hllm hx (hsel.imp_right fun h => ⟨hex _ h.1, h.2⟩) fun h1 h2 => ha _ (hst h1 h2)

theorem Pointer.of_patch {exempt asked : TurnId → Prop} (h : Pointer exempt asked p w)
    (hp : v.processPatch = w.processPatch) (hs : v.turnStartWrites = w.turnStartWrites) : Pointer exempt asked p v := by
  have hc : v.candidate p = w.candidate p := congrArg (·.apply p) hp
  have hcr : v.creates = w.creates := creates_of_starts hs
  cases h with
  | kept h0 hx => exact .kept (hcr.trans h0) (hc ▸ hx)
  | cleared h0 hx => exact .cleared ((llmCreates_of_creates hcr).trans h0) (hc ▸ hx)
  | reserved s h0 hllm hx hsel hst =>
    refine .reserved s (hcr ▸ h0) ((llmCreates_of_creates hcr).trans hllm) (hc ▸ hx) ?_ (hc ▸ hst)
    rw [hc, hcr]
    exact hsel

/-- A reserved start is never an admission. -/
theorem startAdmitted_reserved {s : TurnStartInput} (h : Reserved ids s) (hw : w.waitForAdmission = none) :
    startAdmitted p w s = false := by
  unfold startAdmitted
  rw [hw, h.iteration]
  cases p.metadata.turnWait <;> rfl

theorem waitOk_of_routes (hg : Gated d p) (h : Routes p ids w) : WaitOk d p w where
  gated x hx := by
    rcases h.wait with hw | hw
    · exact (hg x (hw.symm.trans hx)).1
    · rw [hw] at hx
      cases hx
  old hx := by
    rcases h.wait with hw | hw
    · rwa [hw] at hx
    · rw [hw] at hx
      cases hx
  admission s hs ha := by
    rw [startAdmitted_reserved (h.starts s hs) h.admission] at ha
    cases ha

/-- Writes that leave no wait, where an admitted start stops no other. -/
theorem waitOk_of_none (h : (w.candidate p).metadata.turnWait = none)
    (ha : ∀ s ∈ w.creates, startAdmitted p w s = true → ∀ r ∈ w.creates, r.begins = true →
      (w.candidate p).lifecycleStatus ≠ .error) : WaitOk d p w where
  gated x hx := by
    rw [h] at hx
    cases hx
  old hx := by
    rw [h] at hx
    cases hx
  admission s hs hadm := ⟨h, ha s hs hadm⟩

theorem waitOk_of_cleared (h : (w.candidate p).metadata.turnWait = none) (hc : w.creates = []) : WaitOk d p w :=
  waitOk_of_none h fun s hs => by rw [hc] at hs; cases hs

theorem waitOk_of_one {s : TurnStartInput} (h : (w.candidate p).metadata.turnWait = none) (hc : w.creates = [s])
    (hs : s.begins = true → (w.candidate p).lifecycleStatus ≠ .error) : WaitOk d p w :=
  waitOk_of_none h fun _ _ _ r hr => by
    rw [hc] at hr
    rw [List.mem_singleton.1 hr]
    exact hs

/-- Writes that keep the wait, where they admit nothing. -/
theorem waitOk_of_kept (hg : Gated d p) (h : (w.candidate p).metadata.turnWait = p.metadata.turnWait)
    (hc : w.creates = []) : WaitOk d p w where
  gated x hx := (hg x (h.symm.trans hx)).1
  old hx := by rwa [h] at hx
  admission s hs := by
    rw [hc] at hs
    cases hs

/-- A process with an execution waits for nothing. -/
theorem Gated.wait_none (hg : Gated d p) (hx : p.currentExecution.isSome = true) : p.metadata.turnWait = none := by
  cases hw : p.metadata.turnWait with
  | none => rfl
  | some x =>
    rw [(hg x hw).2] at hx
    cases hx

theorem creates_nil (h : w.turnStartWrites = []) : w.creates = [] := by
  rw [Writes.creates, h]
  rfl

/-- A start a plan leaves ready in a process it stops is of the automatic turn it selects. -/
theorem Planned.pointer {exempt : TurnId → Prop} {plan : ProcessPlan} (h : Planned d p ids plan w) :
    Pointer exempt (plan.Asks d p) p w := by
  have hpt : Pointer exempt (fun _ => plan.lifecycleStatus d p = .error) p w := pointer_of_routed h.routed
  have hreserved : ∀ s ∈ w.creates, d.workerTurnType s.turnId = some s.turnType ∧
      (s.turnType = .llm → s.begins = false) ∧ (w.candidate p).selectedTurnId = some s.turnId ∧
      plan.replacesExecution d p = true := by
    intro s hs
    cases h.routed with
    | kept h0 => rw [creates_nil h0] at hs; cases hs
    | cleared h0 => rw [creates_nil h0] at hs; cases hs
    | reserved r h0 hx hsel hty hst hllm =>
      rw [Writes.creates, h0] at hs
      obtain rfl := List.mem_singleton.1 hs
      refine ⟨hty, fun hl => (hllm hl).1, hsel, ?_⟩
      by_contra hr
      rw [Bool.not_eq_true] at hr
      rw [(h.kept hr).1] at h0
      cases h0
  cases hpt with
  | kept hs hx => exact .kept hs hx
  | cleared hs hx => exact .cleared hs hx
  | reserved s hs hllm hx hsel hst =>
    refine .reserved s hs hllm hx hsel fun hb he => ?_
    obtain ⟨hty, hno, hturn, hrep⟩ := hreserved s hs
    refine ⟨hst hb he, hrep, h.selected.symm.trans hturn, ?_⟩
    cases ht : s.turnType with
    | automatic => exact hty.trans (congrArg some ht)
    | llm => rw [hno ht] at hb; cases hb

theorem logs_nil (h : w.turnRecordWrites = []) : Logs ctx w := by
  intro x hx
  rw [h] at hx
  cases hx

/-! ## Deciding nothing -/

section
variable {exempt asked : TurnId → Prop} {replaces parks misroutes : Prop} {completes : String → Prop}

/-- Writes that move nothing. -/
theorem decided_still (hg : Gated d st.process) (hm : SameMove {} w) (ht : Tracked st.process w) :
    Decided d ctx st exempt asked replaces parks misroutes completes w where
  pointer := .kept hm.creates (hm.current _)
  typed := .inl (by rw [hm.creates]; exact Nat.zero_le 1)
  wait := waitOk_of_kept hg (congrArg _ (hm.metadata _)) hm.creates
  tracked := ht
  act := .keeps (by rw [Writes.casWrites, hm.starts]; rfl) (logs_nil hm.records)
    ⟨hm.creates, hm.current _, fun h => .inl ((hm.lifecycle _).symm.trans h), .inl (hm.selected _)⟩

theorem decided_nothing (hg : Gated d st.process) : Decided d ctx st exempt asked replaces parks misroutes completes {} :=
  decided_still hg .refl (tracked_empty _ rfl rfl)

theorem Decided.mono {exempt' asked' : TurnId → Prop} {replaces' parks' misroutes' : Prop} {completes' : String → Prop}
    (h : Decided d ctx st exempt asked replaces parks misroutes completes w) (hex : ∀ t, exempt t → exempt' t)
    (ha : ∀ t, asked t → asked' t) (hr : replaces → replaces') (hp : parks → parks') (hmr : misroutes → misroutes')
    (hco : ∀ id, completes id → completes' id) :
    Decided d ctx st exempt' asked' replaces' parks' misroutes' completes' w where
  pointer := h.pointer.mono hex ha
  typed := h.typed
  wait := h.wait
  tracked := h.tracked
  act := by
    cases h.act with
    | keeps hc hl hk =>
      exact .keeps hc hl ⟨hk.creates, hk.current, fun he => (hk.error he).imp_right fun h => h.imp_right hp,
        hk.selected.imp_right fun h => h.imp_right fun h => ⟨hmr h.1, h.2⟩⟩
    | leaves hc hl hlive hx => exact .leaves hc hl (hlive.imp_right hr) hx
    | accepts s resolved lease receipt hs hst hlife hsel hc hrec hk hcand =>
      exact .accepts s resolved lease receipt hs hst hlife hsel hc hrec hk hcand
    | fails id r patch hid hrow hpatch hc hrec hk hx hsel =>
      exact .fails id r patch hid hrow hpatch hc hrec hk hx (hsel.imp_right fun h => h.imp_right fun h => ⟨hmr h.1, h.2⟩)
    | failsBootstrap s resolved lease code message hs hst hc hrec hk hcand =>
      exact .failsBootstrap s resolved lease code message hs hst hc hrec hk hcand
    | reschedules s retry hs hst hc hrec hk hcand => exact .reschedules s retry hs hst hc hrec hk hcand
    | succeeds payload hid' hid hc hrec hx => exact .succeeds payload (hco _ hid') hid hc hrec hx
    | supersedes hc hrec hx => exact .supersedes hc hrec hx
end

section
variable {exempt asked : TurnId → Prop} {replaces parks misroutes : Prop} {completes : String → Prop}

/-- Writes that only set the lifecycle status. -/
theorem decided_status (hg : Gated d st.process) (status : LifecycleStatus)
    (hs : status = .error → st.process.lifecycleStatus = .error ∨ st.liveExecution = false ∨ parks)
    (intent : Option WorkerIntent) :
    Decided d ctx st exempt asked replaces parks misroutes completes
      (applyProcessPatchField { workerIntent := intent } st.process .lifecycleStatus status) := by
  have hstarts : (applyProcessPatchField { workerIntent := intent } st.process .lifecycleStatus status).turnStartWrites = [] :=
    turnStartWrites_apply _ _ _ _
  have hc := creates_nil hstarts
  have hx : ((applyProcessPatchField { workerIntent := intent } st.process .lifecycleStatus status).candidate
      st.process).currentExecution = st.process.currentExecution := currentExecution_applyLifecycle _
  refine ⟨.kept hc hx, .inl (by rw [hc]; exact Nat.zero_le 1), waitOk_of_kept hg ?_ hc,
    (tracked_empty _ rfl rfl).apply _, .keeps ?_ (logs_nil (turnRecordWrites_apply _ _ _ _)) ⟨hc, hx, fun he => hs ?_, .inl ?_⟩⟩
  · exact congrArg _ (metadata_applyLifecycle _)
  · rw [Writes.casWrites, hstarts]
    rfl
  · exact (get_apply (f := Field.lifecycleStatus) (w := { workerIntent := intent }) (p := st.process) rfl status).symm.trans he
  · exact selectedTurnId_applyLifecycle _
end

/-! ## Deciding on a turn -/

section
variable {exempt : TurnId → Prop} {input : TurnSelectionWritesInput} {completes : String → Prop}

theorem Selects.current_of_no_creates {q : Process} (h : Selects d q ids input w)
    (hr : input.replacesExecution d q = true) (hc : w.creates = []) : (w.candidate q).currentExecution = none := by
  rcases h.replaces hr with ⟨-, hx⟩ | ⟨s, hs, -⟩
  · exact hx
  · rw [Writes.creates, hs] at hc
    cases hc

/-- The lifecycle status of a selection that keeps the execution. -/
theorem Selects.lifecycle_of_kept {q : Process} (h : Selects d q ids input w) (hr : input.replacesExecution d q = false) :
    (w.candidate q).lifecycleStatus = input.targetLifecycleStatus d q := by
  rcases h.lifecycle with ⟨-, hl⟩ | ⟨s, hs, -⟩
  · rw [hl]
    split
    · rename_i he
      exact he.symm
    · rfl
  · rw [(h.keeps hr).1] at hs
    cases hs

theorem decided_selection (hg : Gated d st.process) (h : Selects d st.process ids input w) (hm : SameMove w v)
    (ht : Tracked st.process v) :
    Decided d ctx st exempt (fun _ => False) (input.replacesExecution d st.process = true)
      (input.targetLifecycleStatus d st.process = .error)
      (input.replacesExecution d st.process = false ∧ input.toTurnId ≠ st.process.selectedTurnId ∧
        st.process.currentExecution.isSome = true) completes v := by
  have hroutes : Routes st.process ids v := h.routes.of_sameMove hm ht
  have hrouted : Routed d False st.process v := h.routed.of_sameMove hm
  refine ⟨pointer_of_routed hrouted, typed_of_routed hrouted, waitOk_of_routes hg hroutes, ht, ?_⟩
  cases hr : input.replacesExecution d st.process with
  | true =>
    refine .leaves (cas_of_routed hrouted) (logs_nil hroutes.records) (.inr rfl) fun hc => ?_
    rw [hm.current]
    exact h.current_of_no_creates hr (hm.creates ▸ hc)
  | false =>
    obtain ⟨hs, hx⟩ := h.keeps hr
    refine .keeps (cas_of_routed hrouted) (logs_nil hroutes.records)
      ⟨creates_nil (hm.starts.trans hs), (hm.current _).trans hx, fun he => .inr (.inr ?_), ?_⟩
    · rw [hm.lifecycle, h.lifecycle_of_kept hr] at he
      exact he
    · rw [hm.selected, h.selected]
      by_cases hsel : input.toTurnId = st.process.selectedTurnId
      · exact .inl hsel
      · cases hcur : st.process.currentExecution with
        | none => exact .inr (.inl rfl)
        | some id =>
          refine .inr (.inr ⟨⟨rfl, hsel, rfl⟩, ?_⟩)
          cases hto : input.toTurnId with
          | none => rw [TurnSelectionWritesInput.replacesExecution, hto] at hr; cases hr
          | some turnId => rfl

theorem sameMove_projects (w : Writes) (projects : Option Json) : SameMove w { w with projects } :=
  ⟨fun _ => rfl, fun _ => rfl, fun _ => rfl, fun _ => rfl, rfl, rfl, rfl⟩

/-- The status of a selection that names none is never `error`. -/
theorem target_ne_error (hl : input.lifecycleStatus = none) {turnId : TurnId} (hto : input.toTurnId = some turnId) :
    input.targetLifecycleStatus d p ≠ .error := by
  unfold TurnSelectionWritesInput.targetLifecycleStatus deriveLifecycleStatusForSelectedTurn
  rw [hl, hto, Option.getD_none]
  dsimp only
  cases d.turns turnId with
  | none => nofun
  | some turn =>
    dsimp only
    cases turn.turnType <;> nofun

/-- A selection by the graph that names no status moves the execution, but for an undeclared turn
that is selected already or entered at once. -/
theorem kept_of_derived (hcheck : checkTurnSelection d p input = .ok ()) (hl : input.lifecycleStatus = none) {turnId : TurnId}
    (hto : input.toTurnId = some turnId) (hr : input.replacesExecution d p = false) :
    input.toTurnId = p.selectedTurnId ∨ p.selectedTurnId = none := by
  by_cases hd : (d.turns turnId).isSome = true
  · rw [replaces_of_derived hto hl hd] at hr
    cases hr
  · unfold checkTurnSelection at hcheck
    simp only [hto] at hcheck
    split at hcheck
    · cases hcheck
    split at hcheck
    · cases hcheck
    split at hcheck
    · rename_i hsame
      exact .inl (hto.trans hsame)
    · cases hs : p.selectedTurnId with
      | none => exact .inr rfl
      | some current =>
        rw [hs] at hcheck
        unfold tryTransition at hcheck
        dsimp only at hcheck
        split at hcheck
        · cases hcheck
        split at hcheck
        · cases hcheck
        · rename_i hne
          rw [Option.isNone_iff_eq_none, ← ne_eq, ← Option.isSome_iff_ne_none] at hne
          exact absurd hne hd
end

/-! ## Executions that are over -/

theorem liveExecution_none (h : st.process.currentExecution = none) : st.liveExecution = false := by
  have hcur : st.currentStart = none := by rw [Store.currentStart, h]; rfl
  unfold Store.liveExecution startingExecution Store.currentTurnRecord Store.currentTurnRecordId
  rw [hcur]
  rfl

theorem Act.of_not_live {replaces replaces' parks misroutes : Prop} {completes : String → Prop} (h : Act ctx st replaces parks misroutes completes w)
    (hl : replaces → st.liveExecution = false ∨ replaces') : Act ctx st replaces' parks misroutes completes w := by
  cases h with
  | leaves hc hr hlive hx => exact .leaves hc hr (hlive.elim .inl hl) hx
  | keeps hc hl hk => exact .keeps hc hl hk
  | accepts s resolved lease receipt hs hst hlife hsel hc hrec hk hcand =>
    exact .accepts s resolved lease receipt hs hst hlife hsel hc hrec hk hcand
  | fails id r patch hid hrow hpatch hc hrec hk hx hsel => exact .fails id r patch hid hrow hpatch hc hrec hk hx hsel
  | failsBootstrap s resolved lease code message hs hst hc hrec hk hcand =>
    exact .failsBootstrap s resolved lease code message hs hst hc hrec hk hcand
  | reschedules s retry hs hst hc hrec hk hcand => exact .reschedules s retry hs hst hc hrec hk hcand
  | succeeds payload hid' hid hc hrec hx => exact .succeeds payload hid' hid hc hrec hx
  | supersedes hc hrec hx => exact .supersedes hc hrec hx

theorem Decided.of_not_live {exempt asked : TurnId → Prop} {replaces replaces' parks misroutes : Prop} {completes : String → Prop}
    (h : Decided d ctx st exempt asked replaces parks misroutes completes w)
    (hl : replaces → st.liveExecution = false ∨ replaces') :
    Decided d ctx st exempt asked replaces' parks misroutes completes w :=
  ⟨h.pointer, h.typed, h.wait, h.tracked, h.act.of_not_live hl⟩

/-- A process with an execution has its turn selected. -/
def Store.Selected (st : Store) : Prop := st.process.currentExecution.isSome = true → st.process.selectedTurnId.isSome = true

end Leitwerk.Engine
