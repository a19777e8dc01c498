import Leitwerk.Engine.LastWriter
import Leitwerk.Engine.StablePreparation
/-!
# The model a recovery starts with

A recovery first patches the model of the failed record into the process and
`record` then the selection the policy resolves, against the same process. The
started turn carries the resolved profile as long as no column has to go back to
the process's own value.
-/

namespace Leitwerk.Engine

open Results (ok_of_bind)

variable {d : ProcessDefinition} {ctx : Context} {p : Process} {w : Writes} {failed : TurnRecord}

/-! ## The process a recovery resolves a model for -/

/-- The provenance a recovery reads off the failed record. -/
def recoveredProvenance (failed : TurnRecord) : ModelSelectionProvenance :=
  failed.modelSelectionProvenance.getD ⟨.inherited, .legacyPersisted⟩

/-- The process with the failed turn selected and, when its record had a model, that model. -/
def recoveredProcess (p : Process) (failed : TurnRecord) : Process :=
  let p := { p with selectedTurnId := some failed.turnId }
  if failed.modelProfileId.isSome then
    { p with
      selectedTurnModelProfileId := failed.modelProfileId
      selectedTurnModelKind := some (recoveredProvenance failed).kind
      selectedTurnModelSource := some (recoveredProvenance failed).source }
  else p

/-- What the policy makes of the recovered turn with an operator's override. -/
def recoveryEvaluation (d : ProcessDefinition) (policy : ModelPolicy) (a : ModelStatusCacheSnapshot) (p : Process)
    (failed : TurnRecord) (startKind : TurnStartKind) (input : DecisionMetadata) : PolicyEvaluation :=
  evaluateTurn d policy (recoveredProcess p failed) failed.turnId (some startKind) false input.nextTurnModelProfileId a

/-- Two processes that agree on all the policy reads of them. -/
structure SameModel (p q : Process) : Prop where
  turn : q.selectedTurnId = p.selectedTurnId
  profile : q.selectedTurnModelProfileId = p.selectedTurnModelProfileId
  kind : q.selectedTurnModelKind = p.selectedTurnModelKind
  source : q.selectedTurnModelSource = p.selectedTurnModelSource

theorem SameModel.trans {p q r : Process} (h : SameModel p q) (h' : SameModel q r) : SameModel p r :=
  ⟨h'.turn.trans h.turn, h'.profile.trans h.profile, h'.kind.trans h.kind, h'.source.trans h.source⟩

theorem SameModel.symm {p q : Process} (h : SameModel p q) : SameModel q p :=
  ⟨h.turn.symm, h.profile.symm, h.kind.symm, h.source.symm⟩

theorem SameModel.existing {p q : Process} (h : SameModel p q) :
    existingTurnSelectionFromProcess q = existingTurnSelectionFromProcess p := by
  unfold existingTurnSelectionFromProcess
  rw [h.turn, h.profile, h.kind, h.source]

/-! ## What the writes do to the model columns -/

/-- A field that none of the model columns and not the selected turn reads. -/
structure Field.Apart {α : Type} (f : Field α) : Prop where
  same : ∀ v p, SameModel p (f.set v p)

theorem sameModel_apply {α : Type} {f : Field α} (hf : f.Apart) (w : Writes) (p q : Process) (x : α) :
    SameModel (w.candidate p) ((applyProcessPatchField w q f x).candidate p) := by
  unfold applyProcessPatchField
  split
  · exact ⟨rfl, rfl, rfl, rfl⟩
  · rw [candidate_put]
    exact hf.same _ _

theorem apart_metadata : Field.metadata.Apart := ⟨fun _ _ => ⟨rfl, rfl, rfl, rfl⟩⟩
theorem apart_lifecycle : Field.lifecycleStatus.Apart := ⟨fun _ _ => ⟨rfl, rfl, rfl, rfl⟩⟩
theorem apart_current : Field.currentExecution.Apart := ⟨fun _ _ => ⟨rfl, rfl, rfl, rfl⟩⟩

/-- The three model columns, patched one after the other. -/
def patchModel (w : Writes) (p : Process) (profile : Option String) (kind : Option ModelSelectionKind)
    (source : Option ModelSelectionSource) : Writes :=
  applyProcessPatchField (applyProcessPatchField (applyProcessPatchField w p .selectedTurnModelProfileId profile)
    p .selectedTurnModelKind kind) p .selectedTurnModelSource source

/-- The process has the given selected turn and model columns. -/
structure HasModel (q : Process) (turnId : Option TurnId) (profile : Option String) (kind : Option ModelSelectionKind)
    (source : Option ModelSelectionSource) : Prop where
  turn : q.selectedTurnId = turnId
  profile : q.selectedTurnModelProfileId = profile
  kind : q.selectedTurnModelKind = kind
  source : q.selectedTurnModelSource = source

section
variable {profile profile' : Option String} {kind kind' : Option ModelSelectionKind} {source source' : Option ModelSelectionSource}
  {turnId : Option TurnId}

theorem HasModel.same {q r : Process} (h : HasModel q turnId profile kind source) (h' : HasModel r turnId profile kind source) :
    SameModel q r :=
  ⟨h'.turn.trans h.turn.symm, h'.profile.trans h.profile.symm, h'.kind.trans h.kind.symm, h'.source.trans h.source.symm⟩

/-- A patched column holds the value asked for unless that is the process's own and another was
there before. -/
theorem column_patched {α : Type} {f : Field α} {v x : α} (hv : f.get (w.candidate p) = v) (h : x = f.get p → v = x) :
    f.get ((applyProcessPatchField w p f x).candidate p) = x := by
  rcases get_apply_or (w := w) (p := p) (q := p) (f := f) x with hx | ⟨hx, hw⟩
  · exact hx
  · rw [hw, hv]
    exact h hx

theorem hasModel_patch (profile : Option String) (kind : Option ModelSelectionKind) (source : Option ModelSelectionSource)
    (h : HasModel (w.candidate p) turnId profile' kind' source')
    (hp : profile = p.selectedTurnModelProfileId → profile' = profile)
    (hk : kind = p.selectedTurnModelKind → kind' = kind) (hs : source = p.selectedTurnModelSource → source' = source) :
    HasModel ((patchModel w p profile kind source).candidate p) turnId profile kind source := by
  unfold patchModel
  refine ⟨?_, ?_, ?_, ?_⟩
  · rw [apply_other (·.selectedTurnId) (fun _ _ => rfl), apply_other (·.selectedTurnId) (fun _ _ => rfl),
      apply_other (·.selectedTurnId) (fun _ _ => rfl)]
    exact h.turn
  · rw [apply_other (·.selectedTurnModelProfileId) (fun _ _ => rfl), apply_other (·.selectedTurnModelProfileId) (fun _ _ => rfl)]
    exact column_patched (f := Field.selectedTurnModelProfileId) h.profile hp
  · rw [apply_other (·.selectedTurnModelKind) (fun _ _ => rfl)]
    refine column_patched (f := Field.selectedTurnModelKind) ?_ hk
    exact (apply_other (·.selectedTurnModelKind) (fun _ _ => rfl) _).trans h.kind
  · refine column_patched (f := Field.selectedTurnModelSource) ?_ hs
    refine (apply_other (·.selectedTurnModelSource) (fun _ _ => rfl) _).trans ?_
    exact (apply_other (·.selectedTurnModelSource) (fun _ _ => rfl) _).trans h.source
end

/-- Selecting a turn and reserving its execution leave the model columns. -/
theorem hasModel_select {u : Writes} (hu : u.candidate p = p) (turnId : TurnId) (id : String) :
    HasModel ((applyProcessPatchField (applyProcessPatchField (applyProcessPatchField u p .selectedTurnId (some turnId))
        p .lifecycleStatus .active) p .currentExecution (some id)).candidate p)
      (some turnId) p.selectedTurnModelProfileId p.selectedTurnModelKind p.selectedTurnModelSource := by
  have hlater := (sameModel_apply apart_lifecycle (applyProcessPatchField u p .selectedTurnId (some turnId)) p p .active).trans
    (sameModel_apply apart_current _ p p (some id))
  refine ⟨hlater.turn.trans (get_apply (f := Field.selectedTurnId) (by rw [hu]) _), hlater.profile.trans ?_,
    hlater.kind.trans ?_, hlater.source.trans ?_⟩
  · rw [apply_other (·.selectedTurnModelProfileId) (fun _ _ => rfl), hu]
  · rw [apply_other (·.selectedTurnModelKind) (fun _ _ => rfl), hu]
  · rw [apply_other (·.selectedTurnModelSource) (fun _ _ => rfl), hu]

theorem sameModel_recovery (p : Process) (failed : TurnRecord) (acceptedStart : TurnStartRecord) (recovery : Recovery)
    (ids : FreshIds) :
    SameModel (recoveredProcess p failed) ((buildRecoveryStartWrites p failed acceptedStart recovery ids).candidate p) := by
  have hselect := hasModel_select (p := p)
    (u := { turnStartWrites := [.create (recoveryStart failed acceptedStart recovery ids)], workerIntent := some .restartWorker })
    rfl failed.turnId ids.startId
  unfold buildRecoveryStartWrites recoveredProcess
  dsimp only
  split
  · have hpatched := hasModel_patch failed.modelProfileId (some (recoveredProvenance failed).kind)
      (some (recoveredProvenance failed).source) hselect Eq.symm Eq.symm Eq.symm
    exact HasModel.same ⟨rfl, rfl, rfl, rfl⟩ hpatched
  · exact HasModel.same ⟨rfl, rfl, rfl, rfl⟩ hselect

/-! ## The decision of a recovery -/

/-- The kind of start a recovery operation creates, with the operator's input. -/
def Op.recovery? : Op → Option (TurnStartKind × DecisionMetadata)
  | .retryFailedTurn input => some (.retry, input)
  | .continueFailedTurn _ _ input => some (.continue, input)
  | _ => none

/-- What a recovery decides: one start of the failed turn, on the process with the failed model. -/
structure RecoveryDecision (d : ProcessDefinition) (st : Store) (failed : TurnRecord) (kind : TurnStartKind)
    (input : DecisionMetadata) (s : TurnStartInput) (decision : Decision) : Prop where
  record : st.currentTurnRecord = some failed
  recovers : Recovers st.process failed.turnId s decision.writes
  startKind : s.startKind = kind
  recovery : kind = .retry ∨ kind = .continue
  llm : d.llmTurn failed.turnId = true → s.turnType = .llm
  state : s.turnType = .llm → ∃ f, s.state = .preparationFailed f ∧ f.code = .modelRequired
  model : SameModel (recoveredProcess st.process failed) (decision.writes.candidate st.process)
  override : decision.metadata.bind (·.nextTurnModelProfileId) = input.nextTurnModelProfileId

theorem override_of_metadata (input : DecisionMetadata) :
    (modelOverrideMetadata input).bind (·.nextTurnModelProfileId) = input.nextTurnModelProfileId := by
  unfold modelOverrideMetadata
  split
  · rename_i h
    exact (Option.isNone_iff_eq_none.1 h.1).symm
  · rfl

theorem workerTurnType_llm {turnId : TurnId} {turnType : WorkerTurnType} (h : d.workerTurnType turnId = some turnType)
    (hl : d.llmTurn turnId = true) : turnType = .llm := by
  unfold ProcessDefinition.workerTurnType at h
  unfold ProcessDefinition.llmTurn at hl
  cases ht : d.turns turnId with
  | none => simp [ht] at hl
  | some turn =>
    simp only [ht, Option.map_some, beq_iff_eq, Option.some.injEq] at hl
    simpa [ht, hl, workerTurnType?] using h.symm

theorem recoveryStart_state (failed : TurnRecord) (acceptedStart : TurnStartRecord) (recovery : Recovery) (ids : FreshIds)
    (h : (recoveryStart failed acceptedStart recovery ids).turnType = .llm) :
    ∃ f, (recoveryStart failed acceptedStart recovery ids).state = .preparationFailed f ∧ f.code = .modelRequired := by
  have hty : recovery.turnType = .llm := h
  unfold recoveryStart
  rw [hty]
  exact ⟨_, rfl, rfl⟩

theorem sameModel_update (w : Writes) (update : Metadata → Metadata) :
    SameModel (w.candidate p) ((updateProcessMetadata w p update).candidate p) := sameModel_apply apart_metadata _ _ _ _

theorem buildRetryWrites_recovery {acceptedStart : TurnStartRecord} {ids : FreshIds}
    (h : buildRetryWrites d p failed acceptedStart ids = .ok w) :
    ∃ turnType, d.workerTurnType failed.turnId = some turnType ∧
      Recovers p failed.turnId (recoveryStart failed acceptedStart { startKind := .retry, turnType } ids) w ∧
      SameModel (recoveredProcess p failed) (w.candidate p) := by
  unfold buildRetryWrites at h
  split at h
  · cases h
  · rename_i turnType hty
    cases h
    exact ⟨turnType, hty, recovers_update p failed acceptedStart _ ids _ fun _ => rfl,
      (sameModel_recovery p failed acceptedStart _ ids).trans (sameModel_update _ _)⟩

theorem buildContinueFailedTurnWrites_recovery {acceptedStart : TurnStartRecord} {continuation : TurnStartContinuation}
    {ids : FreshIds} (h : buildContinueFailedTurnWrites d p failed acceptedStart continuation ids = .ok w) :
    Recovers p failed.turnId (recoveryStart failed acceptedStart
        { startKind := .continue, turnType := .llm, continuation := some continuation } ids) w ∧
      SameModel (recoveredProcess p failed) (w.candidate p) := by
  unfold buildContinueFailedTurnWrites at h
  split at h
  · cases h
    exact ⟨recovers_update p failed acceptedStart _ ids _ fun _ => rfl,
      (sameModel_recovery p failed acceptedStart _ ids).trans (sameModel_update _ _)⟩
  · cases h

theorem recovery_decision {op : Op} {kind : TurnStartKind} {input : DecisionMetadata} {st : Store} {decision : Decision}
    (hop : op.recovery? = some (kind, input)) (h : op.decide d ctx st = .ok decision) :
    ∃ failed s, s.id = (ctx.fresh 0).startId ∧ RecoveryDecision d st failed kind input s decision := by
  cases op with
  | retryFailedTurn given =>
    cases hop
    replace h : decideRetryFailedTurn d ctx st input = .ok decision := h
    unfold decideRetryFailedTurn at h
    split at h
    · rename_i currentStart failed hs hr
      split at h
      · cases h
      split at h
      · cases h
      obtain ⟨writes, hb, rfl⟩ := bind_ok h
      obtain ⟨turnType, hty, hrec, hmodel⟩ := buildRetryWrites_recovery hb
      exact ⟨failed, _, rfl, hr, hrec, rfl, .inl rfl, workerTurnType_llm hty, recoveryStart_state _ _ _ _, hmodel,
        override_of_metadata input⟩
    · cases h
  | continueFailedTurn turnRecordId prompt given =>
    cases hop
    replace h : decideContinueFailedTurn d ctx st turnRecordId prompt input = .ok decision := h
    unfold decideContinueFailedTurn at h
    split at h
    · cases h
    split at h
    · cases h
    split at h
    · rename_i acceptedStart failed hs hr
      split at h
      · cases h
      split at h
      · cases h
      split at h
      · split at h
        · cases h
        obtain ⟨writes, hb, rfl⟩ := bind_ok h
        obtain ⟨hrec, hmodel⟩ := buildContinueFailedTurnWrites_recovery hb
        exact ⟨failed, _, rfl, hr, hrec, rfl, .inr rfl, fun _ => rfl, recoveryStart_state _ _ _ _, hmodel,
          override_of_metadata input⟩
      · cases h
      · cases h
    · cases h
  | _ => cases hop

/-! ## From the decision to model preparation -/

/-- The one start is still created, on the process with the failed model, or it was put off. -/
def Carried (p recovered : Process) (s : TurnStartInput) (w : Writes) : Prop :=
  w.turnStartWrites = [.create s] ∧ SameModel recovered (w.candidate p) ∧ (w.candidate p).metadata.turnWait = none ∨
    w.creates = []

section
variable {recovered : Process} {s : TurnStartInput}

theorem creates_one (h : w.turnStartWrites = [.create s]) : w.creates = [s] := by
  unfold Writes.creates
  rw [h]
  rfl

theorem Carried.defer (h : Carried p recovered s w) (metadata : Option DecisionMetadata) (waitId : String) :
    Carried p recovered s (deferTurnWaitStarts d p metadata waitId w) := by
  rcases h with ⟨hs, hm, hw⟩ | h0
  · rcases deferral_cases d p metadata waitId w with ⟨hv, -⟩ | ⟨hv, -⟩ | ⟨start, hf, -, -, -, hv⟩ <;> rw [hv]
    · left
      have hdrop : dropStaleTurnWait p w = w := by
        unfold dropStaleTurnWait
        dsimp only
        rw [hw]
      rw [hdrop]
      exact ⟨hs, hm, hw⟩
    · exact .inl ⟨hs, hm, hw⟩
    · right
      rw [creates_deferStart]
      rw [creates_one hs] at hf ⊢
      have hone := List.find?_some hf
      cases (List.mem_singleton.1 (List.mem_of_find?_eq_some hf))
      rw [List.eraseP_cons_of_pos (by simpa using hone)]
  · exact .inr (List.sublist_nil.1 (h0 ▸ (deferKeeps d p metadata waitId w).creates))

theorem Carried.mappedEntry_none (h : Carried p recovered s w) (hk : s.startKind ≠ .selectedTurn) :
    mappedEntry d (w.candidate p) w = none := by
  unfold mappedEntry
  rcases h with ⟨hs, -, -⟩ | h0
  · rw [creates_one hs, List.find?_cons_of_neg (by simp [entersTurn, hk])]
    rfl
  · rw [h0]
    rfl

theorem planMappedEntries_none {active : Option MappedRun} {left : Nat} {b : Bool}
    (h : mappedEntry d ((deferTurnWaitStarts d p none ctx.waitId w).candidate p) (deferTurnWaitStarts d p none ctx.waitId w) = none) :
    planMappedEntries d ctx p active left b w = .ok (leaveActiveRun ((deferTurnWaitStarts d p none ctx.waitId w).candidate p)
      active b (deferTurnWaitStarts d p none ctx.waitId w)) := by
  cases left <;> unfold planMappedEntries <;> dsimp only <;> rw [h]

theorem Carried.leave (h : Carried p recovered s w) (q : Process) (active : Option MappedRun) (b : Bool) :
    Carried p recovered s (leaveActiveRun q active b w) := by
  unfold leaveActiveRun
  split
  · dsimp only
    split
    · exact h
    · exact h
  · exact h
end

/-! ## The profile a start carries -/

/-- The model profile of a start: that it was resolved to, or that it asks for. -/
def StartState.profile : StartState → Option String
  | .preparationFailed failure => failure.requestedModelProfileId
  | .starting (.llm start) => some start.model.profileId
  | .bootstrapFailed (.llm start) .. => some start.model.profileId
  | .accepted (.llm start) .. => some start.model.profileId
  | _ => none

section
variable {policy : ModelPolicy} {env : PreflightEnvironment} {a : ModelStatusCacheSnapshot} {next : Process}
  {s : TurnStartInput} {selection : ModelSelection} {prepared : PreparedStart}

/-- The verdict leaves the start with the profile, whether it prepares or parks it. -/
def PreflightVerdict.Keeps (profileId : String) : PreflightVerdict → Prop
  | .parkFailure failure _ => failure.requestedModelProfileId = some profileId
  | .prepared start _ => start.model.profileId = profileId
  | .reject _ => True

theorem keeps_prepared {verdict : PreflightVerdict} {profileId : String} (hk : verdict.Keeps profileId)
    (h : prepareStart verdict s = .ok prepared) :
    prepared.start.id = s.id ∧ prepared.start.state.toState.profile = some profileId := by
  cases verdict with
  | parkFailure failure selection =>
    cases h
    exact ⟨rfl, hk⟩
  | prepared start selection =>
    cases h
    exact ⟨rfl, congrArg some hk⟩
  | reject why => cases h

theorem prepareWithProfile_keeps (env : PreflightEnvironment) (a : ModelStatusCacheSnapshot) (next : Process) (s : TurnStartInput) (model : ResolvedModel) (contract : Option Json)
    (selected : Option ModelSelection) : (prepareWithProfile env a next s model contract selected).Keeps model.profileId := by
  unfold prepareWithProfile
  dsimp only
  split
  · trivial
  · rfl
  · split <;> rfl

theorem prepareSelected_keeps (hp : trimToNull next.selectedTurnModelProfileId = some selection.modelProfileId)
    (hs : ∃ f, s.state = .preparationFailed f ∧ f.code = .modelRequired) (contract : Option Json)
    (selected : Option ModelSelection) : (prepareSelected env a next s contract selected).Keeps selection.modelProfileId := by
  obtain ⟨f, hf, hcode⟩ := hs
  unfold prepareSelected
  dsimp only
  rw [hp, hf]
  split
  · rfl
  · dsimp only
    rw [if_neg (by rw [hcode]; decide)]
    unfold prepareSelected.prepareRequested
    dsimp only
    split
    · trivial
    · rename_i model _
      exact prepareWithProfile_keeps env a next s { model with profileId := selection.modelProfileId } contract selected

theorem HasModel.existing {q : Process} {turnId : TurnId} (h : HasModel q (some turnId) (some selection.modelProfileId)
      (some selection.provenance.kind) (some selection.provenance.source)) (hw : selection.Wellformed) :
    existingTurnSelectionFromProcess q = .selected turnId selection := by
  unfold existingTurnSelectionFromProcess
  rw [h.turn, h.profile, h.kind, h.source, hw.profile]
  simp [hw.kind]
  rw [← hw.kind]

/-- Preflight of a start whose process holds the resolved selection keeps its profile. -/
theorem preflight_keeps {keeps : Bool} {existing : ExistingTurnSelection} {override : ModelOverride}
    (hsel : (resolveTurn d policy s.turnId keeps existing override a).selection = some selection) (hw : selection.Wellformed)
    (hn : HasModel next (some s.turnId) (some selection.modelProfileId) (some selection.provenance.kind)
      (some selection.provenance.source))
    (hk : s.startKind = .retry ∨ s.startKind = .continue)
    (hs : ∃ f, s.state = .preparationFailed f ∧ f.code = .modelRequired) :
    (prepareCreatedTurnStart d policy env a next s).Keeps selection.modelProfileId := by
  have heval : evaluateTurn d policy next s.turnId (some s.startKind) true none a =
      validateSelection d policy (some selection) a := by
    unfold evaluateTurn
    rw [hn.existing hw]
    have hkeeps : keepsPinned (some s.startKind) true = true := by
      rcases hk with hk | hk <;> rw [hk] <;> rfl
    rw [hkeeps]
    exact resolveTurn_again hsel
  unfold prepareCreatedTurnStart
  split
  · trivial
  · rename_i contract _
    dsimp only
    rw [heval, validateSelection_selection]
    split
    · rfl
    · refine prepareSelected_keeps ?_ hs contract _
      show trimToNull (some selection.modelProfileId) = _
      exact hw.profile
end

/-! ## What the recorder commits of a recovery -/

/-- No model column goes from another value back to the process's own. -/
structure NoColumnReverts (p : Process) (failed : TurnRecord) (selection : ModelSelection) : Prop where
  profile : some selection.modelProfileId = p.selectedTurnModelProfileId →
    (recoveredProcess p failed).selectedTurnModelProfileId = some selection.modelProfileId
  kind : some selection.provenance.kind = p.selectedTurnModelKind →
    (recoveredProcess p failed).selectedTurnModelKind = some selection.provenance.kind
  source : some selection.provenance.source = p.selectedTurnModelSource →
    (recoveredProcess p failed).selectedTurnModelSource = some selection.provenance.source

/-- An engine with a policy and the preflight of `turn-start-preflight.ts`. -/
def PreflightEnvironment.models (env : PreflightEnvironment) (d : ProcessDefinition) (policy : ModelPolicy) : ModelEnvironment where
  policy := policy
  preflight := some (prepareCreatedTurnStart d policy env)

section
variable {policy : ModelPolicy} {env : PreflightEnvironment} {a : ModelStatusCacheSnapshot} {st st' : Store}
  {s : TurnStartInput} {selection : ModelSelection} {kind : TurnStartKind} {input : DecisionMetadata} {decision : Decision}

theorem hasModel_recovered (p : Process) (failed : TurnRecord) :
    HasModel (recoveredProcess p failed) (some failed.turnId) (recoveredProcess p failed).selectedTurnModelProfileId
      (recoveredProcess p failed).selectedTurnModelKind (recoveredProcess p failed).selectedTurnModelSource := by
  refine ⟨?_, rfl, rfl, rfl⟩
  unfold recoveredProcess
  split <;> rfl

theorem SameModel.has {p q : Process} {turnId : Option TurnId} {profile : Option String} {kind : Option ModelSelectionKind}
    {source : Option ModelSelectionSource} (h : SameModel p q) (hp : HasModel p turnId profile kind source) :
    HasModel q turnId profile kind source :=
  ⟨h.turn.trans hp.turn, h.profile.trans hp.profile, h.kind.trans hp.kind, h.source.trans hp.source⟩

/-- Model selection takes the resolution as it is, unless the policy refuses it for good. -/
theorem selectTurnModel_recovery (hd : RecoveryDecision d st failed kind input s decision) {q : Process}
    (hq : SameModel (recoveredProcess st.process failed) q)
    (hsel : (recoveryEvaluation d policy a st.process failed kind input).selection = some selection)
    (hvalid : (recoveryEvaluation d policy a st.process failed kind input).invalid = false) :
    selectTurnModel d policy a st.process decision q (some s) =
      .selected (some selection.modelProfileId) (some selection.provenance) := by
  have heval : ∀ initial, evaluateTurn d policy q failed.turnId (some s.startKind) initial
      (decision.metadata.bind (·.nextTurnModelProfileId)) a = recoveryEvaluation d policy a st.process failed kind input := by
    intro initial
    have hkeeps : ∀ b, keepsPinned (some kind) b = true := by
      intro b
      rcases hd.recovery with hk | hk <;> rw [hk] <;> rfl
    unfold recoveryEvaluation evaluateTurn
    rw [hq.existing, hd.override, hd.startKind, hkeeps, hkeeps]
  have hfilter : (recoveryEvaluation d policy a st.process failed kind input).failure.filter (!·.code.recoverable) = none := by
    rw [Option.filter_eq_none_iff]
    intro failure hfailure hrec
    unfold PolicyEvaluation.invalid at hvalid
    rw [hfailure] at hvalid
    exact absurd hrec (by simpa using hvalid)
  unfold selectTurnModel
  rw [(hq.has (hasModel_recovered st.process failed)).turn]
  dsimp only [Option.map_some]
  rw [heval, hfilter, hsel]
  rfl

/-- Preparing the one start of a recovery leaves it with the resolved profile. -/
theorem prepared_recovery (hd : RecoveryDecision d st failed kind input s decision)
    (hs : w.turnStartWrites = [.create s]) (hw : SameModel (recoveredProcess st.process failed) (w.candidate st.process))
    (hwait : (w.candidate st.process).metadata.turnWait = none)
    (hsel : (recoveryEvaluation d policy a st.process failed kind input).selection = some selection)
    (hvalid : (recoveryEvaluation d policy a st.process failed kind input).invalid = false)
    (hkeep : NoColumnReverts st.process failed selection) {v : Writes}
    (h : runModelPreparation d (ctx.at d a (env.models d policy) st decision) st.process decision.metadata w = .ok v) :
    ∃ s', v.turnStartWrites = [.create s'] ∧ s'.id = s.id ∧ s'.state.toState.profile = some selection.modelProfileId := by
  have hturn : s.turnId = failed.turnId := hd.recovers.turn
  obtain ⟨hllm, -, hres, -⟩ := resolution_of_some hsel
  have hwf : selection.Wellformed := hres.wellformed
  have hty := hd.llm hllm
  have hcand := hw.has (hasModel_recovered st.process failed)
  have hcreated : w.createdLlmStart = some s := by
    unfold Writes.createdLlmStart
    rw [creates_one hs, List.find?_cons_of_pos (by simp [hty])]
  have hmodel : selectionHasNoModel d (w.candidate st.process) = false := by
    unfold selectionHasNoModel
    rw [hcand.turn]
    unfold ProcessDefinition.llmTurn at hllm
    simpa using hllm
  have hresolve : shouldResolveSelection st.process (w.candidate st.process) w decision.metadata = true := by
    unfold shouldResolveSelection
    rw [hwait, hcand.turn, hcreated]
    rfl
  unfold runModelPreparation at h
  dsimp only at h
  rw [hmodel, hresolve, hcreated] at h
  simp only [Bool.false_eq_true, if_false, if_true] at h
  rw [show (ctx.at d a (env.models d policy) st decision).selectModel = selectTurnModel d policy a st.process decision from rfl,
    selectTurnModel_recovery hd hw hsel hvalid] at h
  dsimp only at h
  -- the selection is patched over the failed record's model, and no column has to go back
  have hpatched : HasModel ((writeModelSelection w st.process (some selection.modelProfileId)
      (some selection.provenance)).candidate st.process) (some failed.turnId) (some selection.modelProfileId)
      (some selection.provenance.kind) (some selection.provenance.source) :=
    hasModel_patch _ _ _ hcand hkeep.profile hkeep.kind hkeep.source
  have hstarts : (writeModelSelection w st.process (some selection.modelProfileId)
      (some selection.provenance)).turnStartWrites = [.create s] := by
    unfold writeModelSelection
    dsimp only
    rw [turnStartWrites_apply, turnStartWrites_apply, turnStartWrites_apply, hs]
  generalize writeModelSelection w st.process (some selection.modelProfileId) (some selection.provenance) = u at h hpatched hstarts
  replace h : prepareTurnStarts (prepareCreatedTurnStart d policy env a) (u.candidate st.process) [] u u.turnStartWrites =
    .ok v := h
  rw [hstarts] at h
  unfold prepareTurnStarts at h
  rw [if_pos hty] at h
  obtain ⟨prepared, hprep, h⟩ := ok_of_bind h
  cases h
  have hverdict : (prepareCreatedTurnStart d policy env a (u.candidate st.process) s).Keeps selection.modelProfileId := by
    unfold recoveryEvaluation evaluateTurn at hsel
    rw [← hturn] at hsel hpatched
    refine preflight_keeps hsel hwf hpatched ?_ (hd.state hty)
    rw [hd.startKind]
    exact hd.recovery
  obtain ⟨hid, hprofile⟩ := keeps_prepared hverdict hprep
  exact ⟨prepared.start, rfl, hid, hprofile⟩
/-- What `record` prepares of a recovery: the one start with the resolved profile, or none. -/
theorem recovery_prepared (hd : RecoveryDecision d st failed kind input s decision)
    (hfree : st.process.metadata.turnWait = none)
    (hsel : (recoveryEvaluation d policy a st.process failed kind input).selection = some selection)
    (hvalid : (recoveryEvaluation d policy a st.process failed kind input).invalid = false)
    (hkeep : NoColumnReverts st.process failed selection) {v : Writes}
    (h : prepareWrites d (ctx.at d a (env.models d policy) st decision) st decision = .ok v) :
    (∃ s', v.turnStartWrites = [.create s'] ∧ s'.id = s.id ∧ s'.state.toState.profile = some selection.modelProfileId) ∨
      v.creates = [] := by
  have hk : s.startKind ≠ .selectedTurn := by
    rw [hd.startKind]
    rcases hd.recovery with hk | hk <;> rw [hk] <;> decide
  have h₀ : Carried st.process (recoveredProcess st.process failed) s decision.writes :=
    .inl ⟨hd.recovers.starts, hd.model, hd.recovers.wait.trans hfree⟩
  obtain ⟨w₂, w₄, hw₂, hw₄, rfl⟩ := prepareWrites_steps h
  have h₁ := h₀.defer (d := d) decision.metadata (ctx.at d a (env.models d policy) st decision).waitId
  have h₂ : Carried st.process (recoveredProcess st.process failed) s w₂ := by
    have hinner := h₁.defer (d := d) none (ctx.at d a (env.models d policy) st decision).waitId
    unfold planMappedTurnEntries at hw₂
    rw [planMappedEntries_none (hinner.mappedEntry_none hk)] at hw₂
    cases hw₂
    exact hinner.leave _ _ _
  have h₃ := h₂.defer (d := d) decision.metadata (ctx.at d a (env.models d policy) st decision).waitId
  rcases h₃ with ⟨hs, hm, hw⟩ | hnone
  · left
    obtain ⟨s', hs', hid, hprofile⟩ := prepared_recovery hd hs hm hw hsel hvalid hkeep hw₄
    refine ⟨beginEpisode s', ?_, hid, hprofile⟩
    unfold startEpisodes Writes.mapCreates
    rw [hs']
    rfl
  · right
    rw [creates_startEpisodes, List.map_eq_nil_iff]
    have hsettled := runModelPreparation_starts hw₄
    rw [hnone] at hsettled
    exact List.forall₂_nil_left_iff.1 hsettled

/-- Every start a recovery commits carries the profile the policy resolved. -/
theorem recovery_commits {op : Op} (hop : op.recovery? = some (kind, input)) (hs : Sound d st)
    (hf : st.currentTurnRecord = some failed) (h : op.runAt d a ctx (env.models d policy) st = .ok st')
    (hsel : (recoveryEvaluation d policy a st.process failed kind input).selection = some selection)
    (hvalid : (recoveryEvaluation d policy a st.process failed kind input).invalid = false)
    (hkeep : NoColumnReverts st.process failed selection) {k : String} {row : TurnStartRecord}
    (hk : st.turnStarts.get? k = none) (hk' : st'.turnStarts.get? k = some row) :
    row.state.profile = some selection.modelProfileId := by
  unfold Op.runAt at h
  split at h
  · cases h
  obtain ⟨decision, hdec, h⟩ := ok_of_bind h
  obtain ⟨failed', s, -, hd⟩ := recovery_decision hop hdec
  cases hf.symm.trans hd.record
  have hcur : st.process.currentExecution.isSome = true := by
    obtain ⟨id, hid, -⟩ := Option.bind_eq_some_iff.1 hf
    unfold Store.currentTurnRecordId at hid
    split at hid
    · rename_i start hstart
      exact current_isSome_of_start hstart
    · cases hid
  obtain ⟨v, hv, hc⟩ := record_ok h
  unfold commitWrites at hc
  obtain ⟨_, -, hc⟩ := Option.bind_eq_some_iff.1 hc
  obtain ⟨starts, hstarts, hc⟩ := Option.bind_eq_some_iff.1 hc
  obtain ⟨_, -, hc⟩ := Option.bind_eq_some_iff.1 hc
  cases hc
  rcases recovery_prepared hd (hs.gated.wait_none hcur) hsel hvalid hkeep hv with ⟨s', hv', -, hprofile⟩ | hnone
  · rw [hv'] at hstarts
    obtain ⟨-, hget, -⟩ := applyTurnStartWrite_create (applyAll_one.1 hstarts)
    replace hk' : starts.get? k = some row := hk'
    rw [hget] at hk'
    split at hk'
    · cases hk'
      exact hprofile
    · rw [hk] at hk'
      cases hk'
  · obtain ⟨c, hmem, -⟩ := starts_new hstarts hk hk'
    have := mem_creates.2 hmem
    rw [hnone] at this
    cases this
end

/-! ## Composed patches -/

/-- Composed patches are last-writer-wins exactly where the last value is not the process's own or
no call asked for another; and where no model column has to go back to the process's own value, the
start a recovery commits carries the profile the policy resolved with the operator's override. -/
theorem composed_patches (p : Process) (calls : List PatchCall) (c : Column) (last : c.Value) (d : ProcessDefinition)
    (policy : ModelPolicy) (env : PreflightEnvironment) (a : ModelStatusCacheSnapshot) (ctx : Context) (st₀ st st' : Store)
    (h : Runs.Hist Event Result) (op : Op) (kind : TurnStartKind) (input : DecisionMetadata) (failed : TurnRecord)
    (selection : ModelSelection) :
    ((valuesFor c calls).getLast? = some last →
      (c.field.get ((patchedBy p calls).candidate p) = last ↔
        c.field.same (c.field.get p) last = false ∨ ∀ v ∈ valuesFor c calls, v = c.field.get p)) ∧
    (Fresh st₀ → Runs.Run (EngineStep d) st₀ h st → op.recovery? = some (kind, input) → st.currentTurnRecord = some failed →
      op.runAt d a ctx (env.models d policy) st = .ok st' →
      (recoveryEvaluation d policy a st.process failed kind input).selection = some selection →
      (recoveryEvaluation d policy a st.process failed kind input).invalid = false →
      NoColumnReverts st.process failed selection → ∀ k row, st.turnStarts.get? k = none →
      st'.turnStarts.get? k = some row → row.state.profile = some selection.modelProfileId) := by
  refine ⟨fun hlast => last_call_wins_iff p calls c last hlast, ?_⟩
  intro h₀ hr hop hf hrun hsel hvalid hkeep k row hk hk'
  exact recovery_commits hop (sound_of_run hr (sound_fresh h₀)) hf hrun hsel hvalid hkeep hk hk'

/-- Every profile is up. -/
def draftUp : ModelStatusCacheSnapshot := draftAvailability 1 ["large", "small"]

def draftPreflight : PreflightEnvironment where
  modelProfiles id := some ⟨id, "provider", id, "off"⟩

/-- The context of an operation that names a model override. -/
def draftContext (n : String) (override : Option (Option String)) : Context :=
  { demoContext n with
    selectModel := selectTurnModel draftDefinition draftPolicy draftUp demoFresh.process
      { metadata := some { nextTurnModelProfileId := override } }
    preflight := some (prepareCreatedTurnStart draftDefinition draftPolicy draftPreflight draftUp) }

def draftLease : WorkerLease :=
  { demoLease "tsr-10" with
    bootstrapReceipt := some ⟨"tsr-10", "lease", some
      { verifiedResourceSnapshotDigest := "", providerId := "provider", modelId := "large"
        preparedStart := some { pathType := .primary, contextMode := "inherit", startTarget := .currentLeaf
                                forkPiEntryId := none } }⟩ }

/-- The draft turn starts with the default model and fails. -/
def draftFailed : List Event :=
  [.op (.startProcess { startTurnId := "draft" }) (draftContext "1" none), .leases [draftLease],
   .op (.acceptWorkerTurnStart ⟨"lease", "tsr-10", "trn-10"⟩) (draftContext "2" none),
   .op (.turnFailed { turnRecordId := "trn-10", turnId := "draft", turnType := .llm, errorSummary := "exit 1" })
     (draftContext "3" none)]

/-- An action then chooses the other model for the next turn. -/
def draftChosen : List Event :=
  draftFailed ++ [.op .executeAction { draftContext "4" (some (some "small")) with
    planProcessAction := fun _ => .ok { nextTurnModelProfileId := some (some "small") } }]

/-- The store of the draft process after the events. -/
def afterDraft (es : List Event) : Store := es.foldl (next draftDefinition) demoFresh

theorem run_draft (es : List Event) : Runs.Run (EngineStep draftDefinition) demoFresh
    (Runs.play (next draftDefinition) (outputs draftDefinition) demoFresh es) (afterDraft es) :=
  Runs.run_play _ _ (fun _ _ => ⟨rfl, rfl⟩) _ _

/-- The operator retries with the other model. -/
def draftRetry : DecisionMetadata := { nextTurnModelProfileId := some (some "small") }

/-- The operator's choice as the policy resolves it. -/
def draftSelection : ModelSelection := ⟨"small", .explicit, .actionOverride⟩

/-- Whether the policy resolves the retry of the failed record to the operator's choice. -/
def draftResolves (st : Store) : Bool :=
  st.currentTurnRecord.any fun failed =>
    let e := recoveryEvaluation draftDefinition draftPolicy draftUp st.process failed .retry draftRetry
    e.selection == some draftSelection && !e.invalid

theorem draftResolves_some (st : Store) (h : draftResolves st = true) : ∃ failed, st.currentTurnRecord = some failed ∧
    (recoveryEvaluation draftDefinition draftPolicy draftUp st.process failed .retry draftRetry).selection = some draftSelection ∧
    (recoveryEvaluation draftDefinition draftPolicy draftUp st.process failed .retry draftRetry).invalid = false := by
  obtain ⟨failed, hf, hb⟩ := (Option.any_eq_true _ _).1 h
  simp only [Bool.and_eq_true, beq_iff_eq, Bool.not_eq_true'] at hb
  exact ⟨failed, hf, hb⟩

/-- What the operator's retry commits. -/
def draftRetried (es : List Event) : Except Rejection Store :=
  (Op.retryFailedTurn draftRetry).runAt draftDefinition draftUp (demoContext "5") (draftPreflight.models draftDefinition draftPolicy)
    (afterDraft es)

/-- The profile of the start it commits. -/
def retriedProfile (es : List Event) : Option (Option String) :=
  ((draftRetried es).toOption.bind (·.turnStarts.get? "tsr-50")).map (·.state.profile)

/-- A choice that is not the process's own takes effect. -/
theorem composed_patches_demo :
    Field.selectedTurnModelProfileId.get ((patchedBy demoFresh.process
      [⟨.selectedTurnModelProfileId, some "small"⟩, ⟨.selectedTurnModelProfileId, some "large"⟩]).candidate demoFresh.process) =
        some "large" ∧
    ∀ st' row, draftRetried draftFailed = .ok st' → st'.turnStarts.get? "tsr-50" = some row →
      row.state.profile = some "small" := by
  obtain ⟨failed, hf, hsel, hvalid⟩ := draftResolves_some (afterDraft draftFailed) (by decide +kernel)
  have hdemo := fun st' => composed_patches demoFresh.process
    [⟨.selectedTurnModelProfileId, some "small"⟩, ⟨.selectedTurnModelProfileId, some "large"⟩] .selectedTurnModelProfileId
    (some "large") draftDefinition draftPolicy draftPreflight draftUp (demoContext "5") demoFresh (afterDraft draftFailed) st'
    (Runs.play (next draftDefinition) (outputs draftDefinition) demoFresh draftFailed) (.retryFailedTurn draftRetry) .retry
    draftRetry failed draftSelection
  constructor
  · exact ((hdemo demoFresh).1 rfl).2 (.inl rfl)
  · intro st' row hrun hrow
    have hprofile : some "small" ≠ (afterDraft draftFailed).process.selectedTurnModelProfileId := by decide +kernel
    have hkind : some ModelSelectionKind.explicit ≠ (afterDraft draftFailed).process.selectedTurnModelKind := by decide +kernel
    have hsource : some ModelSelectionSource.actionOverride ≠ (afterDraft draftFailed).process.selectedTurnModelSource := by
      decide +kernel
    exact (hdemo st').2 fresh_demo (run_draft draftFailed) rfl hf hrun hsel hvalid
      ⟨fun h => absurd h hprofile, fun h => absurd h hkind, fun h => absurd h hsource⟩ "tsr-50" row (by decide +kernel) hrow

example : retriedProfile draftFailed = some (some "small") := by decide +kernel

/-- The action made the chosen model the process's own: the recovery patches the failed record's
model, and the operator's choice of what the process has does not undo it. -/
theorem override_lost :
    (¬ ∀ (p : Process) (calls : List PatchCall) (c : Column) (last : c.Value), (valuesFor c calls).getLast? = some last →
      c.field.get ((patchedBy p calls).candidate p) = last) ∧
    ¬ ∀ (d : ProcessDefinition) (policy : ModelPolicy) (env : PreflightEnvironment) (a : ModelStatusCacheSnapshot)
      (ctx : Context) (st₀ st st' : Store) (h : Runs.Hist Event Result) (op : Op) (kind : TurnStartKind)
      (input : DecisionMetadata) (failed : TurnRecord) (selection : ModelSelection), Fresh st₀ →
      Runs.Run (EngineStep d) st₀ h st → op.recovery? = some (kind, input) → st.currentTurnRecord = some failed →
      op.runAt d a ctx (env.models d policy) st = .ok st' →
      (recoveryEvaluation d policy a st.process failed kind input).selection = some selection →
      (recoveryEvaluation d policy a st.process failed kind input).invalid = false → ∀ k row, st.turnStarts.get? k = none →
      st'.turnStarts.get? k = some row → row.state.profile = some selection.modelProfileId := by
  constructor
  · intro hall
    have hlast := hall { demoFresh.process with selectedTurnModelProfileId := some "small" }
      [⟨.selectedTurnModelProfileId, some "large"⟩, ⟨.selectedTurnModelProfileId, some "small"⟩] .selectedTurnModelProfileId
      (some "small") rfl
    have hfirst : some "large" = some "small" := hlast
    exact absurd hfirst (by decide)
  · intro hall
    obtain ⟨failed, hf, hsel, hvalid⟩ := draftResolves_some (afterDraft draftChosen) (by decide +kernel)
    have hlost : retriedProfile draftChosen = some (some "large") := by decide +kernel
    unfold retriedProfile at hlost
    obtain ⟨row, hrow, hprofile⟩ := Option.map_eq_some_iff.1 hlost
    obtain ⟨st', hst', hrow⟩ := Option.bind_eq_some_iff.1 hrow
    cases hrun : draftRetried draftChosen with
    | error why =>
      rw [hrun] at hst'
      cases hst'
    | ok st'' =>
      rw [hrun] at hst'
      cases hst'
      have hall := hall draftDefinition draftPolicy draftPreflight draftUp (demoContext "5") demoFresh
        (afterDraft draftChosen) st' _ (.retryFailedTurn draftRetry) .retry draftRetry failed draftSelection fresh_demo
        (run_draft draftChosen) rfl hf hrun hsel hvalid "tsr-50" row (by decide +kernel) hrow
      rw [hprofile] at hall
      exact absurd hall (by decide)

end Leitwerk.Engine
