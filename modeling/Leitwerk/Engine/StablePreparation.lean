import Leitwerk.Engine.Availability
import Leitwerk.Engine.Sound
/-!
# A discarded attempt leaves no trace

The worker intent is the one key an attempt may add that the reset does not take
back. Every later preparation of the same starts sets it again, or neither
attempt sets it: whether the policy refuses a selection for good does not depend
on availability. So the recorder with its two attempts is the recorder with one
preparation, at the snapshot whose revision did not move.
-/

namespace Leitwerk.Engine

open Results (ok_of_bind)

variable {d : ProcessDefinition} {ctx : Context} {p next : Process} {w : Writes} {metadata : Option DecisionMetadata}
  {pf : Process → TurnStartInput → PreflightVerdict} {done ws : List TurnStartWrite}

/-! ## The worker intent an attempt may leave -/

/-- The writes with another worker intent. -/
def Writes.withIntent (w : Writes) (x : Option WorkerIntent) : Writes := { w with workerIntent := x }

@[simp] theorem candidate_withIntent (x : Option WorkerIntent) : (w.withIntent x).candidate p = w.candidate p := rfl

@[simp] theorem created_withIntent (x : Option WorkerIntent) : (w.withIntent x).createdLlmStart = w.createdLlmStart := rfl

theorem withIntent_self (w : Writes) : w.withIntent w.workerIntent = w := rfl

theorem apply_withIntent {α : Type} (f : Field α) (q : Process) (v : α) (x : Option WorkerIntent) :
    applyProcessPatchField (w.withIntent x) q f v = (applyProcessPatchField w q f v).withIntent x := by
  unfold applyProcessPatchField
  split <;> rfl

theorem modelSelection_withIntent (q : Process) (id : Option String) (provenance : Option ModelSelectionProvenance)
    (x : Option WorkerIntent) :
    writeModelSelection (w.withIntent x) q id provenance = (writeModelSelection w q id provenance).withIntent x := by
  unfold writeModelSelection
  dsimp only
  rw [apply_withIntent, apply_withIntent, apply_withIntent]

theorem park_withIntent (q : Process) (summary : String) (x : Option WorkerIntent) :
    parkInvalidModelConfiguration (w.withIntent x) q summary = parkInvalidModelConfiguration w q summary := by
  have hreplace : (w.withIntent x).replaceCreate (invalidModelStart q summary) =
    (w.replaceCreate (invalidModelStart q summary)).withIntent x := rfl
  unfold parkInvalidModelConfiguration
  rw [hreplace, apply_withIntent]
  rfl

/-- Each prepared LLM start sets the intent, so the one before does not matter. -/
theorem prepareTurnStarts_withIntent (x : Option WorkerIntent) {s : TurnStartInput} (hs : .create s ∈ ws)
    (hty : s.turnType = .llm) : prepareTurnStarts pf next done (w.withIntent x) ws = prepareTurnStarts pf next done w ws := by
  induction ws generalizing next done w with
  | nil => cases hs
  | cons y ws ih =>
    cases y with
    | create r =>
      unfold prepareTurnStarts
      by_cases hr : r.turnType = .llm
      · rw [if_pos hr, if_pos hr]
        cases hp : prepareStart (pf next r) r with
        | error why => rfl
        | ok prepared =>
          have hwrite : prepared.write (w.withIntent x) = prepared.write w := rfl
          show prepareTurnStarts pf _ _ (prepared.write (w.withIntent x)) ws = _
          rw [hwrite]
          rfl
      · rw [if_neg hr, if_neg hr]
        rcases List.mem_cons.1 hs with heq | hs
        · cases heq
          exact absurd hty hr
        · exact ih hs
    | casState id kind state retry =>
      unfold prepareTurnStarts
      rcases List.mem_cons.1 hs with heq | hs
      · cases heq
      · exact ih hs

theorem attemptTurnStarts_intent (hno : ∀ s, .create s ∈ ws → s.turnType ≠ .llm) :
    (attemptTurnStarts pf next done w ws).writes.workerIntent = w.workerIntent := by
  induction ws generalizing next done w with
  | nil => rfl
  | cons x ws ih =>
    have hrest := fun s hs => hno s (List.mem_cons_of_mem _ hs)
    cases x with
    | create s =>
      unfold attemptTurnStarts
      rw [if_neg (hno s List.mem_cons_self)]
      exact ih hrest
    | casState id kind state retry =>
      unfold attemptTurnStarts
      exact ih hrest

theorem intent_apply {α : Type} (f : Field α) (q : Process) (v : α) :
    (applyProcessPatchField w q f v).workerIntent = w.workerIntent := by
  unfold applyProcessPatchField
  split <;> rfl

theorem intent_modelSelection (q : Process) (id : Option String) (provenance : Option ModelSelectionProvenance) :
    (writeModelSelection w q id provenance).workerIntent = w.workerIntent := by
  unfold writeModelSelection
  dsimp only
  rw [intent_apply, intent_apply, intent_apply]

theorem starts_modelSelection (q : Process) (id : Option String) (provenance : Option ModelSelectionProvenance) :
    (writeModelSelection w q id provenance).turnStartWrites = w.turnStartWrites := by
  unfold writeModelSelection
  dsimp only
  rw [turnStartWrites_apply, turnStartWrites_apply, turnStartWrites_apply]

theorem createdLlmStart_none (h : w.createdLlmStart = none) : ∀ s, .create s ∈ w.turnStartWrites → s.turnType ≠ .llm := by
  intro s hs hty
  have := List.find?_eq_none.1 h s (mem_creates.2 hs)
  simp [hty] at this

theorem createdLlmStart_some {s : TurnStartInput} (h : w.createdLlmStart = some s) :
    .create s ∈ w.turnStartWrites ∧ s.turnType = .llm :=
  ⟨mem_creates.1 (List.mem_of_find?_eq_some h), by simpa using List.find?_some h⟩

/-- Without an LLM start or without preflight, the last step leaves the intent. -/
theorem attemptPreflight_intent (h : ctx.preflight = none ∨ ∀ s, .create s ∈ w.turnStartWrites → s.turnType ≠ .llm) :
    (attemptPreflight ctx p w).writes.workerIntent = w.workerIntent := by
  unfold attemptPreflight
  cases hp : ctx.preflight with
  | none => rfl
  | some preflight =>
    rcases h with hnone | hno
    · rw [hp] at hnone
      cases hnone
    · exact attemptTurnStarts_intent hno

/-- Preparation resolves a selection and the policy refuses it for good. -/
def Refused (d : ProcessDefinition) (ctx : Context) (p : Process) (metadata : Option DecisionMetadata) (w : Writes) : Prop :=
  selectionHasNoModel d (w.candidate p) = false ∧ shouldResolveSelection p (w.candidate p) w metadata = true ∧
    ∃ why, ctx.selectModel (w.candidate p) w.createdLlmStart = .invalid why

/-- The attempts that leave the intent: no LLM start, or no preflight and no refusal. -/
theorem attempt_intent (h : w.createdLlmStart = none ∨ ctx.preflight = none ∧ ¬ Refused d ctx p metadata w) :
    (attemptModelPreparation d ctx p metadata w).writes.workerIntent = w.workerIntent := by
  have hflight : ∀ u : Writes, u.turnStartWrites = w.turnStartWrites → u.workerIntent = w.workerIntent →
      (attemptPreflight ctx p u).writes.workerIntent = w.workerIntent := by
    intro u hs hu
    rw [← hu]
    refine attemptPreflight_intent (h.symm.imp And.left fun hnone => ?_)
    rw [hs]
    exact createdLlmStart_none hnone
  unfold attemptModelPreparation
  dsimp only
  split
  · exact hflight _ (starts_modelSelection _ _ _) (intent_modelSelection _ _ _)
  rename_i hmodel
  split
  · rename_i hres
    split
    · exact hflight _ (starts_modelSelection _ _ _) (intent_modelSelection _ _ _)
    · rename_i why hwhy
      split
      · rename_i hsome
        rcases h with hnone | ⟨-, hvalid⟩
        · rw [hnone] at hsome
          cases hsome
        · exact absurd ⟨by simpa using hmodel, hres, why, hwhy⟩ hvalid
      · rfl
  · exact hflight w rfl rfl

theorem preflight_withIntent (ctx : Context) (p : Process) (w : Writes) (x : Option WorkerIntent) {s : TurnStartInput}
    (hs : .create s ∈ w.turnStartWrites) (hty : s.turnType = .llm) {preflight : Process → TurnStartInput → PreflightVerdict} (hp : ctx.preflight = some preflight) :
    (match ctx.preflight with
      | some preflight => prepareTurnStarts preflight ((w.withIntent x).candidate p) [] (w.withIntent x)
          (w.withIntent x).turnStartWrites
      | none => .ok (w.withIntent x)) =
    match ctx.preflight with
      | some preflight => prepareTurnStarts preflight (w.candidate p) [] w w.turnStartWrites
      | none => Except.ok w := by
  rw [hp]
  exact prepareTurnStarts_withIntent x hs hty

/-- Where every preparation of an LLM start sets the intent, the one it begins with does not matter. -/
theorem preparation_withIntent (x : Option WorkerIntent) {s : TurnStartInput} (hs : w.createdLlmStart = some s)
    (h : (∃ preflight, ctx.preflight = some preflight) ∨ Refused d ctx p metadata w) :
    runModelPreparation d ctx p metadata (w.withIntent x) = runModelPreparation d ctx p metadata w := by
  obtain ⟨hmem, hty⟩ := createdLlmStart_some hs
  have hresolve : shouldResolveSelection p (w.candidate p) (w.withIntent x) metadata =
    shouldResolveSelection p (w.candidate p) w metadata := rfl
  unfold runModelPreparation
  dsimp only
  rw [candidate_withIntent, created_withIntent, hresolve]
  rcases h with ⟨preflight, hp⟩ | ⟨hmodel, hres, why, hwhy⟩
  · have hselect : ∀ id provenance, _ := fun id provenance =>
      preflight_withIntent ctx p (writeModelSelection w p id provenance) x
        (by rw [starts_modelSelection]; exact hmem) hty hp
    split
    · rw [modelSelection_withIntent]
      exact hselect none none
    split
    · cases ctx.selectModel (w.candidate p) w.createdLlmStart with
      | selected id provenance =>
        dsimp only
        rw [modelSelection_withIntent]
        exact hselect id provenance
      | invalid why =>
        dsimp only
        rw [park_withIntent]
    · exact preflight_withIntent ctx p w x hmem hty hp
  · rw [hmodel, hres, hwhy, hs]
    dsimp only
    rw [park_withIntent]
    simp only [Bool.false_eq_true, if_false, if_true]

/-! ## The attempts against one preparation -/

variable {models : ModelEnvironment} {st : Store} {decision : Decision} {a b : ModelStatusCacheSnapshot}

/-- Whether the selection is refused for good does not depend on the snapshot. -/
theorem selectTurnModel_snapshot {initial candidate : Process} {created : Option TurnStartInput} {why : Rejection}
    (h : selectTurnModel d models.policy a initial decision candidate created = .invalid why) :
    ∃ why', selectTurnModel d models.policy b initial decision candidate created = .invalid why' := by
  unfold selectTurnModel at h ⊢
  split at h
  · cases h
  · rename_i turnId _
    have hsame := resolveTurn_snapshot d models.policy turnId (keepsPinned (created.map (·.startKind))
      (asksInitialSelection initial decision.writes.waitForAdmission created)) (existingTurnSelectionFromProcess candidate)
      (modelOverride (decision.metadata.bind (·.nextTurnModelProfileId))) a b
    dsimp only at h ⊢
    unfold evaluateTurn at h ⊢
    generalize resolveTurn d models.policy turnId _ _ _ a = ea at h hsame
    generalize resolveTurn d models.policy turnId _ _ _ b = eb at hsame ⊢
    split at h
    · rename_i failure hfailure
      obtain ⟨hf, hrec⟩ := Option.filter_eq_some_iff.1 hfailure
      have hinvalid : eb.invalid = true := by
        rw [← hsame]
        unfold PolicyEvaluation.invalid
        rw [hf]
        exact hrec
      obtain ⟨failure', hf', hrec'⟩ := (Option.any_eq_true _ _).1 hinvalid
      have hkept : eb.failure.filter (!·.code.recoverable) = some failure' := Option.filter_eq_some_iff.2 ⟨hf', hrec'⟩
      exact ⟨_, by rw [hkept]⟩
    · cases h

/-- What an attempt at one revision leaves behind is overwritten by the preparation at the next. -/
theorem preparation_after_reset (w : Writes) :
    runModelPreparation d (ctx.at d b models st decision) st.process decision.metadata
        (resetWrites w (attemptModelPreparation d (ctx.at d a models st decision) st.process decision.metadata w).writes) =
      runModelPreparation d (ctx.at d b models st decision) st.process decision.metadata w := by
  have hkeys : SameKeys w (attemptModelPreparation d (ctx.at d a models st decision) st.process decision.metadata w).writes :=
    sameKeys_attempt
  generalize hleft : (attemptModelPreparation d (ctx.at d a models st decision) st.process decision.metadata w).writes = left
    at hkeys ⊢
  have hreset : resetWrites w left = w.withIntent (w.workerIntent.or left.workerIntent) := by
    unfold resetWrites Writes.withIntent
    rw [hkeys.admission, hkeys.projects, Option.or_self, Option.or_self]
  have hsame : left.workerIntent = w.workerIntent → resetWrites w left = w := by
    intro h
    rw [hreset, h, Option.or_self, withIntent_self]
  rw [hreset]
  cases hs : w.createdLlmStart with
  | none => rw [← hreset, hsame (hleft ▸ attempt_intent (.inl hs))]
  | some s =>
    cases hp : models.preflight with
    | some prepare =>
      exact preparation_withIntent _ hs (.inl ⟨prepare b, by simp [Context.at, hp]⟩)
    | none =>
      -- without preflight only a refused selection sets the intent, and it is refused at every snapshot
      have hnone : (ctx.at d a models st decision).preflight = none := by simp [Context.at, hp]
      by_cases hrefused : Refused d (ctx.at d a models st decision) st.process decision.metadata w
      · obtain ⟨hmodel, hres, why, hwhy⟩ := hrefused
        exact preparation_withIntent _ hs (.inr ⟨hmodel, hres, selectTurnModel_snapshot hwhy⟩)
      · rw [← hreset, hsame (hleft ▸ attempt_intent (.inr ⟨hnone, hrefused⟩))]

/-- What is committed of an attempt is what is committed of a preparation with its outcome. -/
theorem commitEvaluated_attempt {x : Attempt} {baseline : Writes} {prepared : Except Rejection Writes}
    (h : x.outcome = prepared) :
    commitEvaluated ctx st baseline (x.writes, some x.refused) = prepared.bind (commitPrepared ctx st baseline) := by
  obtain ⟨writes, refused⟩ := x
  subst h
  cases refused <;> rfl

/-- The recorder with its two attempts is the recorder with one preparation at the snapshot whose
revision did not move, and refuses the decision when there is none. -/
theorem recordStable_eq (models : ModelEnvironment) (availability first second : ModelStatusCacheSnapshot) (st : Store)
    (decision : Decision) : recordStable d ctx models availability first second st decision =
      match stableSnapshot [first, second] availability with
      | some a => recordOnce d ctx models a st decision
      | none => (baselineWrites d ctx st decision).bind fun _ => .error staleEvaluation := by
  unfold recordStable recordOnce
  cases baselineWrites d ctx st decision with
  | error why => split <;> rfl
  | ok baseline =>
    show commitEvaluated ctx st baseline _ = _
    unfold evaluateAtStableAvailabilityRevision stableSnapshot
    by_cases hfirst : first.revision = availability.revision
    · simp only [hfirst, if_true]
      exact commitEvaluated_attempt attempt_outcome
    · simp only [hfirst, if_false]
      unfold evaluateAtStableAvailabilityRevision stableSnapshot
      by_cases hsecond : second.revision = first.revision
      · simp only [hsecond, if_true]
        exact commitEvaluated_attempt (attempt_outcome.trans (preparation_after_reset baseline))
      · simp only [hsecond, if_false]
        rfl

/-! ## The recorder of the engine -/

/-- Planning mapped entries reads the ids of the context alone. -/
theorem planMappedEntries_context (ctx ctx' : Context) {p : Process} {active : Option MappedRun} (hf : ctx'.fresh = ctx.fresh)
    (hr : ctx'.runId = ctx.runId) (hw : ctx'.waitId = ctx.waitId) (left : Nat) (b : Bool) (w : Writes) :
    planMappedEntries d ctx' p active left b w = planMappedEntries d ctx p active left b w := by
  induction left generalizing b w with
  | zero =>
    unfold planMappedEntries
    rw [hw]
    dsimp only
    generalize deferTurnWaitStarts d p none ctx.waitId w = u
    cases mappedEntry d (u.candidate p) u <;> rfl
  | succ left ih =>
    unfold planMappedEntries
    rw [hw, hr, hf]
    dsimp only
    generalize deferTurnWaitStarts d p none ctx.waitId w = u
    rcases mappedEntry d (u.candidate p) u with _ | ⟨start, spec⟩
    · rfl
    · dsimp only
      cases spec.freezeItems (u.candidate p) with
      | error why => rfl
      | ok frozen =>
        dsimp only [bind, Except.bind]
        cases frozen.items with
        | cons first rest => rfl
        | nil =>
          dsimp only
          split
          · rfl
          · exact ih _ _

theorem baselineWrites_at (models : ModelEnvironment) (a : ModelStatusCacheSnapshot) :
    baselineWrites d (ctx.at d a models st decision) st decision = baselineWrites d ctx st decision := by
  unfold baselineWrites planMappedTurnEntries
  dsimp only
  rw [planMappedEntries_context ctx (ctx.at d a models st decision) rfl rfl rfl]
  rfl

/-- The keys the accounting goes by: a start keeps its id and its episode through preparation. -/
theorem settled_episode {s s' : TurnStartInput} (h : SettledStart s s') : s'.id = s.id ∧ s'.automaticRetry = s.automaticRetry := by
  rcases h with rfl | ⟨-, state, rfl⟩ <;> exact ⟨rfl, rfl⟩

theorem settled_ids {l l' : List TurnStartInput} (h : List.Forall₂ SettledStart l l') : l.map (·.id) = l'.map (·.id) := by
  induction h with
  | nil => rfl
  | cons hs _ ih => rw [List.map_cons, List.map_cons, ih, (settled_episode hs).1]

/-- In a list of starts with distinct ids, the start found by its id is the one. -/
theorem find_by_id {l : List TurnStartInput} (hl : (l.map (·.id)).Nodup) {s : TurnStartInput} (hs : s ∈ l) :
    l.find? (·.id = s.id) = some s := by
  induction l with
  | nil => cases hs
  | cons r l ih =>
    rw [List.map_cons, List.nodup_cons] at hl
    by_cases hid : r.id = s.id
    · rw [List.find?_cons_of_pos (by simpa using hid)]
      rcases List.mem_cons.1 hs with rfl | hmem
      · rfl
      · exact absurd (hid ▸ List.mem_map_of_mem hmem) hl.1
    · rw [List.find?_cons_of_neg (by simpa using hid)]
      rcases List.mem_cons.1 hs with rfl | hmem
      · exact absurd rfl hid
      · exact ih hl.2 hmem

theorem accountEpisodes_eq {baseline : Writes} (h : List.Forall₂ SettledStart baseline.creates w.creates)
    (hids : (baseline.creates.map (·.id)).Nodup) : accountEpisodes baseline w = startEpisodes w := by
  unfold accountEpisodes startEpisodes Writes.mapCreates
  congr 1
  apply List.map_congr_left
  intro x hx
  cases x with
  | casState => rfl
  | create s =>
    obtain ⟨r, hr, hrs⟩ := exists_of_forall₂ h (mem_creates.2 hx)
    obtain ⟨hid, hretry⟩ := settled_episode hrs
    dsimp only
    rw [hid, find_by_id hids hr, Option.bind_some, hretry]

/-- A commit creates starts under distinct ids. -/
theorem creates_nodup {t t' : Table String TurnStartRecord} {ws : List TurnStartWrite}
    (h : applyAll applyTurnStartWrite t ws = some t') : ((ws.filterMap (·.create?)).map (·.id)).Nodup := by
  induction ws generalizing t with
  | nil => exact List.nodup_nil
  | cons x ws ih =>
    obtain ⟨u, hx, hu⟩ := applyAll_cons.1 h
    cases x with
    | casState => exact ih hu
    | create s =>
      rw [List.filterMap_cons_some (create?_create s), List.map_cons, List.nodup_cons]
      refine ⟨fun hmem => ?_, ih hu⟩
      obtain ⟨r, hr, hid⟩ := List.mem_map.1 hmem
      obtain ⟨-, hget, -⟩ := applyTurnStartWrite_create hx
      have hnone := (starts_created hu (mem_creates (w := { turnStartWrites := ws }) |>.1 hr)).1
      rw [hget, if_pos hid] at hnone
      cases hnone

theorem commit_distinct {now : String} {st st' : Store} (h : commitWrites now st w = some st') :
    (w.creates.map (·.id)).Nodup := by
  unfold commitWrites at h
  obtain ⟨_, -, h⟩ := Option.bind_eq_some_iff.1 h
  obtain ⟨_, hstarts, -⟩ := Option.bind_eq_some_iff.1 h
  exact creates_nodup hstarts

theorem settled_refl (l : List TurnStartInput) : List.Forall₂ SettledStart l l :=
  List.forall₂_same.2 fun _ _ => .inl rfl

theorem invalidModelStart_settled {q : Process} {summary : String} {s s' : TurnStartInput}
    (h : invalidModelStart q summary s = some s') : SettledStart s s' := by
  unfold invalidModelStart at h
  dsimp only at h
  split at h
  · rename_i hty
    cases h
    exact .inr ⟨hty, _, rfl⟩
  · cases h

theorem settled_replace (q : Process) (summary : String) (l : List TurnStartInput) :
    List.Forall₂ SettledStart l (l.replaceF (invalidModelStart q summary)) := by
  induction l with
  | nil => exact .nil
  | cons s l ih =>
    unfold List.replaceF
    split
    · rename_i hnone
      exact .cons (.inl rfl) ih
    · rename_i s' hsome
      exact .cons (invalidModelStart_settled hsome) (settled_refl l)

/-- Preparation changes the states of LLM starts and nothing else of the created starts. -/
theorem runModelPreparation_starts {v : Writes} (h : runModelPreparation d ctx p metadata w = .ok v) :
    List.Forall₂ SettledStart w.creates v.creates := by
  have hflight : ∀ u : Writes, u.creates = w.creates → Preflighted ctx p u v → List.Forall₂ SettledStart w.creates v.creates := by
    intro u hu hv
    rw [← hu]
    cases hv with
    | skipped hp hv => exact hv ▸ settled_refl _
    | prepared preflight hp hv =>
      obtain ⟨-, ws', hws, hall⟩ := prepareTurnStarts_ok hv
      rw [List.nil_append] at hws
      rw [← hws] at hall
      exact (creates_settles hall).1
  cases runModelPreparation_ok h with
  | kept hv => exact hflight w rfl hv
  | selected id provenance hv => exact hflight _ (creates_of_starts (starts_modelSelection p id provenance)) hv
  | parked s hs summary hv =>
    have hpark : (parkInvalidModelConfiguration w (w.candidate p) summary).creates =
        (w.replaceCreate (invalidModelStart (w.candidate p) summary)).creates :=
      creates_apply _ _ Field.lifecycleStatus _
    rw [hv, hpark, creates_replaceCreate]
    exact settled_replace _ _ _

/-- Accounting episodes by the ids of the baseline is beginning one for every start without:
writes whose starts share an id are not committed either way. -/
theorem commitPrepared_eq {baseline : Writes} (h : List.Forall₂ SettledStart baseline.creates w.creates) :
    commitPrepared ctx st baseline w = match commitWrites ctx.now st (startEpisodes w) with
      | some st' => .ok st'
      | none => reject "record_failed" "Process operation could not be recorded" := by
  unfold commitPrepared
  by_cases hids : (baseline.creates.map (·.id)).Nodup
  · have heq := accountEpisodes_eq h hids
    cases hc : commitWrites ctx.now st (startEpisodes w) <;> simp only [heq, hc]
  · have hmap : ∀ g : TurnStartInput → TurnStartInput, (∀ s, (g s).id = s.id) → commitWrites ctx.now st (w.mapCreates g) = none := by
      intro g hg
      by_contra hsome
      obtain ⟨st', hst'⟩ := Option.ne_none_iff_exists'.1 hsome
      have hnodup := commit_distinct hst'
      rw [creates_mapCreates, List.map_map] at hnodup
      refine hids ?_
      rw [settled_ids h]
      rwa [show (fun s : TurnStartInput => s.id) ∘ g = fun s => s.id from funext hg] at hnodup
    have haccount : commitWrites ctx.now st (accountEpisodes baseline w) = none := hmap _ fun _ => rfl
    have hbegin : commitWrites ctx.now st (startEpisodes w) = none := hmap _ fun _ => rfl
    rw [haccount, hbegin]

/-- One preparation at a snapshot is the recorder of the engine in the context of that snapshot. -/
theorem recordOnce_eq (a : ModelStatusCacheSnapshot) :
    recordOnce d ctx models a st decision = record d (ctx.at d a models st decision) st decision := by
  unfold recordOnce
  rw [← baselineWrites_at models a]
  unfold record prepareWrites baselineWrites
  dsimp only [bind, Except.bind]
  cases planMappedTurnEntries d (ctx.at d a models st decision) st
    (deferTurnWaitStarts d st.process decision.metadata (ctx.at d a models st decision).waitId decision.writes) with
  | error why => rfl
  | ok u =>
    dsimp only [pure, Except.pure]
    cases hr : runModelPreparation d (ctx.at d a models st decision) st.process decision.metadata
      (deferTurnWaitStarts d st.process decision.metadata (ctx.at d a models st decision).waitId u) with
    | error why => rfl
    | ok w => exact commitPrepared_eq (runModelPreparation_starts hr)

/-! ## Operations at changing availability -/

/-- One operation, with the snapshot its recording begins with and those seen after each attempt. -/
def Op.runStable (d : ProcessDefinition) (ctx : Context) (models : ModelEnvironment)
    (availability first second : ModelStatusCacheSnapshot) (op : Op) (st : Store) : Except Rejection Store := do
  if op.admitsNewTurn ∧ ctx.newTurnBlocked then
    reject "session_transfer_in_progress"
      "A local session transfer is waiting for a stable process snapshot"
  else
    let decision ← op.decide d ctx st
    recordStable d ctx models availability first second st decision

/-- The committed store after the operation. -/
def nextStable (d : ProcessDefinition) (ctx : Context) (models : ModelEnvironment)
    (availability first second : ModelStatusCacheSnapshot) (op : Op) (st : Store) : Store :=
  match op.runStable d ctx models availability first second st with
  | .ok st' => st'
  | .error _ => st

/-- An operation that commits at changing availability is one of the engine's at the snapshot
whose revision did not move. -/
theorem Op.runStable_runAt {availability first second : ModelStatusCacheSnapshot} {op : Op} {st' : Store}
    (h : op.runStable d ctx models availability first second st = .ok st') :
    ∃ a, stableSnapshot [first, second] availability = some a ∧ op.runAt d a ctx models st = .ok st' := by
  unfold Op.runStable at h
  unfold Op.runAt
  split at h
  · cases h
  · rename_i hfree
    obtain ⟨decision, hd, h⟩ := ok_of_bind h
    rw [recordStable_eq] at h
    split at h
    · rename_i a ha
      refine ⟨a, ha, ?_⟩
      rw [if_neg hfree, hd]
      exact (recordOnce_eq a).symm.trans h
    · obtain ⟨_, -, h⟩ := ok_of_bind h
      cases h

/-- The draft turn is started. -/
def draftStart : Decision where
  writes := turnSelectionWrites draftDefinition demoFresh.process
    { fromTurnId := some none, toTurnId := some "draft", trigger := some "start" } ((demoContext "1").fresh 0)

end Leitwerk.Engine
